import ViewDoc.Engine
import ViewDoc.Manifest

/-!
A workspace of engines, one of which can be the default.

Engines can share registries, so these are kept apart from the engines and named by number, as are
the engines themselves. What is handed out, such as a renderer, stays with the engine it came from,
whichever engine is the default later. The workspace also holds the log level.
-/

namespace ViewDoc

/-- An engine by the number of its registries. -/
structure EngineSlot where
  registries : Nat
  config : Config
  now : Option DateTime

structure Workspace where
  registries : List Registries
  engines : List EngineSlot
  default : Option Nat
  logLevel : Value

namespace Workspace

def start (logLevel : Int) : Workspace := ⟨[], [], none, .int logLevel⟩

/-- Keeps the log records from the workspace's level on. -/
def keepRecords {α : Type} (w : Workspace) (x : Outcome α) : Outcome α :=
  ⟨x.result, x.journal.filter fun
    | .log r => LogLevel.threshold w.logLevel ≤ r.severity.level
    | .event _ => true⟩

def registriesAt (w : Workspace) (id : Nat) : Registries := w.registries.getD id .empty

def slot (w : Workspace) (id : Nat) : EngineSlot := w.engines.getD id ⟨0, .standard, none⟩

def engine (w : Workspace) (id : Nat) : Engine :=
  let s := w.slot id
  ⟨w.registriesAt s.registries, s.config, s.now⟩

def addRegistries (w : Workspace) (r : Registries) : Nat × Workspace :=
  (w.registries.length, { w with registries := w.registries ++ [r] })

/-- Makes an engine over registries that are there. -/
def create (w : Workspace) (registries : Nat) (config : Config) (now : Option DateTime) :
    Outcome Nat × Workspace :=
  let made : Outcome Nat := do
    Outcome.log .engine .debug ("Engine created with config " ++ config.text)
    return w.engines.length
  (w.keepRecords made, { w with engines := w.engines ++ [⟨registries, config, now⟩] })

def createFresh (w : Workspace) (r : Registries) (config : Config) (now : Option DateTime) :
    Outcome Nat × Workspace :=
  let (id, w) := w.addRegistries r
  w.create id config now

def setup (asTransform : Value → Transform) (w : Workspace) (id : Nat) (more : Additions) :
    Outcome Unit × Workspace :=
  let s := w.slot id
  let (done, r) := (w.registriesAt s.registries).merge asTransform more
  (w.keepRecords done, { w with registries := w.registries.set s.registries r })

def poke (w : Workspace) (id : Nat) (root key v : Value) : Outcome Unit × Workspace :=
  let s := w.slot id
  match (w.registriesAt s.registries).poke root key v with
  | .ok r => (return (), { w with registries := w.registries.set s.registries r })
  | .error e => (.fail e, w)

def configureLogging (w : Workspace) (level : Value) : Outcome Unit × Workspace :=
  match LogLevel.ofValue level with
  | .ok n => (return (), { w with logLevel := n })
  | .error e => (.fail e, w)

/-- Goes on with a result, or passes a failure on; the journals are joined. -/
def andThen {α β : Type} (step : Outcome α × Workspace)
    (next : α → Workspace → Outcome β × Workspace) : Outcome β × Workspace :=
  let (x, w) := step
  match x.result with
  | .error e => (⟨.error e, x.journal⟩, w)
  | .ok a =>
    let (y, w) := next a w
    (⟨y.result, x.journal ++ y.journal⟩, w)

/-- Makes an engine from a manifest, whose log level is set before anything else is done. -/
def createFromManifest (asTransform : Value → Transform) (w : Workspace) (path : String)
    (file : Option ByteArray) (now : Option DateTime) : Outcome Nat × Workspace :=
  andThen (w.keepRecords (Manifest.load path file), w) fun m w =>
    andThen (w.configureLogging m.config.logLevel) fun _ w =>
      andThen (w.createFresh .empty m.config now) fun id w =>
        andThen (w.setup asTransform id ⟨.map m.roots, .map m.styles, [], []⟩) fun _ w =>
          (return id, w)

/-- The default engine, made if there is none yet. -/
def defaultEngine (w : Workspace) : Outcome Nat × Workspace :=
  match w.default with
  | some id => (return id, w)
  | none => andThen (w.createFresh .empty .standard none) fun id w =>
      (return id, { w with default := some id })

/-- Makes an engine the default, or a fresh one if none is given. -/
def resetDefault (w : Workspace) : Option Nat → Outcome Nat × Workspace
  | some id => (return id, { w with default := some id })
  | none => andThen (w.createFresh .empty .standard none) fun id w =>
      (return id, { w with default := some id })

def setupRenderer (asTransform : Value → Transform) (w : Workspace) (components : ComponentTable) :
    Outcome Unit × Workspace :=
  andThen w.defaultEngine fun id w => w.setup asTransform id { Additions.none with components }

def notInitialized : String := "You must call setup_renderer() before using the renderer."

/-- Merges data into the default engine and hands out its number, which stands for its renderer; or
says that no component type is registered. -/
def useRenderer (asTransform : Value → Transform) (w : Workspace) (roots styles : Value)
    (actions : ActionTable) : Outcome (Except String Nat) × Workspace :=
  andThen w.defaultEngine fun id w =>
    if (w.engine id).registries.isInitialized then
      andThen (w.setup asTransform id ⟨roots, styles, actions, []⟩) fun _ w =>
        (return .ok id, w)
    else (return .error notInitialized, w)

def onEngine {α : Type} (w : Workspace) (id : Nat) (f : Engine → Outcome α) : Outcome α :=
  w.keepRecords (f (w.engine id))

end Workspace
end ViewDoc
