import ViewDoc.Config
import ViewDoc.Html
import ViewDoc.Registries
import ViewDoc.Render
import ViewDoc.State
import ViewDoc.Variable

/-!
Engines: resolvers and a renderer over one set of registries.
-/

namespace ViewDoc

/-- What the host brings along: how its functions run, how it uses plain values as transforms, its
clock, and its stack. -/
structure Host where
  run : Runner
  asTransform : Value → Transform
  /-- Microseconds by which local clocks are ahead of universal time. -/
  zone : Int
  now : DateTime
  /-- How deep host code can nest what it calls and what it renders. -/
  depth : Nat

structure Engine where
  registries : Registries
  config : Config
  /-- A time that replaces the host's. -/
  now : Option DateTime

namespace Engine

variable (host : Host) (e : Engine)

def clock : Clock := ⟨host.zone, e.now.getD host.now, e.config.twentyFour.truthy⟩

def resolveVariable (v : Value) : Outcome Value :=
  Variable.resolve (e.clock host) e.registries.roots v

def resolveStyle (v : Value) : Except Failure Entries :=
  Style.resolve e.registries.styles e.config.stylesByRoot.truthy v

def caller : Caller := ⟨host.run, e.registries.actions, e.resolveVariable host⟩

/-- Calls a function, which can go on with actions of this engine. -/
def call (f : Value) (args : List Value) : Outcome Value := (e.caller host).call host.depth f args

/-- Factories are given this resolver again. -/
def resolveAction (v : Value) : Outcome Value :=
  Action.resolve e.registries.actions (e.resolveVariable host) (e.call host)
    (some Resolver.ofEngine) v

def resolveState (v : Value) : Outcome Value := State.resolve (e.resolveVariable host) v

def renderer : Renderer where
  components := e.registries.components
  asTransform := host.asTransform
  resolveVariable := e.resolveVariable host
  resolveStyle v := do return .map (← e.resolveStyle v)
  resolveAction := e.resolveAction host
  call := e.call host

def render (c key : Value) : Outcome (Option Node) :=
  (e.renderer host).renderWithin host.depth c key

def html (n : Option Node) : Outcome String := Html.ofNode? (e.call host) n

end Engine
end ViewDoc
