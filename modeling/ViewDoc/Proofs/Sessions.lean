import ViewDoc.Proofs.DefaultEngine

/-!
Sessions: requests to a workspace in any order, and the renderers handed out on the way.

The default engine is ready from its first component on, until an engine that is not ready takes its
place. A renderer that was handed out stays with its engine, whichever engine is the default later.
-/

namespace ViewDoc

/-- Merges one after the other, each going on from what the one before it left. -/
def Registries.mergeAll (asTransform : Value → Transform) (r : Registries)
    (calls : List Additions) : Registries :=
  calls.foldl (fun r more => (r.merge asTransform more).2) r

inductive Request where
  | defaultEngine
  | reset (other : Option Nat)
  | setupRenderer (components : ComponentTable)
  | useRenderer (roots styles : Value) (actions : ActionTable)
  | setup (id : Nat) (more : Additions)
  | create (registries : Nat) (config : Config) (now : Option DateTime)
  | createFresh (r : Registries) (config : Config) (now : Option DateTime)
  /-- A call of a renderer that was handed out. -/
  | render (renderer : Nat) (c key : Value)

inductive Reply where
  | engine (id : Nat)
  | done
  | notReady (message : String)
  | renderer (n : Nat)
  | node (n : Option Node)

namespace Request

/-- Requests can name only what is there. -/
def Fits (w : Workspace) : Request → Prop
  | reset other => ∀ id ∈ other, id < w.engines.length
  | setup id _ => id < w.engines.length
  | create n _ _ => n < w.registries.length
  | _ => True

end Request

/-- A workspace, and the engines that renderers were handed out for. -/
structure Session where
  workspace : Workspace
  handed : List Nat

namespace Session

def start (logLevel : Int) : Session := ⟨.start logLevel, []⟩

/-- Goes on in the workspace that a step leaves. -/
def afterwards {α : Type} (s : Session) (reply : α → Reply) (step : Outcome α × Workspace) :
    Outcome Reply × Session :=
  (reply <$> step.1, { s with workspace := step.2 })

/-- Hands out a renderer, if there is one. -/
def handOut (s : Session) (step : Outcome (Except String Nat) × Workspace) :
    Outcome Reply × Session :=
  let reply : Except String Nat → Reply
    | .ok _ => .renderer s.handed.length
    | .error message => .notReady message
  let handed := match step.1.result with
    | .ok (.ok id) => s.handed ++ [id]
    | _ => s.handed
  (reply <$> step.1, ⟨step.2, handed⟩)

def answer (host : Host) (s : Session) : Request → Outcome Reply × Session
  | .defaultEngine => s.afterwards .engine s.workspace.defaultEngine
  | .reset other => s.afterwards .engine (s.workspace.resetDefault other)
  | .setupRenderer components =>
    s.afterwards (fun _ => .done) (s.workspace.setupRenderer host.asTransform components)
  | .useRenderer roots styles actions =>
    s.handOut (s.workspace.useRenderer host.asTransform roots styles actions)
  | .setup id more => s.afterwards (fun _ => .done) (s.workspace.setup host.asTransform id more)
  | .create n config now => s.afterwards .engine (s.workspace.create n config now)
  | .createFresh r config now => s.afterwards .engine (s.workspace.createFresh r config now)
  | .render renderer c key =>
    match s.handed[renderer]? with
    | some id => (.node <$> s.workspace.onEngine id fun e => e.render host c key, s)
    | none => (.fail .notCallable, s)

/-- What a request merges, and into the registries of which number. -/
def merged? (s : Session) : Request → Option (Nat × Additions)
  | .setupRenderer components =>
    some (s.workspace.defaultNumber, { Additions.none with components })
  | .useRenderer roots styles actions =>
    if s.workspace.defaultRegistries.isInitialized then
      some (s.workspace.defaultNumber, ⟨roots, styles, actions, []⟩)
    else none
  | .setup id more => some ((s.workspace.slot id).registries, more)
  | _ => none

/-- All that requests merge into the registries of a number, one after the other. -/
def mergedInto (host : Host) (n : Nat) : Session → List Request → List Additions
  | _, [] => []
  | s, request :: later =>
    let rest := mergedInto host n (s.answer host request).2 later
    match s.merged? request with
    | some (m, more) => if m = n then more :: rest else rest
    | none => rest

/-- Requests, one after the other, each of which can be made where it is made. -/
inductive Runs (host : Host) : Session → List Request → Session → Prop
  | nil (s : Session) : Runs host s [] s
  | cons {s s' : Session} {request : Request} {later : List Request} :
      request.Fits s.workspace → Runs host (s.answer host request).2 later s' →
      Runs host s (request :: later) s'

/-- Renderers belong to engines that are there. -/
structure IsSound (s : Session) : Prop where
  workspace : s.workspace.IsSound
  handed : ∀ id ∈ s.handed, id < s.workspace.engines.length

variable {host : Host} {s s' : Session} {request : Request} {later : List Request}

theorem isSound_start (logLevel : Int) : (start logLevel).IsSound :=
  ⟨⟨fun _ h => (by cases h), fun _ h => (by cases h)⟩, fun _ h => by cases h⟩

theorem advances_answer (host : Host) (h : request.Fits s.workspace) :
    s.workspace.Advances host.asTransform (s.merged? request)
      (s.answer host request).2.workspace := by
  cases request with
  | defaultEngine => exact Workspace.advances_defaultEngine _
  | reset other => exact Workspace.advances_resetDefault h
  | setupRenderer components => exact Workspace.advances_setupRenderer _ _ components
  | useRenderer roots styles actions => exact Workspace.advances_useRenderer _ _ _ _ actions
  | setup id more => exact Workspace.advances_setup _ id more
  | create n config now => exact Workspace.advances_create h config now
  | createFresh r config now => exact Workspace.advances_createFresh _ r config now
  | render renderer c key =>
    rw [answer]
    split
    · exact .refl _
    · exact .refl _

section HandOut

variable {step : Outcome (Except String Nat) × Workspace}

theorem handOut_of_message {message : String} (h : step.1.result = .ok (.error message)) :
    (s.handOut step).1.result = .ok (.notReady message) ∧
      (s.handOut step).2 = ⟨step.2, s.handed⟩ := by
  rw [handOut, Outcome.result_map, h]
  exact ⟨rfl, rfl⟩

theorem handOut_of_engine {id : Nat} (h : step.1.result = .ok (.ok id)) :
    (s.handOut step).1.result = .ok (.renderer s.handed.length) ∧
      (s.handOut step).2 = ⟨step.2, s.handed ++ [id]⟩ := by
  rw [handOut, Outcome.result_map, h]
  exact ⟨rfl, rfl⟩

theorem handOut_of_error {f : Failure} (h : step.1.result = .error f) :
    (s.handOut step).1.result = .error f ∧ (s.handOut step).2 = ⟨step.2, s.handed⟩ := by
  rw [handOut, Outcome.result_map, h]
  exact ⟨rfl, rfl⟩

end HandOut

/-- The default engine has components. -/
def IsReady (s : Session) : Prop := s.workspace.defaultRegistries.components ≠ []

section UseRenderer

variable (host) (roots styles : Value) (actions : ActionTable)

theorem answer_useRenderer_of_empty (h : ¬ s.IsReady) :
    (s.answer host (.useRenderer roots styles actions)).1.result =
        .ok (.notReady Workspace.notInitialized) ∧
      (s.answer host (.useRenderer roots styles actions)).2 =
        ⟨s.workspace.defaultEngine.2, s.handed⟩ := by
  obtain ⟨hresult, hw⟩ := Workspace.useRenderer_of_empty host.asTransform s.workspace roots styles
    actions (not_not.1 h)
  obtain ⟨hreply, hs⟩ := handOut_of_message (s := s) hresult
  exact ⟨hreply, hs.trans (by rw [hw])⟩

/-- Where the default engine is ready, a renderer is handed out unless merging fails. -/
theorem answer_useRenderer_of_ready (h : s.IsReady) :
    let done := s.workspace.defaultEngine.2.setup host.asTransform s.workspace.defaultId
      ⟨roots, styles, actions, []⟩
    let answer := s.answer host (.useRenderer roots styles actions)
    (∃ f, done.1.result = .error f ∧ answer.1.result = .error f ∧
      answer.2 = ⟨done.2, s.handed⟩) ∨
    (done.1.result = .ok () ∧ answer.1.result = .ok (.renderer s.handed.length) ∧
      answer.2 = ⟨done.2, s.handed ++ [s.workspace.defaultId]⟩) := by
  intro done answer
  obtain ⟨hresult, hw⟩ := Workspace.useRenderer_of_filled host.asTransform s.workspace roots styles
    actions h
  cases hd : done.1.result with
  | error f =>
    obtain ⟨hreply, hs⟩ := handOut_of_error (s := s) (hresult.trans (congrArg _ hd))
    exact .inl ⟨f, rfl, hreply, hs.trans (by rw [hw])⟩
  | ok u =>
    obtain ⟨hreply, hs⟩ := handOut_of_engine (s := s) (hresult.trans (congrArg _ hd))
    exact .inr ⟨rfl, hreply, hs.trans (by rw [hw])⟩

end UseRenderer

/-- Only where a renderer is handed out, there is one more. -/
theorem handed_answer (host : Host) (s : Session) (request : Request) :
    (s.answer host request).2.handed = s.handed ∨
      (s.answer host request).2.handed = s.handed ++ [s.workspace.defaultId] ∧
        (s.answer host request).2.workspace.default = some s.workspace.defaultId := by
  cases request with
  | useRenderer roots styles actions =>
    by_cases h : s.IsReady
    · rcases answer_useRenderer_of_ready host roots styles actions h with ⟨f, -, -, hs⟩ | ⟨-, -, hs⟩
      · rw [hs]
        exact .inl rfl
      · rw [hs]
        exact .inr ⟨rfl, Workspace.default_defaultEngine _⟩
    · rw [(answer_useRenderer_of_empty host _ _ _ h).2]
      exact .inl rfl
  | render renderer c key =>
    rw [answer]
    split
    · exact .inl rfl
    · exact .inl rfl
  | _ => exact .inl rfl

theorem handed_prefix_answer (host : Host) (s : Session) (request : Request) :
    s.handed <+: (s.answer host request).2.handed := by
  rcases handed_answer host s request with h | ⟨h, -⟩
  · exact h ▸ List.prefix_rfl
  · exact h ▸ List.prefix_append _ _

theorem IsReady.default (h : s.IsReady) : ∃ id, s.workspace.default = some id ∧
    (s.workspace.engine id).registries.components ≠ [] := by
  rw [IsReady] at h
  cases hd : s.workspace.default with
  | none =>
    rw [Workspace.defaultRegistries_of_none _ hd] at h
    exact absurd rfl h
  | some id =>
    rw [Workspace.defaultRegistries_of_some _ hd] at h
    exact ⟨id, rfl, h⟩

theorem Runs.handed (h : Runs host s later s') : s.handed <+: s'.handed := by
  induction h with
  | nil s => exact List.prefix_rfl
  | @cons s s' request later _ _ ih => exact (handed_prefix_answer host s request).trans ih

theorem Runs.extends (h : Runs host s later s') : s.workspace.Extends s'.workspace := by
  induction h with
  | nil s => exact .refl _
  | cons hf _ ih => exact (advances_answer host hf).toExtends.trans ih

theorem mergeAll_mergedInto_cons (n : Nat) (request : Request) (later : List Request) :
    (s.workspace.registriesAt n).mergeAll host.asTransform
        (s.mergedInto host n (request :: later)) =
      (s.workspace.mergedAt host.asTransform (s.merged? request) n).mergeAll host.asTransform
        ((s.answer host request).2.mergedInto host n later) := by
  rw [mergedInto]
  cases s.merged? request with
  | none => rfl
  | some call =>
    obtain ⟨m, more⟩ := call
    rw [Workspace.mergedAt]
    dsimp only
    by_cases hm : m = n
    · rw [if_pos hm, if_pos hm]
      rfl
    · rw [if_neg hm, if_neg hm]

theorem Runs.registriesAt (h : Runs host s later s') {n : Nat}
    (hn : n < s.workspace.registries.length) : s'.workspace.registriesAt n =
      (s.workspace.registriesAt n).mergeAll host.asTransform (s.mergedInto host n later) := by
  induction h with
  | nil s => rfl
  | @cons s s' request later hf _ ih =>
    have ha := advances_answer host hf
    rw [ih (Nat.lt_of_lt_of_le hn ha.registries), ha.tables n hn, mergeAll_mergedInto_cons]

/-- A run changes an engine by what it merges into the engine's registries, and in no other way. -/
theorem Runs.engine (h : Runs host s later s') (hs : s.IsSound) {id : Nat}
    (hid : id < s.workspace.engines.length) : s'.workspace.engine id =
      { s.workspace.engine id with
        registries := (s.workspace.engine id).registries.mergeAll host.asTransform
          (s.mergedInto host (s.workspace.slot id).registries later) } := by
  rw [Workspace.engine, h.extends.slot hid, h.registriesAt (hs.workspace.registries_lt hid)]
  rfl

open Registries (IsData)
open Table (Written)

end Session
end ViewDoc
