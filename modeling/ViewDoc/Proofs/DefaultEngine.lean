import Mathlib.Data.List.GetD
import ViewDoc.Proofs.Sharing

/-!
What requests do to a workspace, the default engine before all.

Engines keep their numbers, settings and registries, whatever is asked. What can change is which
engine is the default, and what the registries hold that a request merges into.
-/

namespace ViewDoc

namespace Registries

variable {asTransform : Value → Transform} {r : Registries} {more : Additions}

end Registries

namespace Workspace

section Steps

variable {α β : Type} (step : Outcome α × Workspace) (next : α → Workspace → Outcome β × Workspace)

theorem result_andThen : (andThen step next).1.result =
    step.1.result.bind fun a => (next a step.2).1.result := by
  obtain ⟨⟨result, journal⟩, w⟩ := step
  cases result <;> rfl

theorem andThen_snd_of_ok {a : α} (h : step.1.result = .ok a) :
    (andThen step next).2 = (next a step.2).2 := by
  obtain ⟨⟨result, journal⟩, w⟩ := step
  cases h
  rfl

theorem andThen_snd_of_error {f : Failure} (h : step.1.result = .error f) :
    (andThen step next).2 = step.2 := by
  obtain ⟨⟨result, journal⟩, w⟩ := step
  cases h
  rfl

/-- What only gives an answer leaves the workspace as it is. -/
theorem andThen_snd_of_same (h : ∀ a, (next a step.2).2 = step.2) :
    (andThen step next).2 = step.2 := by
  obtain ⟨⟨result, journal⟩, w⟩ := step
  cases result with
  | ok a => exact h a
  | error f => rfl

end Steps

/-- A workspace that another one came from: nothing it had is gone. -/
structure Extends (w w' : Workspace) : Prop where
  engines : w.engines <+: w'.engines
  registries : w.registries.length ≤ w'.registries.length
  logLevel : w'.logLevel = w.logLevel

variable {w w' w'' : Workspace}

theorem Extends.refl (w : Workspace) : Extends w w := ⟨List.prefix_rfl, Nat.le_refl _, rfl⟩

theorem Extends.trans (h : Extends w w') (h' : Extends w' w'') : Extends w w'' :=
  ⟨h.engines.trans h'.engines, Nat.le_trans h.registries h'.registries,
    h'.logLevel.trans h.logLevel⟩

theorem Extends.slot (h : Extends w w') {id : Nat} (hid : id < w.engines.length) :
    w'.slot id = w.slot id := by
  obtain ⟨more, hmore⟩ := h.engines
  rw [Workspace.slot, Workspace.slot, ← hmore, List.getD_append _ _ _ _ hid]

/-- The number of the default engine, there already or about to be made. -/
def defaultId (w : Workspace) : Nat := w.default.getD w.engines.length

theorem isSound_create (h : w.IsSound) {n : Nat} (hn : n < w.registries.length) (config : Config)
    (now : Option DateTime) : (w.create n config now).2.IsSound := by
  refine ⟨?_, ?_⟩
  · intro s hs
    rcases List.mem_append.1 hs with hs | hs
    · exact h.engines s hs
    · rw [List.mem_singleton.1 hs]
      exact hn
  · intro id hid
    exact Nat.lt_of_lt_of_le (h.default id hid) (List.prefix_append _ _).length_le

theorem engine_createFresh (w : Workspace) (r : Registries) (config : Config)
    (now : Option DateTime) :
    (w.createFresh r config now).2.engine w.engines.length = ⟨r, config, now⟩ := by
  have hslot : (w.createFresh r config now).2.slot w.engines.length =
      ⟨w.registries.length, config, now⟩ := by
    simp [slot, createFresh, create, addRegistries]
  have hr : (w.createFresh r config now).2.registriesAt w.registries.length = r := by
    simp [registriesAt, createFresh, create, addRegistries]
  rw [engine, hslot, hr]

/-- A fresh engine becomes the default. -/
theorem resetDefault_none (w : Workspace) : (w.resetDefault none).1.result = .ok w.engines.length ∧
    (w.resetDefault none).2 =
      { (w.createFresh .empty .standard none).2 with default := some w.engines.length } :=
  ⟨rfl, rfl⟩

theorem defaultEngine_of_some {id : Nat} (h : w.default = some id) :
    w.defaultId = id ∧ w.defaultEngine = (pure id, w) := by
  rw [defaultId, defaultEngine, h]
  exact ⟨rfl, rfl⟩

theorem defaultEngine_of_none (h : w.default = none) :
    w.defaultId = w.engines.length ∧ w.defaultEngine = w.resetDefault none := by
  rw [defaultId, defaultEngine, h]
  exact ⟨rfl, rfl⟩

theorem result_defaultEngine (w : Workspace) : w.defaultEngine.1.result = .ok w.defaultId := by
  cases h : w.default with
  | some id =>
    obtain ⟨hid, he⟩ := defaultEngine_of_some h
    rw [hid, he]
    rfl
  | none =>
    obtain ⟨hid, he⟩ := defaultEngine_of_none h
    rw [hid, he]
    rfl

theorem default_defaultEngine (w : Workspace) : w.defaultEngine.2.default = some w.defaultId := by
  cases h : w.default with
  | some id =>
    obtain ⟨hid, he⟩ := defaultEngine_of_some h
    rw [hid, he]
    exact h
  | none =>
    obtain ⟨hid, he⟩ := defaultEngine_of_none h
    rw [hid, he]
    rfl

/-- The registries of a number, after a merge into those of one number, or none. -/
def mergedAt (asTransform : Value → Transform) (w : Workspace) (into : Option (Nat × Additions))
    (n : Nat) : Registries :=
  match into with
  | some (m, more) =>
    if m = n then ((w.registriesAt n).merge asTransform more).2 else w.registriesAt n
  | none => w.registriesAt n

/-- A workspace that another one came from, and all that was merged on the way. -/
structure Advances (asTransform : Value → Transform) (w : Workspace)
    (into : Option (Nat × Additions)) (w' : Workspace) : Prop extends Extends w w' where
  sound : w.IsSound → w'.IsSound
  tables : ∀ n < w.registries.length, w'.registriesAt n = w.mergedAt asTransform into n

section Advances

variable {asTransform : Value → Transform} {into : Option (Nat × Additions)}

theorem Advances.refl (w : Workspace) : Advances asTransform w none w :=
  ⟨.refl w, id, fun _ _ => rfl⟩

/-- What changes no registries can come first. -/
theorem Advances.after (h : Advances asTransform w none w')
    (h' : Advances asTransform w' into w'') : Advances asTransform w into w'' := by
  refine ⟨h.toExtends.trans h'.toExtends, fun hw => h'.sound (h.sound hw), ?_⟩
  intro n hn
  have hsame : w'.registriesAt n = w.registriesAt n := h.tables n hn
  rw [h'.tables n (Nat.lt_of_lt_of_le hn h.registries)]
  cases into with
  | none => exact hsame
  | some call => rw [mergedAt, mergedAt, hsame]

theorem Advances.engine (h : Advances asTransform w into w') (hw : w.IsSound) {id : Nat}
    (hid : id < w.engines.length) : w'.engine id =
      { w.engine id with registries := w.mergedAt asTransform into (w.slot id).registries } := by
  rw [Workspace.engine, Workspace.engine, h.slot hid, h.tables _ (hw.registries_lt hid)]

theorem advances_setup (w : Workspace) (id : Nat) (more : Additions) :
    Advances asTransform w (some ((w.slot id).registries, more)) (w.setup asTransform id more).2 :=
  ⟨⟨List.prefix_rfl, Nat.le_of_eq List.length_set.symm, rfl⟩,
    fun hw => isSound_setup hw asTransform id more,
    fun _ hn => registriesAt_setup asTransform w id more hn⟩

theorem advances_addRegistries (w : Workspace) (r : Registries) :
    Advances asTransform w none (w.addRegistries r).2 := by
  have hlength : w.registries.length ≤ (w.addRegistries r).2.registries.length :=
    (List.prefix_append w.registries [r]).length_le
  refine ⟨⟨List.prefix_rfl, hlength, rfl⟩, ?_, fun n hn => List.getD_append _ _ _ _ hn⟩
  intro hw
  exact ⟨fun s hs => Nat.lt_of_lt_of_le (hw.engines s hs) hlength, hw.default⟩

theorem advances_create {n : Nat} (hn : n < w.registries.length) (config : Config)
    (now : Option DateTime) : Advances asTransform w none (w.create n config now).2 :=
  ⟨⟨List.prefix_append _ _, Nat.le_refl _, rfl⟩, fun hw => isSound_create hw hn config now,
    fun _ _ => rfl⟩

theorem advances_createFresh (w : Workspace) (r : Registries) (config : Config)
    (now : Option DateTime) : Advances asTransform w none (w.createFresh r config now).2 := by
  have hn : w.registries.length < (w.addRegistries r).2.registries.length := by
    simp [addRegistries]
  exact (advances_addRegistries w r).after (advances_create hn config now)

theorem advances_withDefault {id : Nat} (hid : id < w.engines.length) :
    Advances asTransform w none { w with default := some id } :=
  ⟨⟨List.prefix_rfl, Nat.le_refl _, rfl⟩,
    fun hw => ⟨hw.engines, fun _ hk => Option.some.inj hk ▸ hid⟩, fun _ _ => rfl⟩

theorem advances_resetDefault {other : Option Nat} (h : ∀ id ∈ other, id < w.engines.length) :
    Advances asTransform w none (w.resetDefault other).2 := by
  cases other with
  | some id => exact advances_withDefault (h id rfl)
  | none =>
    rw [(resetDefault_none w).2]
    have hid : w.engines.length < (w.createFresh .empty .standard none).2.engines.length := by
      simp [createFresh, create, addRegistries]
    exact (advances_createFresh w .empty .standard none).after (advances_withDefault hid)

theorem advances_defaultEngine (w : Workspace) :
    Advances asTransform w none w.defaultEngine.2 := by
  cases h : w.default with
  | some id =>
    rw [(defaultEngine_of_some h).2]
    exact .refl w
  | none =>
    rw [(defaultEngine_of_none h).2]
    exact advances_resetDefault fun _ hid => by cases hid

end Advances

section Default

variable (asTransform : Value → Transform) (w : Workspace)

/-- The default engine's registries, those of a fresh engine if there is no default yet. -/
def defaultRegistries : Registries := (w.defaultEngine.2.engine w.defaultId).registries

/-- The number of those registries. -/
def defaultNumber : Nat := (w.defaultEngine.2.slot w.defaultId).registries

theorem defaultRegistries_of_some {id : Nat} (h : w.default = some id) :
    w.defaultRegistries = (w.engine id).registries := by
  obtain ⟨hid, he⟩ := defaultEngine_of_some h
  rw [defaultRegistries, hid, he]

theorem defaultRegistries_of_none (h : w.default = none) : w.defaultRegistries = .empty := by
  obtain ⟨hid, he⟩ := defaultEngine_of_none h
  have hengine : (w.resetDefault none).2.engine w.engines.length = ⟨.empty, .standard, none⟩ :=
    engine_createFresh w .empty .standard none
  rw [defaultRegistries, hid, he, hengine]

theorem setupRenderer_snd (components : ComponentTable) :
    (w.setupRenderer asTransform components).2 =
      (w.defaultEngine.2.setup asTransform w.defaultId { Additions.none with components }).2 :=
  andThen_snd_of_ok _ _ (result_defaultEngine w)

theorem advances_setupRenderer (components : ComponentTable) :
    Advances asTransform w (some (w.defaultNumber, { Additions.none with components }))
      (w.setupRenderer asTransform components).2 := by
  rw [setupRenderer_snd]
  exact (advances_defaultEngine w).after (advances_setup _ _ _)

variable (roots styles : Value) (actions : ActionTable)

theorem useRenderer_of_empty (h : w.defaultRegistries.components = []) :
    (w.useRenderer asTransform roots styles actions).1.result = .ok (.error notInitialized) ∧
      (w.useRenderer asTransform roots styles actions).2 = w.defaultEngine.2 := by
  have hinit : (w.defaultEngine.2.engine w.defaultId).registries.isInitialized = false :=
    Registries.isInitialized_eq_false_iff.2 h
  rw [useRenderer, result_andThen, andThen_snd_of_ok _ _ (result_defaultEngine w),
    result_defaultEngine]
  dsimp only [Except.bind]
  rw [hinit]
  exact ⟨rfl, rfl⟩

theorem useRenderer_of_filled (h : w.defaultRegistries.components ≠ []) :
    let done := w.defaultEngine.2.setup asTransform w.defaultId ⟨roots, styles, actions, []⟩
    (w.useRenderer asTransform roots styles actions).1.result =
        done.1.result.map (fun _ => .ok w.defaultId) ∧
      (w.useRenderer asTransform roots styles actions).2 = done.2 := by
  have hinit : (w.defaultEngine.2.engine w.defaultId).registries.isInitialized = true :=
    Registries.isInitialized_iff.2 h
  intro done
  rw [useRenderer, result_andThen, andThen_snd_of_ok _ _ (result_defaultEngine w),
    result_defaultEngine]
  dsimp only [Except.bind]
  rw [hinit, if_pos rfl, result_andThen]
  exact ⟨rfl, andThen_snd_of_same _ _ fun _ => rfl⟩

theorem advances_useRenderer : Advances asTransform w
    (if w.defaultRegistries.isInitialized then some (w.defaultNumber, ⟨roots, styles, actions, []⟩)
      else none)
    (w.useRenderer asTransform roots styles actions).2 := by
  by_cases h : w.defaultRegistries.components = []
  · rw [(useRenderer_of_empty asTransform w roots styles actions h).2,
      Registries.isInitialized_eq_false_iff.2 h]
    exact advances_defaultEngine w
  · rw [(useRenderer_of_filled asTransform w roots styles actions h).2,
      Registries.isInitialized_iff.2 h]
    exact (advances_defaultEngine w).after (advances_setup _ _ _)

end Default

end Workspace
end ViewDoc
