import ViewDoc.Proofs.ResolverFailures

/-!
What stays true while the bodies of levels are taken up.

Results are primitives and are never taken back, and what is held back is an object. Once a body was
not null there is a result or an object, and neither gets lost.
-/

namespace ViewDoc.Accumulator

/-- Everything that a step can do. -/
theorem step_eq_ok_cases {a b : Accumulator} {v : Value} (h : a.step v = .ok b) :
    (v.isNull ∧ b = a) ∨ (v.isObject ∧ b = pending a.results v) ∨
    (v.isPrimitive ∧ a.held? = none ∧ b = collecting (a.results ++ [v])) ∨
    (v.isPrimitive ∧ ∃ object found, a.held? = some object ∧ object.at v object = .ok found ∧
      b = settle a.results object found) := by
  unfold step at h
  split at h
  · rename_i hn
    exact .inl ⟨hn, (Except.ok.inj h).symm⟩
  rename_i hn
  split at h
  · rename_i ho
    exact .inr (.inl ⟨ho, (Except.ok.inj h).symm⟩)
  rename_i ho
  have hp : v.isPrimitive := by simp [Value.isPrimitive, hn, ho]
  cases a with
  | collecting results => exact .inr (.inr (.inl ⟨hp, rfl, (Except.ok.inj h).symm⟩))
  | pending results object =>
    obtain ⟨found, hfound, rfl⟩ := map_eq_ok_iff.1 h
    exact .inr (.inr (.inr ⟨hp, object, found, rfl, hfound, rfl⟩))

/-- The ways in which what was found is dealt with. -/
theorem settle_cases (results : List Value) (object found : Value) :
    (found.isObject ∧ settle results object found = pending results found) ∨
    (found.isPrimitive ∧ found.truthy ∧
      settle results object found = collecting (results ++ [found])) ∨
    (found.truthy = false ∧ settle results object found = pending results object) := by
  rw [settle]
  split
  · rename_i ho
    exact .inl ⟨ho, rfl⟩
  rename_i ho
  split
  · rename_i ht
    have hp : found.isPrimitive := by
      simp [Value.isPrimitive, Value.not_isNull_of_truthy ht, ho]
    exact .inr (.inl ⟨hp, ht, rfl⟩)
  · rename_i ht
    exact .inr (.inr ⟨Bool.eq_false_iff.2 ht, rfl⟩)

/-- Results are primitives, and only an object is held back. -/
structure IsSound (a : Accumulator) : Prop where
  results : ∀ v ∈ a.results, v.isPrimitive
  held : ∀ object, a.held? = some object → object.isObject

theorem isSound_start : start.IsSound where
  results := by simp
  held := by simp

theorem isSound_collecting {a : Accumulator} (h : a.IsSound) {r : Value} (hr : r.isPrimitive) :
    (collecting (a.results ++ [r])).IsSound where
  results := by
    intro v hv
    rcases List.mem_append.1 hv with hv | hv
    · exact h.results v hv
    · exact List.mem_singleton.1 hv ▸ hr
  held := by simp [held?]

theorem isSound_pending {a : Accumulator} (h : a.IsSound) {object : Value}
    (ho : object.isObject) : (pending a.results object).IsSound where
  results := h.results
  held := by
    intro held hheld
    exact Option.some.inj hheld ▸ ho

theorem isSound_step {a b : Accumulator} (h : a.IsSound) {v : Value} (hs : a.step v = .ok b) :
    b.IsSound := by
  rcases step_eq_ok_cases hs with ⟨-, rfl⟩ | ⟨ho, rfl⟩ | ⟨hp, -, rfl⟩ |
    ⟨-, object, found, hheld, -, rfl⟩
  · exact h
  · exact isSound_pending h ho
  · exact isSound_collecting h hp
  · rcases settle_cases a.results object found with ⟨ho, hb⟩ | ⟨hp, -, hb⟩ | ⟨-, hb⟩
    · rw [hb]
      exact isSound_pending h ho
    · rw [hb]
      exact isSound_collecting h hp
    · rw [hb]
      exact isSound_pending h (h.held object hheld)

/-- A body adds nothing to the results, or it is a primitive and adds one: itself, or where an
object is held back something found there that counts as true. -/
def Adds (a : Accumulator) (v : Value) (b : Accumulator) : Prop :=
  b.results = a.results ∨ v.isPrimitive ∧ ∃ r, b.results = a.results ++ [r] ∧
    (a.held? = none → r = v) ∧ (a.held?.isSome → r.truthy)

theorem adds_step {a b : Accumulator} {v : Value} (h : a.step v = .ok b) : a.Adds v b := by
  rcases step_eq_ok_cases h with ⟨-, rfl⟩ | ⟨-, rfl⟩ | ⟨hp, hheld, rfl⟩ |
    ⟨hp, object, found, hheld, -, rfl⟩
  · exact .inl rfl
  · exact .inl rfl
  · exact .inr ⟨hp, v, rfl, fun _ => rfl, fun hs => by simp [hheld] at hs⟩
  · rcases settle_cases a.results object found with ⟨-, hb⟩ | ⟨-, ht, hb⟩ | ⟨-, hb⟩
    · exact .inl (by rw [hb]; rfl)
    · exact .inr ⟨hp, found, by rw [hb]; rfl, fun hn => by simp [hheld] at hn, fun _ => ht⟩
    · exact .inl (by rw [hb]; rfl)

theorem prefix_of_adds {a b : Accumulator} {v : Value} (h : a.Adds v b) :
    a.results <+: b.results := by
  rcases h with h | ⟨-, r, h, -⟩
  · exact h ▸ List.prefix_refl _
  · exact ⟨[r], h.symm⟩

/-- There is no result, and nothing is held back. -/
def IsEmpty (a : Accumulator) : Prop := a.results = [] ∧ a.held? = none

theorem isEmpty_step_iff {a b : Accumulator} {v : Value} (h : a.step v = .ok b) :
    b.IsEmpty ↔ a.IsEmpty ∧ v.isNull := by
  have hcollecting (r : Value) : ¬ (collecting (a.results ++ [r])).IsEmpty := fun h => by
    simp [IsEmpty, results] at h
  have hpending (object : Value) : ¬ (pending a.results object).IsEmpty := fun h => by
    simp [IsEmpty, held?] at h
  rcases step_eq_ok_cases h with ⟨hn, rfl⟩ | ⟨ho, rfl⟩ | ⟨hp, -, rfl⟩ |
    ⟨hp, object, found, -, -, rfl⟩
  · simp [hn]
  · simp [hpending, Value.not_isNull_of_isObject ho]
  · simp [hcollecting, Value.not_isNull_of_isPrimitive hp]
  · rcases settle_cases a.results object found with ⟨-, hb⟩ | ⟨-, -, hb⟩ | ⟨-, hb⟩
    · simp [hb, hpending, Value.not_isNull_of_isPrimitive hp]
    · simp [hb, hcollecting, Value.not_isNull_of_isPrimitive hp]
    · simp [hb, hpending, Value.not_isNull_of_isPrimitive hp]

theorem run_append (a : Accumulator) (bodies more : List Value) :
    a.run (bodies ++ more) = (a.run bodies).bind fun b => b.run more := List.foldlM_append

/-- What every step keeps holds along a run. -/
theorem run_induction {P : Accumulator → Prop} {a b : Accumulator} {bodies : List Value}
    (hstep : ∀ a b v, P a → a.step v = .ok b → P b) (ha : P a) (h : a.run bodies = .ok b) :
    P b := by
  induction bodies generalizing a with
  | nil => exact Except.ok.inj h ▸ ha
  | cons v bodies ih =>
    rw [run_cons] at h
    obtain ⟨c, hc, h⟩ := bind_eq_ok_iff.1 h
    exact ih (hstep a c v ha hc) h

theorem isSound_run {a b : Accumulator} (ha : a.IsSound) {bodies : List Value}
    (h : a.run bodies = .ok b) : b.IsSound :=
  run_induction (fun _ _ _ ha hs => isSound_step ha hs) ha h

theorem prefix_run {a b : Accumulator} {bodies : List Value} (h : a.run bodies = .ok b) :
    a.results <+: b.results :=
  run_induction (P := fun b => a.results <+: b.results)
    (fun _ _ _ hp hs => hp.trans (prefix_of_adds (adds_step hs))) (List.prefix_refl _) h

theorem isEmpty_run_iff {a b : Accumulator} {bodies : List Value} (h : a.run bodies = .ok b) :
    b.IsEmpty ↔ a.IsEmpty ∧ ∀ v ∈ bodies, v.isNull := by
  induction bodies generalizing a with
  | nil =>
    obtain rfl := Except.ok.inj h
    simp
  | cons v bodies ih =>
    rw [run_cons] at h
    obtain ⟨c, hc, h⟩ := bind_eq_ok_iff.1 h
    rw [ih h, isEmpty_step_iff hc, List.forall_mem_cons, and_assoc]

theorem run_of_nulls (a : Accumulator) {bodies : List Value} (h : ∀ v ∈ bodies, v.isNull) :
    a.run bodies = .ok a := by
  induction bodies with
  | nil => rfl
  | cons v bodies ih =>
    obtain ⟨hv, hrest⟩ := List.forall_mem_cons.1 h
    rw [run_cons, step_null hv, ok_bind, ih hrest]

/-- A fold ends early at one place only: a number too long to be written is the path into an
object. -/
theorem run_eq_error_iff {a : Accumulator} {bodies : List Value} {f : Failure} :
    a.run bodies = .error f ↔ f = .tooManyDigits ∧ ∃ before v more b,
      bodies = before ++ v :: more ∧ a.run before = .ok b ∧ b.held?.isSome ∧
      v.isPrimitive = true ∧ v.isShowable = false := by
  constructor
  · intro h
    induction bodies generalizing a with
    | nil => cases h
    | cons v bodies ih =>
      rw [run_cons] at h
      rcases bind_eq_error_iff.1 h with h | ⟨c, hc, h⟩
      · obtain ⟨rfl, hbreak⟩ := step_eq_error_iff.1 h
        exact ⟨rfl, [], v, bodies, a, rfl, rfl, hbreak⟩
      · obtain ⟨rfl, before, w, more, b, rfl, hb, hbreak⟩ := ih h
        refine ⟨rfl, v :: before, w, more, b, rfl, ?_, hbreak⟩
        rw [run_cons, hc, ok_bind, hb]
  · intro h
    obtain ⟨rfl, before, v, more, b, rfl, hb, hbreak⟩ := h
    have hstep : b.step v = .error .tooManyDigits := step_eq_error_iff.2 ⟨rfl, hbreak⟩
    rw [run_append, hb, ok_bind, run_cons, hstep, error_bind]

/-- Only no results at all are null together. -/
theorem combine_eq_null_iff {vs : List Value} (h : ∀ v ∈ vs, v.isNull = false) :
    combine vs = .ok .null ↔ vs = [] := by
  match vs with
  | [] => simp [combine]
  | [v] =>
    have hv := h v List.mem_cons_self
    have hne : v ≠ .null := by
      rintro rfl
      cases hv
    simp [combine, hne]
  | v :: w :: vs => simp [combine, join, map_eq_ok_iff]

theorem finish_eq_null_iff {a : Accumulator} (h : a.IsSound) :
    a.finish = .ok .null ↔ a.IsEmpty := by
  have hvalues : ∀ v ∈ a.results ++ a.held?.toList, v.isNull = false := by
    intro v hv
    rcases List.mem_append.1 hv with hv | hv
    · exact Value.not_isNull_of_isPrimitive (h.results v hv)
    · exact Value.not_isNull_of_isObject (h.held v (Option.mem_toList.1 hv))
  rw [finish_eq, combine_eq_null_iff hvalues, List.append_eq_nil_iff, IsEmpty,
    Option.toList_eq_nil_iff]

/-- Folds of bodies from the start, at every point: what holds of the state, of the next step and of
all later results. The value at the end is null for null bodies only. -/
theorem fold_keeps (bodies : List Value) :
    (∀ a, start.run bodies = .ok a → a.IsSound ∧
      (∀ v b, a.step v = .ok b → a.Adds v b) ∧
      (∀ more b, start.run (bodies ++ more) = .ok b → a.results <+: b.results)) ∧
    ((start.run bodies).bind finish = .ok .null ↔ ∀ v ∈ bodies, v.isNull) ∧
    (∀ f, start.run bodies = .error f ↔ f = .tooManyDigits ∧ ∃ before v more a,
      bodies = before ++ v :: more ∧ start.run before = .ok a ∧ a.held?.isSome ∧
      v.isPrimitive = true ∧ v.isShowable = false) := by
  refine ⟨?_, ?_, fun f => run_eq_error_iff⟩
  · intro a ha
    refine ⟨isSound_run isSound_start ha, fun v b => adds_step, ?_⟩
    intro more b hb
    rw [run_append, ha, ok_bind] at hb
    exact prefix_run hb
  · constructor
    · intro h
      obtain ⟨a, ha, hfinish⟩ := bind_eq_ok_iff.1 h
      have hempty := (finish_eq_null_iff (isSound_run isSound_start ha)).1 hfinish
      exact ((isEmpty_run_iff ha).1 hempty).2
    · intro h
      rw [run_of_nulls start h]
      rfl

/-- An object is found in an object and takes its place; zero is found there and dropped; a name is
found and is a result. -/
theorem fold_keeps_user :
    let inner : Value := .map [(.text "off", .int 0), (.text "name", .text "Ada")]
    let user : Value := .map [(.text "inner", inner)]
    let bodies := [.text "Hi ", .null, user, .text "inner", .text "off"]
    let a := pending [.text "Hi "] inner
    let b := collecting [.text "Hi ", .text "Ada"]
    start.run bodies = .ok a ∧ a.IsSound ∧ a.step (.text "name") = .ok b ∧
      a.Adds (.text "name") b ∧ a.results <+: b.results ∧
      (start.run bodies).bind finish ≠ .ok .null := by
  intro inner user bodies a b
  obtain ⟨hpoint, hnull, -⟩ := fold_keeps bodies
  obtain ⟨hsound, hadds, hlater⟩ := hpoint a rfl
  refine ⟨rfl, hsound, rfl, hadds _ b rfl, hlater [.text "name"] b rfl, ?_⟩
  intro h
  have hall := hnull.1 h (.text "Hi ") List.mem_cons_self
  cases hall

end ViewDoc.Accumulator
