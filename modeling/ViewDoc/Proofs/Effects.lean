import ViewDoc.Proofs.Results

/-!
What computations do apart from what they give.

A list of steps that run one after the other does what each of them does, up to and including the
first that fails.
-/

namespace ViewDoc.Outcome

variable {α β γ : Type}

/-- Succeeds, with this result and these events. -/
structure Gives (x : Outcome α) (a : α) (said : List Value) : Prop where
  result : x.result = .ok a
  events : x.events = said

theorem gives_pure (a : α) : (Pure.pure a : Outcome α).Gives a [] := ⟨rfl, rfl⟩

theorem gives_event (v : Value) : (event v).Gives () [v] := ⟨rfl, rfl⟩

theorem events_bind_of_ok {x : Outcome α} {a : α} (h : x.result = .ok a) (f : α → Outcome β) :
    (x >>= f).events = x.events ++ (f a).events := by
  obtain ⟨r, j⟩ := x
  obtain rfl : r = .ok a := h
  exact List.filterMap_append

theorem events_bind_of_error {x : Outcome α} {e : Failure} (h : x.result = .error e)
    (f : α → Outcome β) : (x >>= f).events = x.events := by
  obtain ⟨r, j⟩ := x
  obtain rfl : r = .error e := h
  rfl

theorem events_bind_of_silent (x : Outcome α) {f : α → Outcome β} (h : ∀ a, (f a).events = []) :
    (x >>= f).events = x.events := by
  cases hx : x.result with
  | ok a => rw [events_bind_of_ok hx, h, List.append_nil]
  | error e => exact events_bind_of_error hx f

theorem Gives.bind {x : Outcome α} {a : α} {said : List Value} (hx : x.Gives a said)
    {f : α → Outcome β} {b : β} {more : List Value} (hf : (f a).Gives b more) :
    (x >>= f).Gives b (said ++ more) := by
  constructor
  · rw [result_bind, hx.result, ok_bind, hf.result]
  · rw [events_bind_of_ok hx.result, hx.events, hf.events]

/-- The failure that a computation ends with, unless it gives something. -/
def failure? (x : Outcome α) : Option Failure :=
  match x.result with
  | .ok _ => none
  | .error e => some e

/-- Ends so, after these events. -/
structure Ends (x : Outcome α) (said : List Value) (ending : Option Failure) : Prop where
  failure : x.failure? = ending
  events : x.events = said

theorem failure?_eq_none_iff {x : Outcome α} : x.failure? = none ↔ ∃ a, x.result = .ok a := by
  rw [failure?]
  cases x.result <;> simp

theorem ends_fail (e : Failure) : (fail e : Outcome α).Ends [] (some e) := ⟨rfl, rfl⟩

theorem Gives.ends {x : Outcome α} {a : α} {said : List Value} (h : x.Gives a said) :
    x.Ends said none := ⟨failure?_eq_none_iff.2 ⟨a, h.result⟩, h.events⟩

theorem Gives.ends_bind {x : Outcome α} {a : α} {said : List Value} (hx : x.Gives a said)
    {f : α → Outcome β} {more : List Value} {ending : Option Failure}
    (hf : (f a).Ends more ending) : (x >>= f).Ends (said ++ more) ending := by
  have hresult : (x >>= f).result = (f a).result := by rw [result_bind, hx.result, ok_bind]
  constructor
  · rw [failure?, hresult]
    exact hf.failure
  · rw [events_bind_of_ok hx.result, hx.events, hf.events]

/-- What a computation gives does not matter for how it ends. -/
theorem Ends.bind_return {x : Outcome α} {said : List Value} {ending : Option Failure}
    (h : x.Ends said ending) (b : β) : (x >>= fun _ => return b).Ends said ending := by
  constructor
  · rw [← h.failure, failure?, failure?, result_bind]
    cases x.result <;> rfl
  · rw [events_bind_of_silent x fun _ => rfl, h.events]

protected theorem id_map (x : Outcome α) : id <$> x = x := by
  obtain ⟨r, j⟩ := x
  cases r with
  | ok a => exact congrArg (Outcome.mk _) (List.append_nil j)
  | error e => rfl

protected theorem bind_assoc (x : Outcome α) (f : α → Outcome β) (g : β → Outcome γ) :
    x >>= f >>= g = x >>= fun a => f a >>= g := by
  obtain ⟨r, j⟩ := x
  cases r with
  | error e => rfl
  | ok a =>
    simp only [Bind.bind, Outcome.bind]
    cases (f a).result with
    | error e => rfl
    | ok b => simp only [List.append_assoc]

theorem lawful : LawfulMonad Outcome :=
  LawfulMonad.mk' Outcome Outcome.id_map (fun _ _ => rfl) Outcome.bind_assoc

attribute [local instance] lawful

/-- Forgets what a computation gives. -/
def effect (x : Outcome α) : Outcome Unit := (fun _ => ()) <$> x

@[simp] theorem effect_pure (a : α) : (Pure.pure a : Outcome α).effect = Pure.pure () :=
  map_pure _ _

@[simp] theorem effect_map (f : α → β) (x : Outcome α) : (f <$> x).effect = x.effect := by
  simp [effect, Functor.map_map]

@[simp] theorem effect_bind (x : Outcome α) (f : α → Outcome β) :
    (x >>= f).effect = x >>= fun a => (f a).effect := map_bind _ _ _

theorem effect_bind_const (x : Outcome α) (y : Outcome β) :
    (x.effect >>= fun _ => y) = x >>= fun _ => y := bind_map_left _ _ _

@[simp] theorem result_effect (x : Outcome α) : x.effect.result = x.result.map fun _ => () :=
  result_map _ x

@[simp] theorem events_map (f : α → β) (x : Outcome α) : (f <$> x).events = x.events := by
  obtain ⟨r, j⟩ := x
  cases r with
  | ok a => exact congrArg (List.filterMap _) (List.append_nil j)
  | error e => rfl

@[simp] theorem events_effect (x : Outcome α) : x.effect.events = x.events := events_map _ x

section Steps

variable {f : α → Outcome Unit}

/-- Steps none of which fails. -/
theorem gives_forM {as : List α} (h : ∀ a ∈ as, (f a).result = .ok ()) :
    (forM as f).Gives () (as.flatMap fun a => (f a).events) := by
  induction as with
  | nil => exact gives_pure ()
  | cons a as ih =>
    have ha : (f a).Gives () (f a).events := ⟨h a List.mem_cons_self, rfl⟩
    have hrest := ih fun b hb => h b (List.mem_cons_of_mem a hb)
    rw [List.forM_cons, List.flatMap_cons]
    exact ha.bind hrest

/-- Steps succeed together if each of them does. -/
theorem result_forM_eq_ok_iff {as : List α} :
    (forM as f).result = .ok () ↔ ∀ a ∈ as, (f a).result = .ok () := by
  constructor
  · intro h
    induction as with
    | nil => exact fun a ha => absurd ha List.not_mem_nil
    | cons a as ih =>
      rw [List.forM_cons, result_bind, bind_eq_ok_iff] at h
      obtain ⟨_, ha, hrest⟩ := h
      intro b hb
      rcases List.mem_cons.1 hb with rfl | hb
      · exact ha
      · exact ih hrest b hb
  · intro h
    exact (gives_forM h).result

/-- The first step that fails is the last one. -/
theorem forM_of_fail {before after : List α} {a : α} {e : Failure}
    (hbefore : ∀ b ∈ before, (f b).result = .ok ()) (ha : (f a).result = .error e) :
    (forM (before ++ a :: after) f).result = .error e ∧
      (forM (before ++ a :: after) f).events =
        (before.flatMap fun b => (f b).events) ++ (f a).events := by
  have hgives := gives_forM hbefore
  rw [List.forM_append, List.forM_cons]
  constructor
  · rw [result_bind, hgives.result, ViewDoc.ok_bind, result_bind, ha, error_bind]
  · rw [events_bind_of_ok hgives.result, hgives.events, events_bind_of_error ha]

end Steps

end ViewDoc.Outcome
