import Mathlib.Data.List.Forall2
import Mathlib.Data.List.ReduceOption
import ViewDoc.Outcome

/-!
How a computation in steps succeeds, and how it fails.
-/

namespace ViewDoc

variable {ε α β γ : Type}

@[simp] theorem ok_bind (a : α) (f : α → Except ε β) : (Except.ok a).bind f = f a := rfl

@[simp] theorem error_bind (e : ε) (f : α → Except ε β) :
    (Except.error e).bind f = .error e := rfl

@[simp] theorem ok_map (a : α) (f : α → β) : (Except.ok a : Except ε α).map f = .ok (f a) := rfl

@[simp] theorem error_map (e : ε) (f : α → β) : (Except.error e).map f = .error e := rfl

theorem bind_eq_ok_iff {x : Except ε α} {f : α → Except ε β} {b : β} :
    x.bind f = .ok b ↔ ∃ a, x = .ok a ∧ f a = .ok b := by
  cases x <;> simp

theorem bind_eq_error_iff {x : Except ε α} {f : α → Except ε β} {e : ε} :
    x.bind f = .error e ↔ x = .error e ∨ ∃ a, x = .ok a ∧ f a = .error e := by
  cases x <;> simp

theorem map_eq_ok_iff {x : Except ε α} {f : α → β} {b : β} :
    x.map f = .ok b ↔ ∃ a, x = .ok a ∧ f a = b := by
  cases x <;> simp

theorem map_eq_error_iff {x : Except ε α} {f : α → β} {e : ε} :
    x.map f = .error e ↔ x = .error e := by
  cases x <;> simp

theorem map_ok_injective : Function.Injective (List.map (Except.ok : α → Except ε α)) :=
  List.map_injective_iff.2 fun _ _ => Except.ok.inj

theorem mapM_eq_ok_iff {f : α → Except ε β} {as : List α} {bs : List β} :
    as.mapM f = .ok bs ↔ List.Forall₂ (fun a b => f a = .ok b) as bs := by
  induction as generalizing bs with
  | nil => simp [pure, Except.pure, eq_comm]
  | cons a as ih =>
    rw [List.mapM_cons, List.forall₂_cons_left_iff]
    simp only [bind, bind_eq_ok_iff, pure, Except.pure, Except.ok.injEq, ih]
    constructor
    · intro h
      obtain ⟨b, hb, bs, hbs, rfl⟩ := h
      exact ⟨b, bs, hb, hbs, rfl⟩
    · intro h
      obtain ⟨b, bs, hb, hbs, rfl⟩ := h
      exact ⟨b, hb, bs, hbs, rfl⟩

theorem mapM_congr {f g : α → Except ε β} {as : List α} (h : ∀ a ∈ as, f a = g a) :
    as.mapM f = as.mapM g := by
  induction as with
  | nil => rfl
  | cons a as ih =>
    have hrest := ih fun b hb => h b (List.mem_cons_of_mem a hb)
    rw [List.mapM_cons, List.mapM_cons, h a List.mem_cons_self, hrest]

theorem exists_of_mapM_eq_ok {f : α → Except ε β} {as : List α} {bs : List β}
    (h : as.mapM f = .ok bs) {a : α} (ha : a ∈ as) : ∃ b ∈ bs, f a = .ok b := by
  induction mapM_eq_ok_iff.1 h with
  | nil => cases ha
  | cons hb htail ih =>
    rcases List.mem_cons.1 ha with rfl | ha
    · exact ⟨_, by simp, hb⟩
    · obtain ⟨b, hmem, hb⟩ := ih (mapM_eq_ok_iff.2 htail) ha
      exact ⟨b, by simp [hmem], hb⟩

/-- The first failure is that of a list, whatever comes behind it. -/
theorem mapM_eq_error_iff {f : α → Except ε β} {as : List α} {e : ε} :
    as.mapM f = .error e ↔ ∃ before a rest, as = before ++ a :: rest ∧
      (∀ x ∈ before, ∃ b, f x = .ok b) ∧ f a = .error e := by
  induction as with
  | nil => simp [pure, Except.pure]
  | cons a as ih =>
    rw [List.mapM_cons]
    simp only [bind, bind_eq_error_iff, pure, Except.pure, reduceCtorEq, and_false, exists_false,
      or_false, ih]
    constructor
    · intro h
      rcases h with h | ⟨b, hb, before, a', rest, rfl, hbefore, h⟩
      · exact ⟨[], a, as, rfl, by simp, h⟩
      · refine ⟨a :: before, a', rest, rfl, ?_, h⟩
        intro x hx
        rcases List.mem_cons.1 hx with rfl | hx
        · exact ⟨b, hb⟩
        · exact hbefore x hx
    · intro h
      obtain ⟨before, a', rest, has, hbefore, h⟩ := h
      cases before with
      | nil =>
        obtain ⟨rfl, -⟩ := List.cons.inj has
        exact .inl h
      | cons x before =>
        obtain ⟨rfl, rfl⟩ := List.cons.inj has
        obtain ⟨b, hb⟩ := hbefore a List.mem_cons_self
        exact .inr ⟨b, hb, before, a', rest, rfl,
          fun x hx => hbefore x (List.mem_cons_of_mem _ hx), h⟩

/-- What fails alike at each item fails alike over a list. -/
theorem mapM_eq_error_congr {f g : α → Except ε β} {as : List α}
    (h : ∀ a ∈ as, ∀ e, f a = .error e ↔ g a = .error e) {e : ε} :
    as.mapM f = .error e ↔ as.mapM g = .error e := by
  induction as with
  | nil => rfl
  | cons a as ih =>
    have ha := h a List.mem_cons_self
    have hrest := ih fun b hb => h b (List.mem_cons_of_mem a hb)
    rw [List.mapM_cons, List.mapM_cons]
    simp only [bind, bind_eq_error_iff, pure, Except.pure, reduceCtorEq, and_false, exists_false,
      or_false, ha, hrest]
    cases hf : f a with
    | error e' => simp [(ha e').1 hf]
    | ok b =>
      cases hg : g a with
      | error e' => simp [(ha e').2 hg] at hf
      | ok b' => simp

theorem exists_of_mapM_eq_error {f : α → Except ε β} {as : List α} {e : ε}
    (h : as.mapM f = .error e) : ∃ a ∈ as, f a = .error e := by
  obtain ⟨before, a, rest, rfl, -, h⟩ := mapM_eq_error_iff.1 h
  exact ⟨a, List.mem_append_right _ List.mem_cons_self, h⟩

namespace Value

theorem show?_text (s : String) : (text s).show? = .ok s := rfl

theorem show?_of_text? {v : Value} {s : String} (h : v.text? = some s) : v.show? = .ok s := by
  cases v with
  | text t => exact congrArg _ (Option.some.inj h)
  | markup t => exact congrArg _ (Option.some.inj h)
  | _ => cases h

theorem show?_eq_error_iff {v : Value} {f : Failure} :
    v.show? = .error f ↔ f = .tooManyDigits ∧ v.isShowable = false := by
  rw [show?]
  cases v.isShowable <;> simp [eq_comm]

theorem shown_of_show? {v : Value} {s : String} (h : v.show? = .ok s) : s = v.shown := by
  rw [show?] at h
  split at h
  · exact (Except.ok.inj h).symm
  · cases h

end Value
end ViewDoc
