import ViewDoc.Proofs.Validation

/-!
Which problems validation reports.

A value that is not accepted offends somewhere. Each offence has a place, the positions of the
fields, entries and items that lead to it, and the problems are reported in the order of their
places: those of a field before those of a later one, and keys that are no texts behind all fields.
-/

namespace ViewDoc

namespace Model

/-- Positions of fields, entries and items, from the outside to the inside. -/
abbrev Place := List Nat

/-- A check that succeeds if there are no offences, and else reports them, each once and in the
order of their places. -/
def Reports {α : Type} (a : Checked α) (offence : Place → Problem → Prop) : Prop :=
  ∃ found : List (Place × Problem), found.Pairwise (fun x y => x.1 < y.1) ∧
    (∀ place p, (place, p) ∈ found ↔ offence place p) ∧
    match a with
    | .ok _ => found = []
    | .error ps => found ≠ [] ∧ ps = found.map (·.2)

section Reports

variable {α β : Type} {P Q : Place → Problem → Prop}

theorem Reports.congr {a : Checked α} (h : Reports a P) (hiff : ∀ place p, P place p ↔ Q place p) :
    Reports a Q := by
  obtain ⟨found, hsorted, hmem, hfound⟩ := h
  exact ⟨found, hsorted, fun place p => (hmem place p).trans (hiff place p), hfound⟩

theorem Reports.map {a : Checked α} (h : Reports a P) (f : α → β) : Reports (a.map f) P := by
  obtain ⟨found, hsorted, hmem, hfound⟩ := h
  refine ⟨found, hsorted, hmem, ?_⟩
  cases a <;> exact hfound

/-- What is found inside, told from outside. -/
def Under (i : Nat) (step : String) (P : Place → Problem → Prop) (place : Place)
    (p : Problem) : Prop :=
  ∃ rest q, place = i :: rest ∧ p = q.within step ∧ P rest q

theorem Reports.within {a : Checked α} (h : Reports a P) (i : Nat) (step : String) :
    Reports (Checked.within [step] a) (Under i step P) := by
  obtain ⟨found, hsorted, hmem, hfound⟩ := h
  refine ⟨found.map fun x => (i :: x.1, x.2.within step), ?_, ?_, ?_⟩
  · rw [List.pairwise_map]
    exact hsorted.imp fun hlt => List.cons_lt_cons_iff.2 (.inr ⟨rfl, hlt⟩)
  · intro place p
    rw [List.mem_map]
    constructor
    · rintro ⟨⟨rest, q⟩, hx, heq⟩
      obtain ⟨rfl, rfl⟩ := Prod.mk.inj heq
      exact ⟨rest, q, rfl, rfl, (hmem rest q).1 hx⟩
    · rintro ⟨rest, q, rfl, rfl, hq⟩
      exact ⟨(rest, q), (hmem rest q).2 hq, rfl⟩
  · cases a with
    | ok x => exact List.map_eq_nil_iff.2 hfound
    | error ps =>
      obtain ⟨hne, rfl⟩ := hfound
      refine ⟨fun hnil => hne (List.map_eq_nil_iff.1 hnil), ?_⟩
      rw [List.map_map]
      exact List.map_map

/-- The offences of two checks, if those of the first stand before those of the second. -/
theorem Reports.both {a : Checked α} {b : Checked β} (ha : Reports a P) (hb : Reports b Q)
    (hlt : ∀ x y p q, P x p → Q y q → x < y) :
    Reports (Checked.both a b) fun place p => P place p ∨ Q place p := by
  obtain ⟨found, hsorted, hmem, hfound⟩ := ha
  obtain ⟨later, hlater, hmem', hfound'⟩ := hb
  refine ⟨found ++ later, List.pairwise_append.2 ⟨hsorted, hlater, ?_⟩, ?_, ?_⟩
  · intro x hx y hy
    exact hlt x.1 y.1 x.2 y.2 ((hmem _ _).1 hx) ((hmem' _ _).1 hy)
  · intro place p
    rw [List.mem_append, hmem, hmem']
  · cases a with
    | ok x =>
      subst hfound
      cases b <;> exact hfound'
    | error ps =>
      obtain ⟨hne, rfl⟩ := hfound
      have hne' : found ++ later ≠ [] := fun hnil => hne (List.append_eq_nil_iff.1 hnil).1
      cases b with
      | ok y =>
        subst hfound'
        exact ⟨hne', by rw [List.append_nil]⟩
      | error qs =>
        obtain ⟨-, rfl⟩ := hfound'
        exact ⟨hne', by rw [List.map_append]⟩

/-- What is found at the elements of a list, the first of which has the position `n`. -/
def Each {γ : Type} (n : Nat) (l : List γ) (R : Nat → γ → Place → Problem → Prop) (place : Place)
    (p : Problem) : Prop :=
  ∃ i x rest, l[i]? = some x ∧ place = (n + i) :: rest ∧ R (n + i) x rest p

variable {γ : Type} {n : Nat} {x : γ} {l : List γ} {R : Nat → γ → Place → Problem → Prop}

theorem each_cons_iff {place : Place} {p : Problem} : Each n (x :: l) R place p ↔
    (∃ rest, place = n :: rest ∧ R n x rest p) ∨ Each (n + 1) l R place p := by
  constructor
  · rintro ⟨i, y, rest, hy, hplace, hr⟩
    cases i with
    | zero =>
      obtain rfl := Option.some.inj hy
      exact .inl ⟨rest, hplace, hr⟩
    | succ i =>
      rw [← Nat.add_assoc, Nat.add_right_comm] at hplace hr
      exact .inr ⟨i, y, rest, hy, hplace, hr⟩
  · rintro (⟨rest, hplace, hr⟩ | ⟨i, y, rest, hy, hplace, hr⟩)
    · exact ⟨0, x, rest, rfl, hplace, hr⟩
    · rw [Nat.add_right_comm, Nat.add_assoc] at hplace hr
      exact ⟨i + 1, y, rest, hy, hplace, hr⟩

theorem Reports.cons {a : Checked α} {b : Checked β}
    (ha : Reports a fun place p => ∃ rest, place = n :: rest ∧ R n x rest p)
    (hb : Reports b (Each (n + 1) l R)) : Reports (Checked.both a b) (Each n (x :: l) R) := by
  refine (ha.both hb ?_).congr fun _ _ => each_cons_iff.symm
  rintro _ _ p q ⟨rest, rfl, -⟩ ⟨i, y, later, -, rfl, -⟩
  exact List.cons_lt_cons_iff.2 (.inl (by omega))

end Reports

section Assembling

variable {room : Nat} {kind : ModelKind} {entries : Entries}

end Assembling

section Leaves

variable {v : Value}

end Leaves

/-- In the order of the fields, with the key that is no text behind them. -/
example : validate .node (.map [(.int 1, .null), (.text "children", .list [.int 5, .map []]),
      (.text "style", .text "wide")]) =
    .error (.invalidModel [⟨["type"], "missing"⟩, ⟨["style"], "dict_type"⟩,
      ⟨["children", "0"], "model_type"⟩, ⟨["children", "1", "type"], "missing"⟩,
      ⟨["1"], "invalid_key"⟩]) := rfl

end Model
end ViewDoc
