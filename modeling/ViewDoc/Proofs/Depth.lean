import ViewDoc.Proofs.Results
import ViewDoc.Selector

/-!
Which values have a plain form, and what it is like.

Nothing but models that stand inside each other too deep can be in the way. A plain form is no
model, nor is any item of one, and is left as it is when it is asked for its own.
-/

namespace ViewDoc

namespace Value

mutual

/-- Whether a value is written as it stands: no model and no rendered node is among its items and
entries, at any depth. -/
def isModelFree : Value → Bool
  | list items | tuple items => areModelFree items
  | map entries => entriesModelFree entries
  | model .. | rendered .. => false
  | _ => true

def areModelFree : List Value → Bool
  | [] => true
  | v :: vs => isModelFree v && areModelFree vs

def entriesModelFree : List (Value × Value) → Bool
  | [] => true
  | (_, v) :: rest => isModelFree v && entriesModelFree rest

end

theorem isModelFree_of_mem {es : Entries} {e : Value × Value} (h : entriesModelFree es = true)
    (he : e ∈ es) : e.2.isModelFree = true := by
  induction es with
  | nil => cases he
  | cons e' rest ih =>
    rw [entriesModelFree, Bool.and_eq_true] at h
    rcases List.mem_cons.1 he with rfl | he
    · exact h.1
    · exact ih h.2 he

end Value

namespace Model

variable {p : ModelKind → List String → Nat → Bool}

theorem meetsAny_eq_false_iff {room : Nat} {vs : List Value} :
    meetsAny p room vs = false ↔ ∀ v ∈ vs, meets p room v = false := by
  induction vs with
  | nil => simp [meetsAny]
  | cons v vs ih => rw [meetsAny, Bool.or_eq_false_iff, ih, List.forall_mem_cons]

theorem meetsEntry_eq_false_iff {room : Nat} {es : Entries} :
    meetsEntry p room es = false ↔ ∀ e ∈ es, meets p room e.2 = false := by
  induction es with
  | nil => simp [meetsEntry]
  | cons e es ih => rw [meetsEntry, Bool.or_eq_false_iff, ih, List.forall_mem_cons]

@[simp] theorem dump_zero (keyed : Bool) (v : Value) : dump keyed 0 v = v := by simp [dump]

@[simp] theorem meets_zero (v : Value) : meets p 0 v = false := by simp [meets]

@[simp] theorem dump_null (keyed : Bool) (room : Nat) : dump keyed room .null = .null := by
  cases room <;> simp [dump]

@[simp] theorem meets_null (room : Nat) : meets p room .null = false := by
  cases room <;> simp [meets]

mutual

/-- Without models there is nothing to write in plain form, -/
theorem dump_of_isModelFree (keyed : Bool) :
    ∀ (room : Nat) (v : Value), v.isModelFree = true → dump keyed room v = v
  | 0, v, _ => dump_zero keyed v
  | room + 1, .list items, h | room + 1, .tuple items, h => by
    rw [Value.isModelFree] at h
    rw [dump, dumpAll_of_areModelFree keyed room items h]
  | room + 1, .map entries, h => by
    rw [Value.isModelFree] at h
    rw [dump, dumpEntries_of_entriesModelFree keyed room entries h]
  | _ + 1, .model .., h | _ + 1, .rendered .., h => by
    rw [Value.isModelFree] at h
    cases h
  | _ + 1, .null, _ | _ + 1, .bool _, _ | _ + 1, .int _, _ | _ + 1, .float _, _
  | _ + 1, .text _, _ | _ + 1, .markup _, _ | _ + 1, .date _, _ | _ + 1, .dateTime _, _
  | _ + 1, .time _, _ | _ + 1, .zone _, _ | _ + 1, .function .., _ | _ + 1, .object .., _ => by
    simp [dump]

theorem dumpAll_of_areModelFree (keyed : Bool) (room : Nat) :
    ∀ vs : List Value, Value.areModelFree vs = true → dumpAll keyed room vs = vs
  | [], _ => rfl
  | v :: vs, h => by
    rw [Value.areModelFree, Bool.and_eq_true] at h
    rw [dumpAll, dump_of_isModelFree keyed room v h.1, dumpAll_of_areModelFree keyed room vs h.2]

theorem dumpEntries_of_entriesModelFree (keyed : Bool) (room : Nat) :
    ∀ es : List (Value × Value), Value.entriesModelFree es = true → dumpEntries keyed room es = es
  | [], _ => rfl
  | (_, v) :: rest, h => by
    rw [Value.entriesModelFree, Bool.and_eq_true] at h
    rw [dumpEntries, dump_of_isModelFree keyed room v h.1,
      dumpEntries_of_entriesModelFree keyed room rest h.2]

end

mutual

/-- and no model is met on the way. -/
theorem meets_of_isModelFree :
    ∀ (room : Nat) (v : Value), v.isModelFree = true → meets p room v = false
  | 0, v, _ => meets_zero v
  | room + 1, .list items, h | room + 1, .tuple items, h => by
    rw [Value.isModelFree] at h
    rw [meets]
    exact meetsAny_of_areModelFree room items h
  | room + 1, .map entries, h => by
    rw [Value.isModelFree] at h
    rw [meets]
    exact meetsEntry_of_entriesModelFree room entries h
  | _ + 1, .model .., h | _ + 1, .rendered .., h => by
    rw [Value.isModelFree] at h
    cases h
  | _ + 1, .null, _ | _ + 1, .bool _, _ | _ + 1, .int _, _ | _ + 1, .float _, _
  | _ + 1, .text _, _ | _ + 1, .markup _, _ | _ + 1, .date _, _ | _ + 1, .dateTime _, _
  | _ + 1, .time _, _ | _ + 1, .zone _, _ | _ + 1, .function .., _ | _ + 1, .object .., _ => by
    simp [meets]

theorem meetsAny_of_areModelFree (room : Nat) :
    ∀ vs : List Value, Value.areModelFree vs = true → meetsAny p room vs = false
  | [], _ => by rw [meetsAny]
  | v :: vs, h => by
    rw [Value.areModelFree, Bool.and_eq_true] at h
    rw [meetsAny, meets_of_isModelFree room v h.1, meetsAny_of_areModelFree room vs h.2]
    rfl

theorem meetsEntry_of_entriesModelFree (room : Nat) :
    ∀ es : List (Value × Value), Value.entriesModelFree es = true → meetsEntry p room es = false
  | [], _ => by rw [meetsEntry]
  | (_, v) :: rest, h => by
    rw [Value.entriesModelFree, Bool.and_eq_true] at h
    rw [meetsEntry, meets_of_isModelFree room v h.1, meetsEntry_of_entriesModelFree room rest h.2]
    rfl

end

theorem plain_eq_error_iff {keyed : Bool} {m : Value} {f : Failure} :
    plain keyed m = .error f ↔ f = .tooDeep ∧ overruns (nestingLimit + 1) m = true := by
  rw [plain]
  cases overruns (nestingLimit + 1) m <;> simp [eq_comm]

theorem plain_eq_ok_iff {keyed : Bool} {m w : Value} :
    plain keyed m = .ok w ↔ overruns (nestingLimit + 1) m = false ∧
      dump keyed (nestingLimit + 1) m = w := by
  rw [plain]
  cases overruns (nestingLimit + 1) m <;> simp

/-- An action that so many others follow, one after the other. -/
def linked : Nat → Value
  | 0 => ofFields .action
    [("name", some (.text "a")), ("payload", none), ("on_success", none)] []
  | n + 1 => ofFields .action
    [("name", some (.text "a")), ("payload", none), ("on_success", some (linked n))] []

theorem isModel_linked (n : Nat) : (linked n).isModel = true := by
  cases n <;> rfl

/-- Each link of a chain takes up room of its own. -/
theorem overruns_linked (n room : Nat) : overruns (room + 1) (linked n) = decide (room ≤ n) := by
  induction n generalizing room with
  | zero =>
    cases room with
    | zero => rfl
    | succ room => simp [overruns, linked, ofFields, meets, meetsField, meetsEntry]
  | succ n ih =>
    cases room with
    | zero => rfl
    | succ room =>
      have hlink : overruns (room + 2) (linked (n + 1)) = overruns (room + 1) (linked n) := by
        simp [overruns, linked, ofFields, meets, meetsField, meetsEntry, ModelKind.nests,
          ModelKind.roomInside, depthOf, declared, actionFields, Rule.depth, Value.text?]
      rw [hlink, ih]
      simp

/-- A component that holds such a chain, of a type that stands for nothing. -/
def laden (n : Nat) : Value :=
  ofFields .node [("type", some (.text "Nope")), ("style", none), ("children", none)]
    [(.text "x", linked n)]

end Model

namespace Value

theorem wire_of_isModel {m : Value} (h : m.isModel = true) : m.wire = Model.plain true m := by
  cases m with
  | model kind fields given extra => rw [wire]
  | _ => cases h

/-- A chain of actions has a plain form as long as there are no more than 255 of them. -/
theorem wire_linked_eq_error_iff {n : Nat} {f : Failure} :
    (Model.linked n).wire = .error f ↔ f = .tooDeep ∧ Model.nestingLimit ≤ n := by
  rw [wire_of_isModel (Model.isModel_linked n), Model.plain_eq_error_iff, Model.overruns_linked,
    decide_eq_true_eq]

/-- What is not declared takes up more room. -/
theorem wire_laden_eq_error_iff {n : Nat} {f : Failure} :
    (Model.laden n).wire = .error f ↔ f = .tooDeep ∧ Model.nestingLimit ≤ n + 2 := by
  have h : Model.overruns (Model.nestingLimit + 1) (Model.laden n) =
      Model.overruns 254 (Model.linked n) := by
    simp [Model.overruns, Model.laden, Model.ofFields, Model.meets, Model.meetsField,
      Model.meetsEntry, ModelKind.nests, ModelKind.roomInside, Model.nestingLimit, Value.text?]
  rw [wire_of_isModel rfl, Model.plain_eq_error_iff, h, Model.overruns_linked, decide_eq_true_eq]
  refine and_congr_right fun _ => ?_
  rw [Model.nestingLimit]
  omega

theorem wireAll_eq_mapM (vs : List Value) : wireAll vs = vs.mapM wire := by
  induction vs with
  | nil => rfl
  | cons v vs ih => rw [wireAll, List.mapM_cons, ih]

theorem wireAll_eq_ok_iff {vs ws : List Value} :
    wireAll vs = .ok ws ↔ List.Forall₂ (fun v w => v.wire = .ok w) vs ws := by
  rw [wireAll_eq_mapM, mapM_eq_ok_iff]

mutual

/-- There is no other reason for a value to have no plain form. -/
theorem eq_tooDeep_of_wire : ∀ {v : Value} {f : Failure}, v.wire = .error f → f = .tooDeep
  | .model .., _, h => (Model.plain_eq_error_iff.1 h).1
  | .list items, _, h | .tuple items, _, h => by
    rw [wire] at h
    split at h
    · exact eq_tooDeep_of_wireAll (map_eq_error_iff.1 h)
    · cases h
  | .null, _, h | .bool _, _, h | .int _, _, h | .float _, _, h | .text _, _, h
  | .markup _, _, h | .date _, _, h | .dateTime _, _, h | .time _, _, h | .zone _, _, h
  | .function .., _, h | .object .., _, h | .rendered .., _, h | .map _, _, h => by
    cases h

theorem eq_tooDeep_of_wireAll :
    ∀ {vs : List Value} {f : Failure}, wireAll vs = .error f → f = .tooDeep
  | [], _, h => by cases h
  | v :: vs, _, h => by
    rw [wireAll] at h
    rcases bind_eq_error_iff.1 h with h | ⟨w, -, h⟩
    · exact eq_tooDeep_of_wire h
    rcases bind_eq_error_iff.1 h with h | ⟨ws, -, h⟩
    · exact eq_tooDeep_of_wireAll h
    · cases h

end

theorem exists_wire_or_tooDeep (v : Value) : (∃ w, v.wire = .ok w) ∨ v.wire = .error .tooDeep := by
  cases h : v.wire with
  | ok w => exact .inl ⟨w, rfl⟩
  | error f => exact .inr (by rw [eq_tooDeep_of_wire h])

theorem isModel_of_wire {v w : Value} (h : v.wire = .ok w) : w.isModel = false := by
  cases v with
  | model kind fields given extra =>
    obtain ⟨-, rfl⟩ := Model.plain_eq_ok_iff.1 h
    rfl
  | list items | tuple items =>
    rw [wire] at h
    split at h
    · obtain ⟨ws, -, rfl⟩ := map_eq_ok_iff.1 h
      rfl
    · obtain rfl := Except.ok.inj h
      rfl
  | _ =>
    obtain rfl := Except.ok.inj h
    rfl

theorem isModel_of_mem_wireAll {vs ws : List Value} (h : wireAll vs = .ok ws) {w : Value}
    (hw : w ∈ ws) : w.isModel = false := by
  induction wireAll_eq_ok_iff.1 h with
  | nil => cases hw
  | cons hv htail ih =>
    rcases List.mem_cons.1 hw with rfl | hw
    · exact isModel_of_wire hv
    · exact ih (wireAll_eq_ok_iff.2 htail) hw

/-- What has items keeps them, or has the plain forms of each, if models are among them. -/
theorem items?_of_wire {v w : Value} (h : v.wire = .ok w) :
    match v.items? with
    | none => w.items? = none
    | some items =>
      if items.any isModel then ∃ ws, wireAll items = .ok ws ∧ w.items? = some ws
      else w = v := by
  cases v with
  | model kind fields given extra =>
    obtain ⟨-, rfl⟩ := Model.plain_eq_ok_iff.1 h
    rfl
  | list items | tuple items =>
    rw [wire] at h
    dsimp only [items?]
    split at h
    · rename_i hany
      obtain ⟨ws, hws, rfl⟩ := map_eq_ok_iff.1 h
      rw [if_pos hany]
      exact ⟨ws, hws, rfl⟩
    · rename_i hany
      rw [if_neg hany]
      exact (Except.ok.inj h).symm
  | _ =>
    obtain rfl := Except.ok.inj h
    rfl

theorem exists_items?_of_wire {v w : Value} {items : List Value} (h : v.wire = .ok w)
    (hi : v.items? = some items) : ∃ levels, w.items? = some levels := by
  have hitems := items?_of_wire h
  rw [hi] at hitems
  dsimp only at hitems
  split at hitems
  · obtain ⟨ws, -, hw⟩ := hitems
    exact ⟨ws, hw⟩
  · exact ⟨items, hitems ▸ hi⟩

/-- The plain form of a list holds no models. -/
theorem isModel_of_mem_items? {v w item : Value} {items : List Value} (h : v.wire = .ok w)
    (hi : w.items? = some items) (hitem : item ∈ items) : item.isModel = false := by
  have hitems := items?_of_wire h
  cases hv : v.items? with
  | none =>
    rw [hv] at hitems
    rw [hitems] at hi
    cases hi
  | some vs =>
    rw [hv] at hitems
    dsimp only at hitems
    split at hitems
    · obtain ⟨ws, hws, hw⟩ := hitems
      obtain rfl := Option.some.inj (hi.symm.trans hw)
      exact isModel_of_mem_wireAll hws hitem
    · rename_i hnone
      subst hitems
      obtain rfl := Option.some.inj (hv.symm.trans hi)
      exact Bool.eq_false_iff.2 fun hm => hnone (List.any_eq_true.2 ⟨item, hitem, hm⟩)

/-- Plain forms stay as they are. -/
theorem wire_of_wire {v w : Value} (h : v.wire = .ok w) : w.wire = .ok w := by
  have hplain {items : List Value} (hi : w.items? = some items) : items.any isModel = false := by
    apply Bool.eq_false_iff.2
    intro hany
    obtain ⟨item, hitem, hm⟩ := List.any_eq_true.1 hany
    rw [isModel_of_mem_items? h hi hitem] at hm
    cases hm
  have hmodel := isModel_of_wire h
  cases w with
  | model kind fields given extra => cases hmodel
  | list items | tuple items => rw [wire, hplain rfl, if_neg Bool.false_ne_true]
  | _ => rfl

/-- Whether the plain form of a value is a selector. -/
def isLevel (v : Value) : Bool :=
  match v.wire with
  | .ok w => w.isSelector
  | .error _ => false

theorem isLevel_of_wire {v w : Value} (h : v.wire = .ok w) : v.isLevel = w.isSelector := by
  rw [isLevel, h]

theorem isLevel_of_isModel_eq_false {v : Value} (h : v.isModel = false) :
    v.isLevel = v.isSelector := by
  cases v with
  | model kind fields given extra => cases h
  | list items | tuple items =>
    rw [isLevel, wire]
    cases items.any isModel with
    | false => rfl
    | true => cases wireAll items <;> rfl
  | _ => rfl

theorem map_isSelector_of_wireAll {vs ws : List Value} (h : wireAll vs = .ok ws) :
    ws.map isSelector = vs.map isLevel := by
  induction wireAll_eq_ok_iff.1 h with
  | nil => rfl
  | cons hv htail ih =>
    rw [List.map_cons, List.map_cons, isLevel_of_wire hv, ih (wireAll_eq_ok_iff.2 htail)]

/-- The levels of a plain form are selectors where the items are, in plain form. -/
theorem map_isSelector_of_wire {v w : Value} {items levels : List Value} (h : v.wire = .ok w)
    (hi : v.items? = some items) (hl : w.items? = some levels) :
    levels.map isSelector = items.map isLevel := by
  have hitems := items?_of_wire h
  rw [hi] at hitems
  dsimp only at hitems
  split at hitems
  · obtain ⟨ws, hws, hw⟩ := hitems
    obtain rfl := Option.some.inj (hl.symm.trans hw)
    exact map_isSelector_of_wireAll hws
  · rename_i hnone
    subst hitems
    obtain rfl := Option.some.inj (hi.symm.trans hl)
    apply List.map_congr_left
    intro item hitem
    have hm : item.isModel = false :=
      Bool.eq_false_iff.2 fun hm => hnone (List.any_eq_true.2 ⟨item, hitem, hm⟩)
    exact (isLevel_of_isModel_eq_false hm).symm

end Value
end ViewDoc
