import ViewDoc.Model.Wire

/-!
Plain forms are no larger than the models they come from.
-/

namespace ViewDoc

open Value (weight weights entriesWeight)

theorem Table.entriesWeight_insert_le (t : Entries) (key v : Value) :
    entriesWeight (t.insert key v) ≤ entriesWeight t + key.weight + v.weight := by
  induction t with
  | nil => simp [Table.insert, entriesWeight]
  | cons e rest ih =>
    obtain ⟨k, w⟩ := e
    simp only [Table.insert]
    split
    · simp only [entriesWeight]
      omega
    · simp only [entriesWeight]
      omega

theorem Table.entriesWeight_update_le (t more : Entries) :
    entriesWeight (t.update more) ≤ entriesWeight t + entriesWeight more := by
  induction more generalizing t with
  | nil => simp [Table.update, entriesWeight]
  | cons e rest ih =>
    obtain ⟨k, v⟩ := e
    have h := ih (t.insert k v)
    have := Table.entriesWeight_insert_le t k v
    simp only [Table.update, List.foldl_cons, entriesWeight] at h ⊢
    omega

theorem Value.entriesWeight_append (es fs : Entries) :
    entriesWeight (es ++ fs) = entriesWeight es + entriesWeight fs := by
  induction es with
  | nil => simp [entriesWeight]
  | cons e rest ih =>
    obtain ⟨k, v⟩ := e
    simp only [List.cons_append, entriesWeight, ih]
    omega

namespace Model

mutual

theorem weight_dump_le (keyed : Bool) :
    ∀ (room : Nat) (v : Value), (dump keyed room v).weight ≤ v.weight
  | 0, _ => by simp [dump]
  | room + 1, .list items | room + 1, .tuple items => by
    have := weights_dumpAll_le keyed room items
    simpa [dump, weight] using this
  | room + 1, .map entries => by
    have := entriesWeight_dumpEntries_le keyed room entries
    simpa [dump, weight] using this
  | room + 1, .model kind fields given extra => by
    have h1 := entriesWeight_dumpFields_le keyed kind given (kind.roomInside room) fields
    have h2 := entriesWeight_dumpEntries_le keyed (kind.roomInside room) extra
    have h3 := Table.entriesWeight_update_le []
      (dumpFields keyed kind given (kind.roomInside room) fields ++
        dumpEntries keyed (kind.roomInside room) extra)
    rw [Value.entriesWeight_append] at h3
    simp only [dump, weight, Table.ofList, entriesWeight] at h3 ⊢
    omega
  | room + 1, .rendered element props children => by
    have := weight_dump_le keyed room element
    have := weight_dump_le keyed room props
    have := weight_dump_le keyed room children
    simp only [dump, weight, entriesWeight]
    omega
  | _ + 1, .null | _ + 1, .bool _ | _ + 1, .int _ | _ + 1, .float _ | _ + 1, .text _
  | _ + 1, .markup _ | _ + 1, .date _ | _ + 1, .dateTime _ | _ + 1, .time _ | _ + 1, .zone _
  | _ + 1, .function .. | _ + 1, .object .. => by
    simp [dump]

theorem weights_dumpAll_le (keyed : Bool) (room : Nat) :
    ∀ vs : List Value, weights (dumpAll keyed room vs) ≤ weights vs
  | [] => by simp [dumpAll]
  | v :: vs => by
    have := weight_dump_le keyed room v
    have := weights_dumpAll_le keyed room vs
    simp only [dumpAll, weights]
    omega

theorem entriesWeight_dumpEntries_le (keyed : Bool) (room : Nat) :
    ∀ es : List (Value × Value), entriesWeight (dumpEntries keyed room es) ≤ entriesWeight es
  | [] => by simp [dumpEntries]
  | (k, v) :: rest => by
    have := weight_dump_le keyed room v
    have := entriesWeight_dumpEntries_le keyed room rest
    simp only [dumpEntries, entriesWeight]
    omega

theorem entriesWeight_dumpFields_le (keyed : Bool) (kind : ModelKind) (given : List String)
    (room : Nat) : ∀ es : List (Value × Value),
      entriesWeight (dumpFields keyed kind given room es) ≤ entriesWeight es
  | [] => by simp [dumpFields]
  | (k, v) :: rest => by
    have := weight_dump_le keyed (room + depthOf kind (k.text?.getD "")) v
    have := entriesWeight_dumpFields_le keyed kind given room rest
    have := Value.weight_pos k
    simp only [dumpFields]
    split
    · simp only [entriesWeight, weight]
      omega
    · simp only [entriesWeight]
      omega

end

theorem weight_le_of_plain {keyed : Bool} {m w : Value} (h : plain keyed m = .ok w) :
    w.weight ≤ m.weight := by
  rw [plain] at h
  split at h
  · cases h
  · obtain rfl := Except.ok.inj h
    exact weight_dump_le keyed (nestingLimit + 1) m

end Model

mutual

theorem Value.weight_le_of_wire : ∀ {v w : Value}, v.wire = .ok w → w.weight ≤ v.weight
  | .model .., w, h => Model.weight_le_of_plain h
  | .list items, w, h | .tuple items, w, h => by
    rw [Value.wire] at h
    split at h
    · cases hall : Value.wireAll items with
      | error f =>
        rw [hall] at h
        cases h
      | ok ws =>
        rw [hall] at h
        obtain rfl := Except.ok.inj h
        have := Value.weights_le_of_wireAll hall
        simpa [weight] using this
    · obtain rfl := Except.ok.inj h
      exact Nat.le_refl _
  | .null, w, h | .bool _, w, h | .int _, w, h | .float _, w, h | .text _, w, h
  | .markup _, w, h | .date _, w, h | .dateTime _, w, h | .time _, w, h | .zone _, w, h
  | .function .., w, h | .object .., w, h | .rendered .., w, h | .map _, w, h => by
    obtain rfl := Except.ok.inj h
    exact Nat.le_refl _

theorem Value.weights_le_of_wireAll :
    ∀ {vs ws : List Value}, Value.wireAll vs = .ok ws → weights ws ≤ weights vs
  | [], ws, h => by
    obtain rfl := Except.ok.inj h
    exact Nat.le_refl _
  | v :: vs, ws, h => by
    rw [Value.wireAll] at h
    cases hv : v.wire with
    | error f =>
      rw [hv] at h
      cases h
    | ok w =>
      cases hvs : Value.wireAll vs with
      | error f =>
        rw [hv, hvs] at h
        cases h
      | ok rest =>
        rw [hv, hvs] at h
        obtain rfl := Except.ok.inj h
        have := Value.weight_le_of_wire hv
        have := Value.weights_le_of_wireAll hvs
        simp only [weights]
        omega

end

end ViewDoc
