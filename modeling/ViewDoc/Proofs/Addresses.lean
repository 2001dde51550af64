import ViewDoc.Proofs.Numerals
import ViewDoc.Proofs.Walks

/-!
Addresses of the values inside maps, lists and tuples.

Each step goes by the name of an entry or by the position of an item, and however the steps are
written behind each other, the walk along the text ends at the value they lead to.
-/

namespace ViewDoc.Path

/-- A number that can be written is read as the position that it says. -/
theorem position_whole {i : Nat} (h : Text.isWritable i = true) :
    position (Text.whole i) = .index i := by
  have hdecimal : (Nat.toDigits 10 i).all Text.isDecimal = true :=
    List.all_eq_true.2 fun c hc => Text.isDecimal_of_mem_toDigits hc
  have hdigit : (Nat.toDigits 10 i).all Text.isDigit = true :=
    List.all_eq_true.2 fun c hc => Text.isDigit_of_isDecimal (Text.isDecimal_of_mem_toDigits hc)
  have hempty : (Nat.toDigits 10 i).isEmpty = false :=
    List.isEmpty_eq_false_iff.2 Nat.toDigits_ne_nil
  have hlength : (Nat.toDigits 10 i).length ≤ Text.digitLimit := Text.length_toDigits_le h
  simp [position, Text.toList_whole, hdecimal, hdigit, hempty, hlength, Text.decimalValue_toDigits]

theorem not_mem_whole {i : Nat} {c : Char} (h : c.isDigit = false) :
    c ∉ (Text.whole i).toList := by
  intro hc
  rw [Text.toList_whole] at hc
  rw [Nat.isDigit_of_mem_toDigits (by decide) (by decide) hc] at h
  cases h

theorem isPart_whole (i : Nat) : IsPart (Text.whole i) where
  nonempty := by
    intro h
    have hdigits := Text.toList_whole i
    rw [h] at hdigits
    exact Nat.toDigits_ne_nil hdigits.symm
  dot := not_mem_whole (by decide)
  opening := not_mem_whole (by decide)
  closing := not_mem_whole (by decide)

theorem whole_ne_length (i : Nat) : Text.whole i ≠ "length" := by
  intro h
  have hmem : 'l' ∉ (Text.whole i).toList := not_mem_whole (by decide)
  rw [h] at hmem
  exact hmem (by decide)

/-- A chain of steps that leads from a value to one inside it, by the names of entries and by the
positions of items as they are written. -/
inductive Leads : Value → List String → Value → Prop
  | here (v : Value) : Leads v [] v
  | entry {entries : Entries} {w v : Value} {s : String} {steps : List String} :
      entries.get? s = some w → IsPart s → Leads w steps v → Leads (.map entries) (s :: steps) v
  | item {c w v : Value} {items : List Value} {i : Nat} {s : String} {steps : List String} :
      c.items? = some items → items[i]? = some w → (Value.int i).show? = .ok s →
      Leads w steps v → Leads c (s :: steps) v

theorem show?_int_eq_ok_iff {i : Nat} {s : String} :
    (Value.int i).show? = .ok s ↔ Text.isWritable i = true ∧ Text.whole i = s := by
  have hshow : (Value.int i).show? =
      if Text.isWritable i then .ok (Text.whole i) else .error .tooManyDigits := rfl
  rw [hshow]
  cases Text.isWritable i <;> simp

theorem step_entry {entries : Entries} {w : Value} {s : String} (h : entries.get? s = some w) :
    step (.map entries) s = .found w := by
  rw [step, stepEntries, h]

theorem step_item {c w : Value} {items : List Value} {i : Nat} (hc : c.items? = some items)
    (hi : items[i]? = some w) (h : Text.isWritable i = true) :
    step c (Text.whole i) = .found w := by
  have hstep : stepItems items (Text.whole i) = .found w := by
    rw [stepItems, if_neg (whole_ne_length i), position_whole h]
    exact congrArg Step.ofOption hi
  cases c with
  | list xs =>
    obtain rfl := Option.some.inj hc
    exact hstep
  | tuple xs =>
    obtain rfl := Option.some.inj hc
    exact hstep
  | _ => cases hc

theorem isPart_of_leads {c v : Value} {steps : List String} (h : Leads c steps v) :
    ∀ s ∈ steps, IsPart s := by
  induction h with
  | here v => exact fun s hs => absurd hs List.not_mem_nil
  | entry _ hpart _ ih => exact List.forall_mem_cons.2 ⟨hpart, ih⟩
  | @item c w v items i s steps _ _ hs _ ih =>
    obtain ⟨-, rfl⟩ := show?_int_eq_ok_iff.1 hs
    exact List.forall_mem_cons.2 ⟨isPart_whole i, ih⟩

theorem walk_of_leads {c v : Value} {steps : List String} (h : Leads c steps v) (default : Value) :
    walk default c steps = v := by
  induction h with
  | here v => rfl
  | entry hs _ _ ih => rw [walk_cons_of_found (step_entry hs), ih]
  | item hc hi hs _ ih =>
    obtain ⟨hw, rfl⟩ := show?_int_eq_ok_iff.1 hs
    rw [walk_cons_of_found (step_item hc hi hw), ih]

/-- However steps are written behind a bare first one, the text has them as its segments and leads
where they lead. With the first one in brackets too, an empty segment comes in front. -/
theorem at_spelled {container v : Value} {first : String} {later : List String}
    (h : Leads container (first :: later) v) {t : String} (ht : Spells later t) :
    segments (first ++ t) = first :: later ∧
    (∀ default, container.at (.text (first ++ t)) default = .ok v) ∧
    segments ("[" ++ first ++ "]" ++ t) = "" :: first :: later := by
  have hparts := isPart_of_leads h
  have hlater : ∀ s ∈ later, IsPart s := fun s hs => hparts s (List.mem_cons_of_mem _ hs)
  have hfirst := hparts first List.mem_cons_self
  have hsegments : segments (first ++ t) = first :: later :=
    segments_of_spells hfirst.dot hfirst.opening hlater ht
  refine ⟨hsegments, ?_, ?_⟩
  · intro default
    rw [at_text, hsegments, walk_of_leads h]
  · have hempty : segments ("" ++ ("[" ++ first ++ "]" ++ t)) = "" :: first :: later :=
      segments_of_spells (by simp) (by simp) hparts (.bracketed first ht)
    rwa [String.empty_append] at hempty

/-- Positions and a name that looks like one, in both spellings. -/
theorem at_spelled_digits :
    let row : Value := .map [(.text "0", .tuple [.text "a", .text "b"])]
    let container : Value := .map [(.text "rows", .list [.null, row])]
    Leads container ["rows", "1", "0", "1"] (.text "b") ∧
      Spells ["1", "0", "1"] ("[" ++ "1" ++ "]" ++ ("." ++ "0" ++ ("[" ++ "1" ++ "]" ++ ""))) ∧
      container.at (.text ("rows" ++ ("[" ++ "1" ++ "]" ++ ("." ++ "0" ++ ("[" ++ "1" ++ "]" ++ "")))))
        .null = .ok (.text "b") := by
  intro row container
  have hone : (Value.int 1).show? = .ok "1" :=
    show?_int_eq_ok_iff.2 ⟨Text.isWritable_of_lt_ten (by decide), rfl⟩
  have hrows : IsPart "rows" := ⟨by decide, by decide, by decide, by decide⟩
  have hzero : IsPart "0" := ⟨by decide, by decide, by decide, by decide⟩
  have hleads : Leads container ["rows", "1", "0", "1"] (.text "b") :=
    .entry rfl hrows (.item rfl rfl hone (.entry rfl hzero (.item rfl rfl hone (.here _))))
  have hspells := Spells.bracketed "1" (Spells.dotted "0" (Spells.bracketed "1" Spells.nil))
  exact ⟨hleads, hspells, (at_spelled hleads hspells).2.1 .null⟩

end ViewDoc.Path
