import ViewDoc.Proofs.Models

/-!
What validation accepts.

A model is made from a map that holds what its fields need, and models of the kind itself are
accepted as they are. Actions and component nodes hold others of their kind, so their forms are told
by how many may stand inside each other.
-/

namespace ViewDoc

open List (Forall₂)

namespace Model

/-- Every key is a text. -/
def IsNamed (entries : Entries) : Prop := ∀ e ∈ entries, e.1.isText = true

/-- Nothing, null or a value of a form. -/
def IsOptional (form : Value → Prop) (o : Option Value) : Prop :=
  ∀ v, o = some v → v.isNull = true ∨ form v

def IsFormatName (v : Value) : Prop := ∃ name ∈ formatNames, v.text? = some name

/-- What a selector is made from. -/
structure IsSelectorMap (entries : Entries) : Prop where
  root : ∃ v, Table.get? entries "root" = some v ∧ (v.isNull = true ∨ v.isText = true)
  keys : ∃ v, Table.get? entries "keys" = some v
  before : IsOptional (·.isText = true) (Table.get? entries "prefix")
  behind : IsOptional (·.isText = true) (Table.get? entries "suffix")
  format : IsOptional IsFormatName (Table.get? entries "format")

def IsSelectorForm : Value → Prop
  | .map entries => IsSelectorMap entries
  | .model kind _ _ _ => kind = .selector
  | _ => False

/-- Whether a value is accepted by a rule. -/
def Accepts (room : Nat) (rule : Rule) (v : Value) : Prop := ∃ w, check room rule v = .ok w

section Rules

variable {room : Nat} {v : Value}

theorem eq_null {v : Value} (h : v.isNull = true) : v = .null := by
  cases v with
  | null => rfl
  | _ => cases h

theorem accepts_null {rule : Rule} (h : rule.admitsNull = true) : Accepts room rule .null :=
  ⟨.null, check_of_passes (.null h)⟩

theorem accepts_any : Accepts room .any v := ⟨v, check_of_passes .any⟩

theorem accepts_optionalText_iff :
    Accepts room .optionalText v ↔ v.isNull = true ∨ v.isText = true := by
  constructor
  · rintro ⟨w, h⟩
    cases passes_of_check h with
    | null => exact .inl rfl
    | optionalText hs => exact .inr (Option.isSome_iff_exists.2 ⟨_, hs⟩)
  · rintro (h | h)
    · rw [eq_null h]
      exact accepts_null rfl
    · obtain ⟨s, hs⟩ := Option.isSome_iff_exists.1 h
      exact ⟨_, check_of_passes (.optionalText hs)⟩

theorem accepts_format_iff : Accepts room .format v ↔ v.isNull = true ∨ IsFormatName v := by
  constructor
  · rintro ⟨w, h⟩
    cases passes_of_check h with
    | null => exact .inl rfl
    | format hs hmem => exact .inr ⟨_, hmem, hs⟩
  · rintro (h | ⟨name, hmem, hname⟩)
    · rw [eq_null h]
      exact accepts_null rfl
    · exact ⟨_, check_of_passes (.format hname hmem)⟩

theorem exists_forall₂_iff {α β : Type} {R : α → β → Prop} {as : List α} :
    (∃ bs, Forall₂ R as bs) ↔ ∀ a ∈ as, ∃ b, R a b := by
  constructor
  · rintro ⟨bs, h⟩ a ha
    obtain ⟨b, -, hb⟩ := exists_right_of_forall₂ h ha
    exact ⟨b, hb⟩
  · intro h
    induction as with
    | nil => exact ⟨[], .nil⟩
    | cons a as ih =>
      obtain ⟨b, hb⟩ := h a List.mem_cons_self
      obtain ⟨bs, hbs⟩ := ih fun x hx => h x (List.mem_cons_of_mem a hx)
      exact ⟨b :: bs, .cons hb hbs⟩

end Rules

section Fields

variable {room : Nat} {entries : Entries}

/-- What a map holds for a field, under its key or else under its name. -/
def Field.held? (f : Field) (entries : Entries) : Option Value :=
  (Table.get? entries f.key).or (Table.get? entries f.name)

theorem held?_eq (f : Field) (entries : Entries) :
    f.held? entries = (f.keyIn? entries).bind (Table.get? entries) := by
  rw [Field.held?, Field.keyIn?, Table.contains_text, Table.contains_text]
  cases hkey : Table.get? entries f.key with
  | some v => simp [hkey]
  | none => cases hname : Table.get? entries f.name <;> simp [hname]

/-- A field of a map that is as it has to be. -/
structure Meets (room : Nat) (entries : Entries) (f : Field) : Prop where
  given : f.required = true → ∃ v, f.held? entries = some v
  accepted : ∀ v, f.held? entries = some v → Accepts room f.rule v

theorem exists_taken_iff {f : Field} :
    (∃ taken, Taken room entries f taken) ↔ Meets room entries f := by
  cases hkey : f.keyIn? entries with
  | none =>
    have hheld : f.held? entries = none := by rw [held?_eq, hkey]; rfl
    constructor
    · rintro ⟨taken, -, h⟩
      rw [hkey] at h
      exact ⟨fun hreq => by simp [h.1] at hreq, fun v hv => by simp [hheld] at hv⟩
    · intro h
      have hreq : f.required = false := by
        apply Bool.eq_false_iff.2
        intro hreq
        obtain ⟨v, hv⟩ := h.given hreq
        rw [hheld] at hv
        cases hv
      exact ⟨(f.name, none), rfl, by rw [hkey]; exact ⟨hreq, rfl⟩⟩
  | some key =>
    obtain ⟨-, v, hv⟩ := keyIn?_eq_some hkey
    have hheld : f.held? entries = some v := by rw [held?_eq, hkey]; exact hv
    constructor
    · rintro ⟨taken, -, h⟩
      rw [hkey] at h
      obtain ⟨x, w, hx, hw, -⟩ := h
      obtain rfl : v = x := Option.some.inj (hv.symm.trans hx)
      refine ⟨fun _ => ⟨v, hheld⟩, ?_⟩
      intro y hy
      obtain rfl : v = y := Option.some.inj (hheld.symm.trans hy)
      exact ⟨w, hw⟩
    · intro h
      obtain ⟨w, hw⟩ := h.accepted v hheld
      exact ⟨(f.name, some w), rfl, by rw [hkey]; exact ⟨v, w, hv, hw, rfl⟩⟩

/-- Entries become a model if each declared field is as it has to be and no other key is in the
way. -/
theorem accepts_entries_iff {kind : ModelKind} {nullable : Bool} :
    Accepts (room + 1) (.model kind nullable) (.map entries) ↔
      (∀ f ∈ declared kind, Meets room entries f) ∧ (isOpen kind = true → IsNamed entries) := by
  have hfields : (∀ f ∈ declared kind, Meets room entries f) ↔
      ∃ taken, Forall₂ (Taken room entries) (declared kind) taken := by
    rw [exists_forall₂_iff]
    exact forall₂_congr fun f _ => exists_taken_iff.symm
  have hkept : (∃ extra, Kept kind entries extra) ↔ (isOpen kind = true → IsNamed entries) := by
    simp only [Kept]
    cases isOpen kind <;> simp [IsNamed]
  rw [hfields, ← hkept]
  constructor
  · rintro ⟨m, h⟩
    obtain ⟨taken, extra, ht, he, -⟩ := check_entries_eq_ok_iff.1 h
    exact ⟨⟨taken, ht⟩, extra, he⟩
  · rintro ⟨⟨taken, ht⟩, extra, he⟩
    exact ⟨_, check_entries_eq_ok_iff.2 ⟨taken, extra, ht, he, rfl⟩⟩

theorem meets_required_iff {f : Field} (h : f.required = true) :
    Meets room entries f ↔ ∃ v, f.held? entries = some v ∧ Accepts room f.rule v := by
  constructor
  · intro hmeets
    obtain ⟨v, hv⟩ := hmeets.given h
    exact ⟨v, hv, hmeets.accepted v hv⟩
  · rintro ⟨v, hv, haccepts⟩
    refine ⟨fun _ => ⟨v, hv⟩, ?_⟩
    intro w hw
    obtain rfl : v = w := Option.some.inj (hv.symm.trans hw)
    exact haccepts

theorem meets_optional_iff {f : Field} (h : f.required = false) :
    Meets room entries f ↔ ∀ v, f.held? entries = some v → Accepts room f.rule v :=
  ⟨fun hmeets => hmeets.accepted, fun hall => ⟨fun hreq => by simp [h] at hreq, hall⟩⟩

theorem held?_of_name_eq {f : Field} (h : f.name = f.key) :
    f.held? entries = Table.get? entries f.key := by
  rw [Field.held?, h, Option.or_self]

end Fields

/-- Of the values other than maps only models of the kind itself are accepted, and null where it may
stand. -/
theorem accepts_model_iff {room : Nat} {kind : ModelKind} {v : Value} :
    Accepts (room + 1) (.model kind false) v ↔
      (∃ entries, v = .map entries ∧ (∀ f ∈ declared kind, Meets room entries f) ∧
        (isOpen kind = true → IsNamed entries)) ∨
      ∃ fields given extra, v = .model kind fields given extra := by
  constructor
  · rintro ⟨w, h⟩
    cases passes_of_check h with
    | null hnull => cases hnull
    | made => exact .inl ⟨_, rfl, accepts_entries_iff.1 ⟨_, h⟩⟩
    | model => exact .inr ⟨_, _, _, rfl⟩
  · rintro (⟨entries, rfl, h⟩ | ⟨fields, given, extra, rfl⟩)
    · exact accepts_entries_iff.2 h
    · exact ⟨_, check_of_passes .model⟩

theorem accepts_selector_iff {room : Nat} {v : Value} :
    Accepts (room + 1) (.model .selector false) v ↔ IsSelectorForm v := by
  rw [accepts_model_iff]
  cases v with
  | map entries =>
    have hentries : (∀ f ∈ declared .selector, Meets room entries f) ↔ IsSelectorMap entries := by
      simp only [declared, selectorFields, List.forall_mem_cons, meets_required_iff,
        meets_optional_iff, held?_of_name_eq, accepts_optionalText_iff, accepts_any,
        accepts_format_iff]
      constructor
      · rintro ⟨⟨v, hroot⟩, ⟨w, hkeys, -⟩, -, hbefore, hbehind, hformat, -⟩
        exact ⟨⟨v, hroot⟩, ⟨w, hkeys⟩, hbefore, hbehind, hformat⟩
      · rintro ⟨⟨v, hroot⟩, ⟨w, hkeys⟩, hbefore, hbehind, hformat⟩
        exact ⟨⟨v, hroot⟩, ⟨w, hkeys, trivial⟩, fun _ _ => trivial, hbefore, hbehind, hformat,
          List.forall_mem_nil _⟩
    simpa [isOpen, IsSelectorForm] using hentries
  | model k fields given extra => simp [IsSelectorForm]
  | _ => simp [IsSelectorForm]

end Model
end ViewDoc
