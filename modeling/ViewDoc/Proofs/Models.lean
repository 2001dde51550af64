import ViewDoc.Proofs.Results
import ViewDoc.Proofs.Writes
import ViewDoc.Model.Wire

/-!
What validation makes of a map, and when it does.

Each declared field is taken from where the map holds it and checked by its rule; the other entries
are kept in their order. Every model that is made this way is sound: its fields have the forms of
their rules, what was not given is null, and no other entry has the key of a declared field.
-/

namespace ViewDoc

open List (Forall₂)

theorem exists_left_of_forall₂ {α β : Type} {R : α → β → Prop} {as : List α} {bs : List β}
    (h : Forall₂ R as bs) {b : β} (hb : b ∈ bs) : ∃ a ∈ as, R a b := by
  induction h with
  | nil => cases hb
  | cons hr _ ih =>
    rcases List.mem_cons.1 hb with rfl | hb
    · exact ⟨_, List.mem_cons_self, hr⟩
    · obtain ⟨a, ha, h⟩ := ih hb
      exact ⟨a, List.mem_cons_of_mem _ ha, h⟩

theorem exists_right_of_forall₂ {α β : Type} {R : α → β → Prop} {as : List α} {bs : List β}
    (h : Forall₂ R as bs) {a : α} (ha : a ∈ as) : ∃ b ∈ bs, R a b :=
  exists_left_of_forall₂ h.flip ha

theorem Table.contains_text (t : Entries) (name : String) :
    t.contains (.text name) = (t.get? name).isSome := by
  rw [contains, get?, find?, Option.isSome_map, Bool.eq_iff_iff, List.any_eq_true,
    List.find?_isSome]

/-- No key comes twice. -/
def Table.IsDistinct {β : Type} (t : Table β) : Prop :=
  List.Pairwise (fun a b => a.1.equal b.1 = false) t

namespace Model

theorem Checked.both_eq_ok_iff {α β : Type} {a : Checked α} {b : Checked β} {x : α} {y : β} :
    Checked.both a b = .ok (x, y) ↔ a = .ok x ∧ b = .ok y := by
  cases a <;> cases b <;> simp [Checked.both]

theorem Checked.within_eq_ok_iff {α : Type} {steps : List String} {a : Checked α} {x : α} :
    Checked.within steps a = .ok x ↔ a = .ok x := by
  cases a <;> simp [Checked.within, Except.mapError]

theorem keyIn?_eq_some {f : Field} {entries : Entries} {key : String}
    (h : f.keyIn? entries = some key) :
    (key = f.key ∨ key = f.name) ∧ ∃ v, Table.get? entries key = some v := by
  rw [Field.keyIn?, Table.contains_text, Table.contains_text] at h
  split at h
  · rename_i hv
    obtain rfl := Option.some.inj h
    exact ⟨.inl rfl, Option.isSome_iff_exists.1 hv⟩
  · split at h
    · rename_i hv
      obtain rfl := Option.some.inj h
      exact ⟨.inr rfl, Option.isSome_iff_exists.1 hv⟩
    · cases h

/-- Two fields that no key can be mistaken for each other's. -/
def Apart (f g : Field) : Prop :=
  f.key ≠ g.key ∧ f.key ≠ g.name ∧ f.name ≠ g.key ∧ f.name ≠ g.name

theorem pairwise_declared (kind : ModelKind) : (declared kind).Pairwise Apart := by
  cases kind <;> simp [declared, selectorFields, actionFields, nodeFields, Apart]

theorem name_mem_declared : (⟨"name", "name", .text, true⟩ : Field) ∈ declared .action := by
  simp [declared, actionFields]

theorem followUp_mem_declared :
    (⟨"on_success", "onSuccess", .model .action true, false⟩ : Field) ∈ declared .action := by
  simp [declared, actionFields]

/-- What a map holds for a declared field is found under the key it is written with. -/
theorem find?_supplied {kind : ModelKind} {entries : Entries} {f : Field} {key : String}
    (hf : f ∈ declared kind) (hkey : f.keyIn? entries = some key) :
    (supplied kind entries).find? (·.1 = key) = some (key, f) := by
  have hapart := pairwise_declared kind
  unfold supplied
  generalize declared kind = fields at hf hapart
  induction fields with
  | nil => cases hf
  | cons g fields ih =>
    obtain ⟨hg, hrest⟩ := List.pairwise_cons.1 hapart
    rw [List.filterMap_cons]
    rcases List.mem_cons.1 hf with rfl | hf
    · simp [hkey]
    · cases hk : g.keyIn? entries with
      | none => exact ih hf hrest
      | some other =>
        have hne : other ≠ key := by
          obtain ⟨h1, h2, h3, h4⟩ := hg f hf
          rcases (keyIn?_eq_some hkey).1 with rfl | rfl <;>
            rcases (keyIn?_eq_some hk).1 with rfl | rfl <;> assumption
        simpa [hne] using ih hf hrest

/-- Under a key, the checks of the entries have that of the entry which holds it. -/
theorem find?_checkEntries (room : Nat) (used : List (String × Field)) (entries : Entries)
    (key : String) : (checkEntries room used entries).find? (·.1 = key) =
      (used.find? (·.1 = key)).bind fun p =>
        (Table.get? entries key).map fun v => (key, check room p.2.rule v) := by
  induction entries with
  | nil =>
    rw [checkEntries]
    cases used.find? (·.1 = key) <;> rfl
  | cons e rest ih =>
    obtain ⟨k, v⟩ := e
    have hget : Table.get? ((k, v) :: rest) key =
        if k.text? = some key then some v else Table.get? rest key := by
      rw [Table.get?, Table.find?, List.find?_cons]
      by_cases hk : k.text? = some key
      · rw [if_pos hk, Value.equal_text_iff.2 hk]
        rfl
      · rw [if_neg hk, Bool.eq_false_iff.2 (mt Value.equal_text_iff.1 hk)]
        rfl
    rw [checkEntries, hget]
    cases hk : k.text? with
    | none => simpa using ih
    | some s =>
      simp only [Option.bind_some, Option.some.injEq]
      by_cases hs : s = key
      · subst hs
        cases hu : used.find? (·.1 = s) with
        | none => simp [ih, hu]
        | some p =>
          have hp : p.1 = s := by simpa using List.find?_some hu
          simp [hp]
      · rw [if_neg hs, ← ih]
        cases hu : used.find? (·.1 = s) with
        | none => rfl
        | some p =>
          have hp : p.1 = s := by simpa using List.find?_some hu
          simp [hp, hs]

/-- How a field comes from entries: from what they hold under its key or its name, checked by its
rule. A field that they do not hold is left out, unless it has to be there. -/
def Taken (room : Nat) (entries : Entries) (f : Field) (taken : String × Option Value) : Prop :=
  taken.1 = f.name ∧
    match f.keyIn? entries with
    | none => f.required = false ∧ taken.2 = none
    | some key => ∃ v w, Table.get? entries key = some v ∧ check room f.rule v = .ok w ∧
        taken.2 = some w

/-- A field is collected from what was found under the key that entries have it under. -/
theorem found_eq_ok_iff {kind : ModelKind} {room : Nat} {entries : Entries} {f : Field}
    (hf : f ∈ declared kind) {o : Option Value} :
    (match f.keyIn? entries with
      | none => if f.required then .error [⟨[f.key], "missing"⟩] else .ok none
      | some key =>
        match (checkEntries room (supplied kind entries) entries).find? (·.1 = key) with
        | some (_, checked) => (Checked.within [key] checked).map some
        | none => .ok none : Checked (Option Value)) = .ok o ↔
      Taken room entries f (f.name, o) := by
  rw [Taken]
  cases hkey : f.keyIn? entries with
  | none => cases f.required <;> simp [eq_comm]
  | some key =>
    obtain ⟨-, v, hv⟩ := keyIn?_eq_some hkey
    have hfound := find?_checkEntries room (supplied kind entries) entries key
    rw [find?_supplied hf hkey, hv] at hfound
    simp only [hfound, Option.bind_some, Option.map_some, map_eq_ok_iff,
      Checked.within_eq_ok_iff, hv, Option.some.injEq, true_and]
    constructor
    · intro h
      obtain ⟨w, hw, rfl⟩ := h
      exact ⟨v, w, rfl, hw, rfl⟩
    · intro h
      obtain ⟨_, w, rfl, hw, rfl⟩ := h
      exact ⟨w, hw, rfl⟩

theorem collect_eq_ok_iff {kind : ModelKind} {room : Nat} {entries : Entries} {fields : List Field}
    (hf : ∀ f ∈ fields, f ∈ declared kind) {taken : List (String × Option Value)} :
    collect (checkEntries room (supplied kind entries) entries) (·.keyIn? entries) fields =
      .ok taken ↔ Forall₂ (Taken room entries) fields taken := by
  induction fields generalizing taken with
  | nil => simp [collect, eq_comm]
  | cons f fields ih =>
    have ih := @ih fun g hg => hf g (List.mem_cons_of_mem _ hg)
    have hhere := @found_eq_ok_iff kind room entries f (hf f List.mem_cons_self)
    rw [collect, map_eq_ok_iff, List.forall₂_cons_left_iff]
    constructor
    · intro h
      obtain ⟨⟨o, rest⟩, h, rfl⟩ := h
      obtain ⟨ho, hrest⟩ := Checked.both_eq_ok_iff.1 h
      exact ⟨_, _, hhere.1 ho, ih.1 hrest, rfl⟩
    · intro h
      obtain ⟨⟨name, o⟩, rest, ho, hrest, rfl⟩ := h
      obtain rfl : name = f.name := ho.1
      exact ⟨(o, rest), Checked.both_eq_ok_iff.2 ⟨hhere.2 ho, ih.2 hrest⟩, rfl⟩

/-- The entries that stand under none of some keys. -/
def others (used : List String) (entries : Entries) : Entries :=
  entries.filterMap fun e =>
    e.1.text?.bind fun s => if used.contains s then none else some (.text s, e.2)

theorem others_cons (used : List String) (k v : Value) (rest : Entries) :
    others used ((k, v) :: rest) = match k.text? with
      | none => others used rest
      | some s =>
        if used.contains s then others used rest else (.text s, v) :: others used rest := by
  rw [others, List.filterMap_cons]
  cases k.text? with
  | none => rfl
  | some s =>
    dsimp only [Option.bind_some]
    cases used.contains s <;> rfl

theorem extras_eq_ok_iff {used : List String} {entries extra : Entries} :
    extras used entries = .ok extra ↔
      (∀ e ∈ entries, e.1.isText = true) ∧ extra = others used entries := by
  induction entries generalizing extra with
  | nil =>
    rw [extras, Except.ok.injEq, eq_comm]
    exact ⟨fun h => ⟨List.forall_mem_nil _, h⟩, fun h => h.2⟩
  | cons e rest ih =>
    obtain ⟨k, v⟩ := e
    rw [extras, others_cons, List.forall_mem_cons, Value.isText]
    cases hk : k.text? with
    | none =>
      cases h : extras used rest <;> simp [Checked.both]
    | some s =>
      dsimp only
      cases used.contains s with
      | true => rw [if_pos rfl, if_pos rfl, ih, Option.isSome_some, eq_self, true_and]
      | false =>
        rw [if_neg Bool.false_ne_true, if_neg Bool.false_ne_true, map_eq_ok_iff]
        constructor
        · intro h
          obtain ⟨kept, h, rfl⟩ := h
          obtain ⟨ht, rfl⟩ := ih.1 h
          exact ⟨⟨rfl, ht⟩, rfl⟩
        · intro h
          exact ⟨_, ih.2 ⟨h.1.2, rfl⟩, h.2.symm⟩

/-- The fields of a model that are not declared: what is left of its entries, whose keys are texts,
if such fields are kept at all. -/
def Kept (kind : ModelKind) (entries extra : Entries) : Prop :=
  if isOpen kind then
    (∀ e ∈ entries, e.1.isText = true) ∧ extra = others ((supplied kind entries).map (·.1)) entries
  else extra = []

/-- When entries become a model, and which one. -/
theorem check_entries_eq_ok_iff {room : Nat} {kind : ModelKind} {nullable : Bool}
    {entries : Entries} {m : Value} :
    check (room + 1) (.model kind nullable) (.map entries) = .ok m ↔ ∃ taken extra,
      Forall₂ (Taken room entries) (declared kind) taken ∧ Kept kind entries extra ∧
        m = ofFields kind taken extra := by
  have hkept (extra : Entries) :
      (if isOpen kind then extras ((supplied kind entries).map (·.1)) entries else .ok []) =
        .ok extra ↔ Kept kind entries extra := by
    rw [Kept]
    split
    · exact extras_eq_ok_iff
    · rw [Except.ok.injEq]
      exact eq_comm
  rw [check, assemble, map_eq_ok_iff]
  constructor
  · intro h
    obtain ⟨⟨taken, extra⟩, h, rfl⟩ := h
    obtain ⟨ht, he⟩ := Checked.both_eq_ok_iff.1 h
    exact ⟨taken, extra, (collect_eq_ok_iff fun f hf => hf).1 ht, (hkept extra).1 he, rfl⟩
  · intro h
    obtain ⟨taken, extra, ht, he, rfl⟩ := h
    exact ⟨(taken, extra), Checked.both_eq_ok_iff.2
      ⟨(collect_eq_ok_iff fun f hf => hf).2 ht, (hkept extra).2 he⟩, rfl⟩

theorem checkItems_eq_ok_iff {room i : Nat} {items out : List Value} :
    checkItems room i items = .ok out ↔
      Forall₂ (fun v w => check room (.model .node false) v = .ok w) items out := by
  induction items generalizing i out with
  | nil => simp [checkItems, eq_comm]
  | cons v rest ih =>
    rw [checkItems, map_eq_ok_iff, List.forall₂_cons_left_iff]
    constructor
    · intro h
      obtain ⟨⟨w, ws⟩, h, rfl⟩ := h
      obtain ⟨hw, hws⟩ := Checked.both_eq_ok_iff.1 h
      exact ⟨w, ws, Checked.within_eq_ok_iff.1 hw, ih.1 hws, rfl⟩
    · intro h
      obtain ⟨w, ws, hw, hws, rfl⟩ := h
      exact ⟨(w, ws), Checked.both_eq_ok_iff.2 ⟨Checked.within_eq_ok_iff.2 hw, ih.2 hws⟩, rfl⟩

theorem checkKeys_eq_ok_iff {entries out : Entries} : checkKeys entries = .ok out ↔
    (∀ e ∈ entries, e.1.isText = true) ∧ out = others [] entries := by
  induction entries generalizing out with
  | nil =>
    rw [checkKeys, Except.ok.injEq, eq_comm]
    exact ⟨fun h => ⟨List.forall_mem_nil _, h⟩, fun h => h.2⟩
  | cons e rest ih =>
    obtain ⟨k, v⟩ := e
    rw [checkKeys, others_cons, List.forall_mem_cons, Value.isText, map_eq_ok_iff]
    cases hk : k.text? with
    | none =>
      cases h : checkKeys rest <;> simp [Checked.both]
    | some s =>
      constructor
      · intro h
        obtain ⟨⟨key, rest'⟩, h, rfl⟩ := h
        obtain ⟨hkey, hrest⟩ := Checked.both_eq_ok_iff.1 h
        obtain rfl := Except.ok.inj hkey
        obtain ⟨ht, rfl⟩ := ih.1 hrest
        exact ⟨⟨rfl, ht⟩, rfl⟩
      · intro h
        exact ⟨(.text s, others [] rest), Checked.both_eq_ok_iff.2 ⟨rfl, ih.2 ⟨h.1.2, rfl⟩⟩,
          h.2.symm⟩

def Rule.admitsNull : Rule → Bool
  | .optionalText | .format | .optionalMap | .optionalNodes => true
  | .model _ nullable => nullable
  | .any | .text => false

/-- The ways in which a value passes a rule, and as what. -/
inductive Passes : Nat → Rule → Value → Value → Prop
  | any {room : Nat} {v : Value} : Passes room .any v v
  | null {room : Nat} {rule : Rule} : rule.admitsNull = true → Passes room rule .null .null
  | text {room : Nat} {v : Value} {s : String} : v.text? = some s → Passes room .text v (.text s)
  | optionalText {room : Nat} {v : Value} {s : String} : v.text? = some s →
      Passes room .optionalText v (.text s)
  | format {room : Nat} {v : Value} {s : String} : v.text? = some s → s ∈ formatNames →
      Passes room .format v (.text s)
  | map {room : Nat} {entries : Entries} : (∀ e ∈ entries, e.1.isText = true) →
      Passes room .optionalMap (.map entries) (.map (others [] entries))
  | made {room : Nat} {kind : ModelKind} {nullable : Bool} {entries extra : Entries}
      {taken : List (String × Option Value)} : Forall₂ (Taken room entries) (declared kind) taken →
      Kept kind entries extra →
      Passes (room + 1) (.model kind nullable) (.map entries) (ofFields kind taken extra)
  | model {room : Nat} {kind : ModelKind} {nullable : Bool} {fields extra : Entries}
      {given : List String} : Passes (room + 1) (.model kind nullable)
        (.model kind fields given extra) (.model kind fields given extra)
  | nodes {room : Nat} {v : Value} {items out : List Value} : v.items? = some items →
      Forall₂ (fun v w => check room (.model .node false) v = .ok w) items out →
      Passes room .optionalNodes v (.list out)

theorem passes_of_check {room : Nat} {rule : Rule} {v w : Value} (h : check room rule v = .ok w) :
    Passes room rule v w := by
  revert h
  fun_cases check room rule v
  all_goals intro h
  case case1 =>
    obtain rfl := Except.ok.inj h
    exact .any
  case case2 | case3 =>
    obtain rfl := Except.ok.inj h
    exact .text rfl
  case case6 | case7 =>
    obtain rfl := Except.ok.inj h
    exact .optionalText rfl
  case case10 hs | case12 hs =>
    obtain rfl := Except.ok.inj h
    exact .format rfl (List.contains_iff_mem.1 hs)
  case case5 | case9 | case15 | case18 | case24 =>
    obtain rfl := Except.ok.inj h
    exact .null rfl
  case case16 =>
    obtain ⟨out, ho, rfl⟩ := map_eq_ok_iff.1 h
    obtain ⟨ht, rfl⟩ := checkKeys_eq_ok_iff.1 ho
    exact .map ht
  case case20 room kind nullable entries =>
    have hmade : check (room + 1) (.model kind nullable) (.map entries) = .ok w := by
      rw [check]
      exact h
    obtain ⟨taken, extra, ht, he, rfl⟩ := check_entries_eq_ok_iff.1 hmade
    exact .made ht he
  case case21 =>
    obtain rfl := Except.ok.inj h
    exact .model
  case case25 | case26 =>
    obtain ⟨out, ho, rfl⟩ := map_eq_ok_iff.1 h
    exact .nodes rfl (checkItems_eq_ok_iff.1 ho)
  all_goals cases h

theorem check_of_passes {room : Nat} {rule : Rule} {v w : Value} (h : Passes room rule v w) :
    check room rule v = .ok w := by
  have htext {v : Value} {s : String} (hs : v.text? = some s) : v = .text s ∨ v = .markup s := by
    cases v with
    | text t => exact .inl (congrArg _ (Option.some.inj hs))
    | markup t => exact .inr (congrArg _ (Option.some.inj hs))
    | _ => cases hs
  cases h with
  | any => rw [check]
  | null hnull =>
    cases rule with
    | model kind nullable =>
      obtain rfl : nullable = true := hnull
      rw [check]
    | any => cases hnull
    | text => cases hnull
    | _ => rw [check]
  | text hs => rcases htext hs with rfl | rfl <;> rw [check]
  | optionalText hs => rcases htext hs with rfl | rfl <;> rw [check]
  | format hs hmem =>
    rcases htext hs with rfl | rfl <;> rw [check, if_pos (List.contains_iff_mem.2 hmem)]
  | map ht => rw [check, checkKeys_eq_ok_iff.2 ⟨ht, rfl⟩, ok_map]
  | made ht he => exact check_entries_eq_ok_iff.2 ⟨_, _, ht, he, rfl⟩
  | model => rw [check, if_pos rfl]
  | nodes hi ho =>
    cases v with
    | list items =>
      obtain rfl := Option.some.inj hi
      rw [check, checkItems_eq_ok_iff.2 ho, ok_map]
    | tuple items =>
      obtain rfl := Option.some.inj hi
      rw [check, checkItems_eq_ok_iff.2 ho, ok_map]
    | _ => cases hi

theorem mem_others {used : List String} {entries : Entries} {e : Value × Value}
    (h : e ∈ others used entries) : ∃ k s, (k, e.2) ∈ entries ∧ k.text? = some s ∧
      s ∉ used ∧ e.1 = .text s := by
  obtain ⟨⟨k, v⟩, hmem, he⟩ := List.mem_filterMap.1 h
  obtain ⟨s, hs, he⟩ := Option.bind_eq_some_iff.1 he
  split at he
  · cases he
  · rename_i hused
    obtain rfl := Option.some.inj he
    exact ⟨k, s, hmem, hs, fun h => hused (List.contains_iff_mem.2 h), rfl⟩

theorem isDistinct_others (used : List String) {entries : Entries}
    (h : Table.IsDistinct entries) : Table.IsDistinct (others used entries) := by
  refine List.pairwise_filterMap.2 (List.Pairwise.imp ?_ h)
  intro a b hab x hx y hy
  obtain ⟨s, hs, hx⟩ := Option.bind_eq_some_iff.1 hx
  obtain ⟨t, ht, hy⟩ := Option.bind_eq_some_iff.1 hy
  split at hx
  · cases hx
  split at hy
  · cases hy
  obtain rfl := Option.some.inj hx
  obtain rfl := Option.some.inj hy
  apply Bool.eq_false_iff.2
  intro hxy
  obtain rfl : t = s := by simpa using hxy
  rw [Value.equal_of_equal_text (Value.equal_text_iff.2 hs) (Value.equal_text_iff.2 ht)] at hab
  cases hab

/-- A value of the form that a rule gives. -/
def Fits : Rule → Value → Prop
  | .any, _ => True
  | .text, v => ∃ s, v = .text s
  | .optionalText, v => v = .null ∨ ∃ s, v = .text s
  | .format, v => v = .null ∨ ∃ s ∈ formatNames, v = .text s
  | .optionalMap, v => v = .null ∨ ∃ entries, v = .map entries ∧ ∀ e ∈ entries, ∃ s, e.1 = .text s
  | .model kind nullable, v =>
    (nullable = true ∧ v = .null) ∨ ∃ fields given extra, v = .model kind fields given extra
  | .optionalNodes, v => v = .null ∨ ∃ items, v = .list items ∧
      ∀ item ∈ items, ∃ fields given extra, item = .model .node fields given extra

/-- A declared field as a model holds it: it has the form of its rule, or was left out. -/
def HasForm (f : Field) (taken : String × Option Value) : Prop :=
  taken.1 = f.name ∧ match taken.2 with
    | none => f.required = false
    | some v => Fits f.rule v

/-- The fields of a model that are not declared: under texts, none of which is the key of a declared
field, or its name unless the field is given under its key. -/
structure IsApart (kind : ModelKind) (given : List String) (extra : Entries) : Prop where
  closed : isOpen kind = false → extra = []
  distinct : Table.IsDistinct extra
  texts : ∀ e ∈ extra, ∃ s, e.1 = .text s ∧
    ∀ f ∈ declared kind, s ≠ f.key ∧ (s = f.name → f.name ∈ given)

/-- The parts of a model as validation puts them together. -/
def IsFormed (kind : ModelKind) (fields : Entries) (given : List String) (extra : Entries) : Prop :=
  ∃ taken, Value.model kind fields given extra = ofFields kind taken extra ∧
    Forall₂ HasForm (declared kind) taken ∧ IsApart kind given extra

mutual

/-- No map holds a key twice, and every model is put together by validation. -/
def IsSound : Value → Prop
  | .list items | .tuple items => AreSound items
  | .map entries => Table.IsDistinct entries ∧ EntriesSound entries
  | .model kind fields given extra =>
    IsFormed kind fields given extra ∧ EntriesSound fields ∧ EntriesSound extra
  | .rendered element props children => IsSound element ∧ IsSound props ∧ IsSound children
  | _ => True

def AreSound : List Value → Prop
  | [] => True
  | v :: vs => IsSound v ∧ AreSound vs

def EntriesSound : List (Value × Value) → Prop
  | [] => True
  | (_, v) :: rest => IsSound v ∧ EntriesSound rest

end

theorem areSound_iff {vs : List Value} : AreSound vs ↔ ∀ v ∈ vs, IsSound v := by
  induction vs with
  | nil => simp [AreSound]
  | cons v vs ih => rw [AreSound, ih, List.forall_mem_cons]

theorem entriesSound_iff {es : Entries} : EntriesSound es ↔ ∀ e ∈ es, IsSound e.2 := by
  induction es with
  | nil => simp [EntriesSound]
  | cons e es ih => rw [EntriesSound, ih, List.forall_mem_cons]

theorem fits_of_check {room : Nat} {rule : Rule} {v w : Value} (h : check room rule v = .ok w) :
    Fits rule w := by
  cases passes_of_check h with
  | any => trivial
  | null hnull =>
    cases rule with
    | model kind nullable => exact .inl ⟨hnull, rfl⟩
    | any => trivial
    | text => cases hnull
    | _ => exact .inl rfl
  | text hs => exact ⟨_, rfl⟩
  | optionalText hs => exact .inr ⟨_, rfl⟩
  | format hs hmem => exact .inr ⟨_, hmem, rfl⟩
  | map ht =>
    refine .inr ⟨_, rfl, ?_⟩
    intro e hmem
    obtain ⟨k, s, -, -, -, he⟩ := mem_others hmem
    exact ⟨s, he⟩
  | made ht he => exact .inr ⟨_, _, _, rfl⟩
  | model => exact .inr ⟨_, _, _, rfl⟩
  | nodes hi ho =>
    refine .inr ⟨_, rfl, ?_⟩
    intro o hmem
    obtain ⟨item, -, hitem⟩ := exists_left_of_forall₂ ho hmem
    cases passes_of_check hitem with
    | null hnull => cases hnull
    | made ht he => exact ⟨_, _, _, rfl⟩
    | model => exact ⟨_, _, _, rfl⟩

theorem hasForm_of_taken {room : Nat} {entries : Entries} {f : Field}
    {taken : String × Option Value} (h : Taken room entries f taken) : HasForm f taken := by
  obtain ⟨hname, h⟩ := h
  refine ⟨hname, ?_⟩
  cases hkey : f.keyIn? entries with
  | none =>
    rw [hkey] at h
    rw [h.2]
    exact h.1
  | some key =>
    rw [hkey] at h
    obtain ⟨v, w, -, hw, ht⟩ := h
    rw [ht]
    exact fits_of_check hw

/-- The names of the fields that a model is given. -/
def givenNames (taken : List (String × Option Value)) : List String :=
  (taken.filter (·.2.isSome)).map (·.1)

theorem mem_used {kind : ModelKind} {entries : Entries} {f : Field} {key : String}
    (hf : f ∈ declared kind) (hkey : f.keyIn? entries = some key) :
    key ∈ (supplied kind entries).map (·.1) :=
  List.mem_map.2 ⟨(key, f), List.mem_of_find?_eq_some (find?_supplied hf hkey), rfl⟩

/-- A text in the way of which no declared field stands is a key of none. -/
theorem key_of_unused {room : Nat} {kind : ModelKind} {entries : Entries}
    {taken : List (String × Option Value)}
    (ht : Forall₂ (Taken room entries) (declared kind) taken) {k : Value} {v : Value} {s : String}
    (hk : (k, v) ∈ entries) (hs : k.text? = some s)
    (hused : s ∉ (supplied kind entries).map (·.1)) {f : Field} (hf : f ∈ declared kind) :
    s ≠ f.key ∧ (s = f.name → f.name ∈ givenNames taken) := by
  have hcontains : Table.contains entries (.text s) = true :=
    List.any_eq_true.2 ⟨(k, v), hk, Value.equal_text_iff.2 hs⟩
  have hne : s ≠ f.key := by
    intro h
    subst h
    exact hused (mem_used hf (by rw [Field.keyIn?, if_pos hcontains]))
  refine ⟨hne, ?_⟩
  intro h
  subst h
  -- the name is there and unused, so the field is given under its key
  have hkey : f.keyIn? entries = some f.key := by
    rw [Field.keyIn?]
    split
    · rfl
    · rename_i hno
      exact absurd (mem_used hf (by rw [Field.keyIn?, if_neg hno, if_pos hcontains])) hused
  obtain ⟨t, hmem, hname, h⟩ := exists_right_of_forall₂ ht hf
  rw [hkey] at h
  obtain ⟨v, w, -, -, hsome⟩ := h
  refine List.mem_map.2 ⟨t, List.mem_filter.2 ⟨hmem, ?_⟩, hname⟩
  rw [hsome]
  rfl

theorem isApart_of_kept {room : Nat} {kind : ModelKind} {entries extra : Entries}
    {taken : List (String × Option Value)} (hd : Table.IsDistinct entries)
    (ht : Forall₂ (Taken room entries) (declared kind) taken) (he : Kept kind entries extra) :
    IsApart kind (givenNames taken) extra := by
  rw [Kept] at he
  cases ho : isOpen kind with
  | false =>
    rw [ho, if_neg Bool.false_ne_true] at he
    subst he
    exact ⟨fun _ => rfl, .nil, List.forall_mem_nil _⟩
  | true =>
    rw [ho, if_pos rfl] at he
    obtain ⟨-, rfl⟩ := he
    refine ⟨by simp [ho], isDistinct_others _ hd, ?_⟩
    intro e hmem
    obtain ⟨k, s, hk, hs, hused, he⟩ := mem_others hmem
    exact ⟨s, he, fun f hf => key_of_unused ht hk hs hused hf⟩

theorem mem_of_get? {entries : Entries} {key : String} {v : Value}
    (h : Table.get? entries key = some v) : ∃ k, (k, v) ∈ entries ∧ k.text? = some key := by
  obtain ⟨⟨k, w⟩, hf, rfl⟩ := Option.map_eq_some_iff.1 h
  have hk := List.find?_some hf
  exact ⟨k, List.mem_of_find?_eq_some hf, Value.equal_text_iff.1 hk⟩

theorem weight_lt_of_get? {entries : Entries} {key : String} {v : Value}
    (h : Table.get? entries key = some v) : v.weight < (Value.map entries).weight := by
  obtain ⟨k, hk, -⟩ := mem_of_get? h
  have := Value.weight_le_entriesWeight hk
  rw [Value.weight]
  omega

theorem weight_lt_of_items? {v item : Value} {items : List Value} (h : v.items? = some items)
    (hi : item ∈ items) : item.weight < v.weight := by
  have hle := Value.weight_le_weights hi
  cases v with
  | list _ =>
    obtain rfl := Option.some.inj h
    rw [Value.weight]
    omega
  | tuple _ =>
    obtain rfl := Option.some.inj h
    rw [Value.weight]
    omega
  | _ => cases h

theorem isSound_ofFields {kind : ModelKind} {taken : List (String × Option Value)}
    {extra : Entries} (h : Forall₂ HasForm (declared kind) taken)
    (he : IsApart kind (givenNames taken) extra)
    (ht : ∀ t ∈ taken, IsSound (t.2.getD .null)) (hx : EntriesSound extra) :
    IsSound (ofFields kind taken extra) := by
  rw [ofFields, IsSound]
  refine ⟨⟨taken, rfl, h, he⟩, ?_, hx⟩
  rw [entriesSound_iff]
  intro e hmem
  obtain ⟨t, htmem, rfl⟩ := List.mem_map.1 hmem
  exact ht t htmem

/-- An action with a name, and with what follows it if that is an action or null. -/
theorem isSound_action (name : String) {next : Option Value}
    (hform : HasForm ⟨"on_success", "onSuccess", .model .action true, false⟩ ("on_success", next))
    (hsound : IsSound (next.getD .null)) :
    IsSound (ofFields .action
      [("name", some (.text name)), ("payload", none), ("on_success", next)] []) := by
  have hfields : Forall₂ HasForm (declared .action)
      [("name", some (.text name)), ("payload", none), ("on_success", next)] :=
    .cons ⟨rfl, name, rfl⟩ (.cons ⟨rfl, rfl⟩ (.cons hform .nil))
  refine isSound_ofFields hfields ⟨fun _ => rfl, .nil, List.forall_mem_nil _⟩ ?_ trivial
  simpa [IsSound] using hsound

/-- A literal selector. -/
theorem isSound_selector {keys : Value} (hsound : IsSound keys) :
    IsSound (ofFields .selector [("root", some .null), ("keys", some keys), ("default", none),
      ("prefix", none), ("suffix", none), ("format", none)] []) := by
  have hfields : Forall₂ HasForm (declared .selector) [("root", some .null), ("keys", some keys),
      ("default", none), ("prefix", none), ("suffix", none), ("format", none)] :=
    .cons ⟨rfl, .inl rfl⟩ (.cons ⟨rfl, trivial⟩ (.cons ⟨rfl, rfl⟩ (.cons ⟨rfl, rfl⟩
      (.cons ⟨rfl, rfl⟩ (.cons ⟨rfl, rfl⟩ .nil)))))
  refine isSound_ofFields hfields ⟨fun _ => rfl, .nil, List.forall_mem_nil _⟩ ?_ trivial
  simpa [IsSound] using hsound

/-- Models that validation makes of sound values are sound. -/
theorem isSound_of_check {room : Nat} {rule : Rule} {v w : Value} (h : check room rule v = .ok w)
    (hv : IsSound v) : IsSound w := by
  cases passes_of_check h with
  | any => exact hv
  | null hnull => simp [IsSound]
  | text hs => simp [IsSound]
  | optionalText hs => simp [IsSound]
  | format hs hmem => simp [IsSound]
  | @map _ entries ht =>
    rw [IsSound, entriesSound_iff] at hv
    rw [IsSound, entriesSound_iff]
    refine ⟨isDistinct_others [] hv.1, ?_⟩
    intro e hmem
    obtain ⟨k, s, hk, -⟩ := mem_others hmem
    exact hv.2 (k, e.2) hk
  | @made room kind _ entries extra taken ht he =>
    rw [IsSound, entriesSound_iff] at hv
    refine isSound_ofFields (ht.imp fun _ _ => hasForm_of_taken) (isApart_of_kept hv.1 ht he) ?_ ?_
    · intro t htmem
      obtain ⟨f, -, -, h⟩ := exists_left_of_forall₂ ht htmem
      cases hkey : f.keyIn? entries with
      | none =>
        rw [hkey] at h
        rw [h.2]
        simp [IsSound]
      | some key =>
        rw [hkey] at h
        obtain ⟨v, w, hget, hw, hsome⟩ := h
        obtain ⟨k, hk, -⟩ := mem_of_get? hget
        have hlt := weight_lt_of_get? hget
        rw [hsome]
        exact isSound_of_check hw (hv.2 (k, v) hk)
    · rw [entriesSound_iff]
      intro e hmem
      rw [Kept] at he
      split at he
      · obtain ⟨-, rfl⟩ := he
        obtain ⟨k, s, hk, -⟩ := mem_others hmem
        exact hv.2 (k, e.2) hk
      · subst he
        cases hmem
  | model => exact hv
  | @nodes _ _ items out hi ho =>
    have hitems : ∀ item ∈ items, IsSound item := by
      cases v with
      | list _ =>
        obtain rfl := Option.some.inj hi
        rwa [IsSound, areSound_iff] at hv
      | tuple _ =>
        obtain rfl := Option.some.inj hi
        rwa [IsSound, areSound_iff] at hv
      | _ => cases hi
    rw [IsSound, areSound_iff]
    intro w hw
    obtain ⟨item, hmem, h⟩ := exists_left_of_forall₂ ho hw
    have hlt := weight_lt_of_items? hi hmem
    exact isSound_of_check h (hitems item hmem)
termination_by v.weight

theorem validate_eq_ok_iff {kind : ModelKind} {v m : Value} :
    validate kind v = .ok m ↔ check nestingLimit (.model kind false) v = .ok m := by
  rw [validate]
  cases check nestingLimit (.model kind false) v <;> simp [Except.mapError]

end Model
end ViewDoc
