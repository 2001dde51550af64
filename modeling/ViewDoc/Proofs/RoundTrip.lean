import ViewDoc.Proofs.KeyedForms

/-!
Plain data that becomes a model and is written as plain data again.

Nothing is lost on the way and nothing is added, at any depth: only the entries of what is a model
come in another order, first the fields that are declared and then the others as they were. Data
that is in this order already is a fixed point.
-/

namespace ViewDoc

open List (Forall₂)

namespace Model

mutual

/-- Data without models: maps have texts as keys, each once. -/
def IsPlain : Value → Prop
  | .null | .bool _ | .int _ | .float _ | .text _ => True
  | .list items => ArePlain items
  | .map entries => Table.IsDistinct entries ∧ EntriesPlain entries
  | _ => False

def ArePlain : List Value → Prop
  | [] => True
  | v :: vs => IsPlain v ∧ ArePlain vs

def EntriesPlain : List (Value × Value) → Prop
  | [] => True
  | (k, v) :: rest => (∃ s, k = .text s) ∧ IsPlain v ∧ EntriesPlain rest

end

theorem arePlain_iff {vs : List Value} : ArePlain vs ↔ ∀ v ∈ vs, IsPlain v := by
  induction vs with
  | nil => simp [ArePlain]
  | cons v vs ih => rw [ArePlain, ih, List.forall_mem_cons]

theorem entriesPlain_iff {es : Entries} :
    EntriesPlain es ↔ ∀ e ∈ es, (∃ s, e.1 = .text s) ∧ IsPlain e.2 := by
  induction es with
  | nil => simp [EntriesPlain]
  | cons e es ih => rw [EntriesPlain, ih, List.forall_mem_cons, and_assoc]

mutual

theorem isSound_of_isPlain : ∀ v : Value, IsPlain v → IsSound v
  | .list items, h => by
    rw [IsPlain] at h
    rw [IsSound]
    exact areSound_of_arePlain items h
  | .map entries, h => by
    rw [IsPlain] at h
    rw [IsSound]
    exact ⟨h.1, entriesSound_of_entriesPlain entries h.2⟩
  | .null, _ | .bool _, _ | .int _, _ | .float _, _ | .text _, _ => by simp [IsSound]
  | .tuple _, h | .model .., h | .markup _, h | .date _, h | .dateTime _, h | .time _, h
  | .zone _, h | .function .., h | .object .., h | .rendered .., h => by
    simp [IsPlain] at h

theorem areSound_of_arePlain : ∀ vs : List Value, ArePlain vs → AreSound vs
  | [], _ => by simp [AreSound]
  | v :: vs, h => by
    rw [ArePlain] at h
    rw [AreSound]
    exact ⟨isSound_of_isPlain v h.1, areSound_of_arePlain vs h.2⟩

theorem entriesSound_of_entriesPlain :
    ∀ es : List (Value × Value), EntriesPlain es → EntriesSound es
  | [], _ => by simp [EntriesSound]
  | (_, v) :: rest, h => by
    rw [EntriesPlain] at h
    rw [EntriesSound]
    exact ⟨isSound_of_isPlain v h.2.1, entriesSound_of_entriesPlain rest h.2.2⟩

end

mutual

theorem isModelFree_of_isPlain : ∀ v : Value, IsPlain v → v.isModelFree = true
  | .list items, h => by
    rw [IsPlain] at h
    rw [Value.isModelFree]
    exact areModelFree_of_arePlain items h
  | .map entries, h => by
    rw [IsPlain] at h
    rw [Value.isModelFree]
    exact entriesModelFree_of_entriesPlain entries h.2
  | .null, _ | .bool _, _ | .int _, _ | .float _, _ | .text _, _ => by simp [Value.isModelFree]
  | .tuple _, h | .model .., h | .markup _, h | .date _, h | .dateTime _, h | .time _, h
  | .zone _, h | .function .., h | .object .., h | .rendered .., h => by
    simp [IsPlain] at h

theorem areModelFree_of_arePlain :
    ∀ vs : List Value, ArePlain vs → Value.areModelFree vs = true
  | [], _ => rfl
  | v :: vs, h => by
    rw [ArePlain] at h
    rw [Value.areModelFree, isModelFree_of_isPlain v h.1, areModelFree_of_arePlain vs h.2]
    rfl

theorem entriesModelFree_of_entriesPlain :
    ∀ es : List (Value × Value), EntriesPlain es → Value.entriesModelFree es = true
  | [], _ => rfl
  | (_, v) :: rest, h => by
    rw [EntriesPlain] at h
    rw [Value.entriesModelFree, isModelFree_of_isPlain v h.2.1,
      entriesModelFree_of_entriesPlain rest h.2.2]
    rfl

end

/-- With this much room, a value is written as another one. -/
structure WrittenAs (room : Nat) (v w : Value) : Prop where
  fits : overruns room v = false
  form : dump true room v = w

theorem writtenAs_of_isPlain (room : Nat) {v : Value} (h : IsPlain v) : WrittenAs room v v :=
  ⟨meets_of_isModelFree room v (isModelFree_of_isPlain v h),
    dump_of_isModelFree true room v (isModelFree_of_isPlain v h)⟩

theorem le_roomInside {kind : ModelKind} {room n : Nat} (h : room + 1 ≤ n) :
    room ≤ kind.roomInside n := by
  rw [ModelKind.roomInside]
  split <;> omega

/-- Whether a key is that of a declared field. -/
def isDeclared (kind : ModelKind) (key : Value) : Bool :=
  (declared kind).any fun f => key.text? == some f.key

/-- The entries of a model in order: declared fields as they are declared, then the others as they
come. -/
def ordered (kind : ModelKind) (entries : Entries) : Entries :=
  ((declared kind).filterMap fun f => (Table.get? entries f.key).map (.text f.key, ·)) ++
    entries.filter fun e => !isDeclared kind e.1

/-- The rule for what a key of a model holds. -/
def ruleOf (kind : ModelKind) (key : Value) : Rule :=
  ((declared kind).find? fun f => key.text? == some f.key).elim .any (·.rule)

mutual

/-- Puts the entries of what has to be a model in order, and of the models inside it. -/
def arranged : Rule → Value → Value
  | .model kind _, .map entries => .map (ordered kind (arrangedEntries kind entries))
  | .optionalNodes, .list items => .list (arrangedItems items)
  | _, v => v

def arrangedEntries (kind : ModelKind) : List (Value × Value) → List (Value × Value)
  | [] => []
  | (k, v) :: rest => (k, arranged (ruleOf kind k) v) :: arrangedEntries kind rest

def arrangedItems : List Value → List Value
  | [] => []
  | v :: vs => arranged (.model .node false) v :: arrangedItems vs

end

/-- Fields are written under their keys. -/
def WritesKeys (kind : ModelKind) (entries : Entries) : Prop :=
  ∀ f ∈ declared kind, Table.contains entries (.text f.name) = true →
    Table.contains entries (.text f.key) = true

mutual

/-- What has to be a model writes its fields under their keys, and a selector nothing else; so do
the models inside it. -/
def IsKeyed : Rule → Value → Prop
  | .model kind _, .map entries =>
    WritesKeys kind entries ∧
      (isOpen kind = false → ∀ e ∈ entries, isDeclared kind e.1 = true) ∧
      EntriesKeyed kind entries
  | .optionalNodes, .list items => AreKeyed items
  | _, _ => True

def EntriesKeyed (kind : ModelKind) : List (Value × Value) → Prop
  | [] => True
  | (k, v) :: rest => IsKeyed (ruleOf kind k) v ∧ EntriesKeyed kind rest

def AreKeyed : List Value → Prop
  | [] => True
  | v :: vs => IsKeyed (.model .node false) v ∧ AreKeyed vs

end

mutual

/-- The same data, but for the order of entries, at every level. -/
inductive SameData : Value → Value → Prop
  | refl (v : Value) : SameData v v
  | list {vs ws : List Value} : SameItems vs ws → SameData (.list vs) (.list ws)
  | map {es fs gs : Entries} : SameEntries es fs → fs.Perm gs → SameData (.map es) (.map gs)

inductive SameItems : List Value → List Value → Prop
  | nil : SameItems [] []
  | cons {v w : Value} {vs ws : List Value} : SameData v w → SameItems vs ws →
      SameItems (v :: vs) (w :: ws)

/-- The same keys in the same order, over the same data. -/
inductive SameEntries : Entries → Entries → Prop
  | nil : SameEntries [] []
  | cons {k v w : Value} {es fs : Entries} : SameData v w → SameEntries es fs →
      SameEntries ((k, v) :: es) ((k, w) :: fs)

end

/-- Texts are the only keys. -/
def HasTextKeys (entries : Entries) : Prop := ∀ e ∈ entries, ∃ s, e.1 = .text s

theorem isDistinct_iff_nodup {es : Entries} (h : HasTextKeys es) :
    Table.IsDistinct es ↔ es.keys.Nodup := by
  rw [Table.isDistinct_iff]
  apply List.Pairwise.iff_of_mem
  intro a b ha hb
  obtain ⟨e, he, rfl⟩ := List.mem_map.1 ha
  obtain ⟨d, hd, rfl⟩ := List.mem_map.1 hb
  obtain ⟨s, hs⟩ := h e he
  obtain ⟨t, ht⟩ := h d hd
  rw [hs, ht, Value.equal_text, beq_eq_false_iff_ne, ne_eq, ne_eq, Value.text.injEq, eq_comm]

theorem isDeclared_iff {kind : ModelKind} {key : Value} :
    isDeclared kind key = true ↔ ∃ f ∈ declared kind, key.text? = some f.key := by
  rw [isDeclared, List.any_eq_true]
  simp only [beq_iff_eq]

theorem ruleOf_of_text? {kind : ModelKind} {f : Field} (hf : f ∈ declared kind) {key : Value}
    (hkey : key.text? = some f.key) : ruleOf kind key = f.rule := by
  rw [ruleOf]
  cases hfind : (declared kind).find? (fun g => key.text? == some g.key) with
  | none => exact absurd (beq_iff_eq.2 hkey) (List.find?_eq_none.1 hfind f hf)
  | some g =>
    have hg := List.find?_some hfind
    rw [beq_iff_eq] at hg
    have hsame : g.key = f.key := Option.some.inj (hg.symm.trans hkey)
    rw [eq_of_key_eq (List.mem_of_find?_eq_some hfind) hf hsame]
    rfl

theorem ruleOf_of_not_declared {kind : ModelKind} {key : Value}
    (h : isDeclared kind key = false) : ruleOf kind key = .any := by
  have hnone : (declared kind).find? (fun f => key.text? == some f.key) = none := by
    rw [List.find?_eq_none]
    exact fun f hf hkey => List.any_eq_false.1 h f hf hkey
  rw [ruleOf, hnone]
  rfl

theorem arranged_any (v : Value) : arranged .any v = v := by simp [arranged]

theorem keys_arrangedEntries (kind : ModelKind) (es : Entries) :
    Table.keys (arrangedEntries kind es) = es.keys := by
  induction es with
  | nil => rfl
  | cons e es ih =>
    obtain ⟨k, v⟩ := e
    exact congrArg (k :: ·) ih

theorem get?_arrangedEntries {kind : ModelKind} {f : Field} (hf : f ∈ declared kind)
    (es : Entries) : Table.get? (arrangedEntries kind es) f.key =
      (Table.get? es f.key).map (arranged f.rule) := by
  induction es with
  | nil => rfl
  | cons e es ih =>
    obtain ⟨k, v⟩ := e
    rw [Table.get?, Table.find?] at ih
    rw [arrangedEntries, Table.get?, Table.find?, Table.get?, Table.find?, List.find?_cons,
      List.find?_cons]
    cases hk : k.equal (.text f.key) with
    | false => exact ih
    | true =>
      have hrule := ruleOf_of_text? hf (Value.equal_text_iff.1 hk)
      simp [hrule]

theorem filter_arrangedEntries (kind : ModelKind) (es : Entries) :
    (arrangedEntries kind es).filter (fun e => !isDeclared kind e.1) =
      es.filter fun e => !isDeclared kind e.1 := by
  induction es with
  | nil => rfl
  | cons e es ih =>
    obtain ⟨k, v⟩ := e
    rw [arrangedEntries, List.filter_cons, List.filter_cons, ih]
    cases hk : isDeclared kind k with
    | true => rfl
    | false =>
      rw [ruleOf_of_not_declared hk, arranged_any]

theorem arrangedItems_eq_map (vs : List Value) :
    arrangedItems vs = vs.map (arranged (.model .node false)) := by
  induction vs with
  | nil => rfl
  | cons v vs ih => rw [arrangedItems, ih, List.map_cons]

theorem hasTextKeys_of_keys {es fs : Entries} (h : fs.keys = es.keys) (hes : HasTextKeys es) :
    HasTextKeys fs := by
  intro e he
  have hmem : e.1 ∈ es.keys := h ▸ List.mem_map_of_mem he
  obtain ⟨d, hd, hkey⟩ := List.mem_map.1 hmem
  rw [← hkey]
  exact hes d hd

theorem text_of_text? {k : Value} {s t : String} (hk : k = .text s) (h : k.text? = some t) :
    k = .text t := by
  subst hk
  exact congrArg _ (Option.some.inj h)

/-- Ordering entries loses none and adds none. -/
theorem perm_ordered (kind : ModelKind) {es : Entries} (htext : HasTextKeys es)
    (hdistinct : Table.IsDistinct es) : es.Perm (ordered kind es) := by
  have hnodup : es.Nodup := List.Nodup.of_map _ ((isDistinct_iff_nodup htext).1 hdistinct)
  have hdeclared : (es.filter fun e => isDeclared kind e.1).Perm
      ((declared kind).filterMap fun f =>
        (Table.get? es f.key).map (Value.text f.key, ·)) := by
    have hfront : ((declared kind).filterMap fun f =>
        (Table.get? es f.key).map (Value.text f.key, ·)).Nodup := by
      refine List.pairwise_filterMap.2 ((pairwise_declared kind).imp ?_)
      intro f g hapart x hx y hy hsame
      obtain ⟨v, -, rfl⟩ := Option.map_eq_some_iff.1 hx
      obtain ⟨w, -, rfl⟩ := Option.map_eq_some_iff.1 hy
      exact hapart.1 (Value.text.inj (congrArg Prod.fst hsame))
    rw [List.perm_ext_iff_of_nodup (hnodup.filter _) hfront]
    intro e
    rw [List.mem_filter, isDeclared_iff, List.mem_filterMap]
    constructor
    · intro h
      obtain ⟨he, f, hf, hkey⟩ := h
      obtain ⟨s, hs⟩ := htext e he
      refine ⟨f, hf, ?_⟩
      rw [Table.get?_of_mem hdistinct he hkey, Option.map_some, ← text_of_text? hs hkey]
    · intro h
      obtain ⟨f, hf, h⟩ := h
      obtain ⟨v, hv, rfl⟩ := Option.map_eq_some_iff.1 h
      obtain ⟨k, hk, hkey⟩ := mem_of_get? hv
      obtain ⟨s, hs⟩ := htext _ hk
      rw [← text_of_text? hs hkey]
      exact ⟨hk, f, hf, hkey⟩
  have hparts := List.filter_append_perm (fun e : Value × Value => isDeclared kind e.1) es
  exact hparts.symm.trans (hdeclared.append_right _)

theorem hasTextKeys_of_perm {es fs : Entries} (h : es.Perm fs) (hes : HasTextKeys es) :
    HasTextKeys fs := fun e he => hes e (h.mem_iff.2 he)

theorem isDistinct_of_perm {es fs : Entries} (h : es.Perm fs) (htext : HasTextKeys es)
    (hdistinct : Table.IsDistinct es) : Table.IsDistinct fs := by
  rw [isDistinct_iff_nodup (hasTextKeys_of_perm h htext)]
  exact (h.map Prod.fst).nodup ((isDistinct_iff_nodup htext).1 hdistinct)

/-- What a name holds does not depend on the order of the entries. -/
theorem get?_of_perm {es fs : Entries} (h : es.Perm fs) (htext : HasTextKeys es)
    (hdistinct : Table.IsDistinct es) (name : String) :
    Table.get? fs name = Table.get? es name := by
  cases hv : Table.get? es name with
  | some v =>
    obtain ⟨k, hk, hkey⟩ := mem_of_get? hv
    exact Table.get?_of_mem (isDistinct_of_perm h htext hdistinct) (h.mem_iff.1 hk) hkey
  | none =>
    rw [Table.get?_eq_none_iff] at hv ⊢
    exact fun e he => hv e (h.mem_iff.2 he)

theorem keyIn?_of_writesKeys {kind : ModelKind} {es : Entries} (h : WritesKeys kind es) {f : Field}
    (hf : f ∈ declared kind) :
    f.keyIn? es = (Table.get? es f.key).map fun _ => f.key := by
  rw [Field.keyIn?]
  cases hkey : Table.contains es (.text f.key) with
  | true =>
    rw [Table.contains_text, Option.isSome_iff_exists] at hkey
    obtain ⟨v, hv⟩ := hkey
    rw [hv]
    rfl
  | false =>
    have hname : Table.contains es (.text f.name) = false := by
      apply Bool.eq_false_iff.2
      intro hname
      rw [h f hf hname] at hkey
      cases hkey
    rw [Table.contains_text, Option.isSome_eq_false_iff, Option.isNone_iff_eq_none] at hkey
    rw [hname, hkey]
    rfl

/-- Where fields are written under their keys, what no field takes is what is not declared. -/
theorem others_supplied {kind : ModelKind} {es : Entries} (htext : HasTextKeys es)
    (h : WritesKeys kind es) : others ((supplied kind es).map (·.1)) es =
      es.filter fun e => !isDeclared kind e.1 := by
  rw [others, ← List.filterMap_eq_filter]
  apply List.filterMap_congr
  intro e he
  obtain ⟨s, hs⟩ := htext e he
  have hused : ((supplied kind es).map (·.1)).contains s = isDeclared kind e.1 := by
    rw [Bool.eq_iff_iff, List.contains_iff_mem, isDeclared_iff, hs]
    constructor
    · intro hmem
      obtain ⟨⟨key, f⟩, hsupplied, rfl⟩ := List.mem_map.1 hmem
      obtain ⟨g, hg, hsome⟩ := List.mem_filterMap.1 hsupplied
      obtain ⟨key, hkey, hpair⟩ := Option.map_eq_some_iff.1 hsome
      obtain ⟨rfl, rfl⟩ := Prod.mk.inj hpair
      rw [keyIn?_of_writesKeys h hg] at hkey
      obtain ⟨v, -, hkey⟩ := Option.map_eq_some_iff.1 hkey
      exact ⟨g, hg, congrArg some hkey.symm⟩
    · intro hdeclared
      obtain ⟨f, hf, hkey⟩ := hdeclared
      obtain rfl : s = f.key := Option.some.inj hkey
      apply mem_used hf
      have hcontains : Table.contains es (.text f.key) = true :=
        List.any_eq_true.2 ⟨e, he, by rw [hs]; simp⟩
      rw [Field.keyIn?, if_pos hcontains]
  obtain ⟨k, v⟩ := e
  obtain rfl : k = .text s := hs
  simp only [Value.text?, Option.bind_some, hused, Option.guard]
  by_cases hdeclared : isDeclared kind (.text s) = true <;> simp [hdeclared]

/-- The same entries in other places, each with what its field makes of it. -/
structure Rewrites (kind : ModelKind) (es fs : Entries) : Prop where
  texts : HasTextKeys fs
  writes : WritesKeys kind fs
  fields : ∀ f ∈ declared kind, Table.get? fs f.key = (Table.get? es f.key).map (arranged f.rule)
  rest : fs.filter (fun e => !isDeclared kind e.1) = es.filter fun e => !isDeclared kind e.1

theorem filter_ordered (kind : ModelKind) (es : Entries) :
    (ordered kind es).filter (fun e => !isDeclared kind e.1) =
      es.filter fun e => !isDeclared kind e.1 := by
  have hfront : ((declared kind).filterMap fun f =>
      (Table.get? es f.key).map (Value.text f.key, ·)).filter (fun e => !isDeclared kind e.1) =
        [] := by
    rw [List.filter_eq_nil_iff]
    intro e he
    obtain ⟨f, hf, hsome⟩ := List.mem_filterMap.1 he
    obtain ⟨v, -, rfl⟩ := Option.map_eq_some_iff.1 hsome
    have hdeclared : isDeclared kind (.text f.key) = true := isDeclared_iff.2 ⟨f, hf, rfl⟩
    simp [hdeclared]
  rw [ordered, List.filter_append, hfront, List.nil_append, List.filter_filter]
  simp only [Bool.and_self]

theorem rewrites_ordered {kind : ModelKind} {es : Entries} (htext : HasTextKeys es)
    (hdistinct : Table.IsDistinct es) (hkeys : WritesKeys kind es) :
    Rewrites kind es (ordered kind (arrangedEntries kind es)) := by
  have hsame := keys_arrangedEntries kind es
  have htext' := hasTextKeys_of_keys hsame htext
  have hdistinct' : Table.IsDistinct (arrangedEntries kind es) := by
    rw [Table.isDistinct_iff, hsame]
    exact Table.isDistinct_iff.1 hdistinct
  have hperm := perm_ordered kind htext' hdistinct'
  have hcontains (name : String) :
      Table.contains (ordered kind (arrangedEntries kind es)) (.text name) =
        Table.contains es (.text name) := by
    rw [Table.contains_text, get?_of_perm hperm htext' hdistinct', ← Table.contains_text,
      Table.contains_eq_any_keys, hsame, Table.contains_eq_any_keys]
  constructor
  · exact hasTextKeys_of_perm hperm htext'
  · intro f hf hname
    rw [hcontains] at hname ⊢
    exact hkeys f hf hname
  · intro f hf
    rw [get?_of_perm hperm htext' hdistinct', get?_arrangedEntries hf]
  · rw [filter_ordered, filter_arrangedEntries]

theorem taken_of_rewrites {room : Nat} {kind : ModelKind} {es fs : Entries}
    (hr : Rewrites kind es fs) (hkeys : WritesKeys kind es) {f : Field} (hf : f ∈ declared kind)
    (hcheck : ∀ v w, Table.get? es f.key = some v → check room f.rule v = .ok w →
      check room f.rule (arranged f.rule v) = .ok w) {t : String × Option Value}
    (h : Taken room es f t) : Taken room fs f t := by
  refine ⟨h.1, ?_⟩
  have h := h.2
  rw [keyIn?_of_writesKeys hr.writes hf, hr.fields f hf]
  rw [keyIn?_of_writesKeys hkeys hf] at h
  cases hv : Table.get? es f.key with
  | none =>
    rw [hv] at h
    exact h
  | some v =>
    rw [hv] at h
    obtain ⟨v', w, hv', hw, ht⟩ := h
    obtain rfl := Option.some.inj (hv.symm.trans hv')
    refine ⟨arranged f.rule v, w, ?_, hcheck v w hv hw, ht⟩
    rw [hr.fields f hf, hv]
    rfl

theorem kept_of_rewrites {kind : ModelKind} {es fs extra : Entries} (hr : Rewrites kind es fs)
    (htext : HasTextKeys es) (hkeys : WritesKeys kind es) (h : Kept kind es extra) :
    Kept kind fs extra := by
  rw [Kept] at h ⊢
  split
  · rename_i hopen
    rw [if_pos hopen, others_supplied htext hkeys] at h
    rw [others_supplied hr.texts hr.writes, hr.rest]
    refine ⟨?_, h.2⟩
    intro e he
    obtain ⟨s, hs⟩ := hr.texts e he
    rw [hs]
    rfl
  · rename_i hclosed
    rw [if_neg hclosed] at h
    exact h

/-- The fields that were taken, in plain form, are those of the entries in order. -/
theorem givenEntries_of_taken {room inside : Nat} {kind : ModelKind} {es : Entries}
    (hkeys : WritesKeys kind es) {fields : List Field} (hf : ∀ f ∈ fields, f ∈ declared kind)
    (hdump : ∀ f ∈ fields, ∀ v w, Table.get? es f.key = some v → check room f.rule v = .ok w →
      dump true (inside + f.rule.depth) w = arranged f.rule v)
    {taken : List (String × Option Value)}
    (h : Forall₂ (Taken room es) fields taken) : givenEntries true kind inside taken =
      fields.filterMap fun f =>
        (Table.get? (arrangedEntries kind es) f.key).map (Value.text f.key, ·) := by
  induction h with
  | nil => rfl
  | @cons f t fields taken ht _ ih =>
    have ih := ih (fun g hg => hf g (List.mem_cons_of_mem _ hg))
      (fun g hg => hdump g (List.mem_cons_of_mem _ hg))
    have hmem := hf f List.mem_cons_self
    obtain ⟨name, o⟩ := t
    obtain ⟨rfl, h⟩ := ht
    rw [keyIn?_of_writesKeys hkeys hmem] at h
    have hhere : o.map (fun v => (Value.text (keyOf kind f.name),
          dump true (inside + depthOf kind f.name) v)) =
        (Table.get? (arrangedEntries kind es) f.key).map (Value.text f.key, ·) := by
      rw [get?_arrangedEntries hmem, keyOf_name hmem, depthOf_name hmem]
      cases hv : Table.get? es f.key with
      | none =>
        rw [hv] at h
        obtain rfl : o = none := h.2
        rfl
      | some v =>
        rw [hv] at h
        obtain ⟨v', w, hv', hw, hsome⟩ := h
        obtain rfl := Option.some.inj (hv.symm.trans hv')
        obtain rfl : o = some w := hsome
        rw [Option.map_some, Option.map_some, Option.map_some,
          hdump f List.mem_cons_self v w hv hw]
    rw [givenEntries] at ih ⊢
    rw [List.filterMap_cons, List.filterMap_cons, ih]
    simp only [if_pos]
    rw [hhere]

theorem entriesKeyed_iff {kind : ModelKind} {es : Entries} :
    EntriesKeyed kind es ↔ ∀ e ∈ es, IsKeyed (ruleOf kind e.1) e.2 := by
  induction es with
  | nil => simp [EntriesKeyed]
  | cons e es ih => rw [EntriesKeyed, ih, List.forall_mem_cons]

theorem areKeyed_iff {vs : List Value} :
    AreKeyed vs ↔ ∀ v ∈ vs, IsKeyed (.model .node false) v := by
  induction vs with
  | nil => simp [AreKeyed]
  | cons v vs ih => rw [AreKeyed, ih, List.forall_mem_cons]

/-- What is left of plain entries is plain, and it is what is not declared. -/
theorem entriesPlain_of_kept {kind : ModelKind} {es extra : Entries} (hp : EntriesPlain es)
    (hkeys : WritesKeys kind es)
    (hclosed : isOpen kind = false → ∀ e ∈ es, isDeclared kind e.1 = true)
    (h : Kept kind es extra) :
    EntriesPlain extra ∧ extra = es.filter fun e => !isDeclared kind e.1 := by
  have htext : HasTextKeys es := fun e he => (entriesPlain_iff.1 hp e he).1
  rw [Kept] at h
  split at h
  · obtain ⟨-, rfl⟩ := h
    rw [others_supplied htext hkeys, entriesPlain_iff]
    exact ⟨fun e he => entriesPlain_iff.1 hp e (List.mem_of_mem_filter he), rfl⟩
  · rename_i hno
    subst h
    refine ⟨by simp [EntriesPlain], ?_⟩
    rw [eq_comm, List.filter_eq_nil_iff]
    intro e he
    rw [hclosed (Bool.eq_false_iff.2 hno) e he]
    simp

theorem eq_text_of_isPlain {v : Value} {s : String} (hp : IsPlain v) (h : v.text? = some s) :
    v = .text s := by
  cases v with
  | text t => exact congrArg _ (Option.some.inj h)
  | markup t => simp [IsPlain] at hp
  | _ => cases h

theorem arranged_null (rule : Rule) : arranged rule .null = .null := by
  cases rule <;> rfl

theorem arranged_text (rule : Rule) (s : String) : arranged rule (.text s) = .text s := by
  cases rule <;> rfl

theorem others_nil {es : Entries} (htext : HasTextKeys es) : others [] es = es := by
  rw [others]
  have hall : ∀ e ∈ es, (e.1.text?.bind fun s =>
      if ([] : List String).contains s then none else some (Value.text s, e.2)) = some e := by
    intro e he
    obtain ⟨s, hs⟩ := htext e he
    obtain ⟨k, v⟩ := e
    obtain rfl : k = .text s := hs
    rfl
  rw [List.filterMap_congr hall, List.filterMap_some]

/-- The step of `arranged_of_check` for data that becomes a model, given what it says of the data in
the fields. -/
theorem arranged_of_made {room : Nat} {kind : ModelKind} {nullable : Bool}
    {entries extra : Entries} {taken : List (String × Option Value)}
    (hp : IsPlain (.map entries)) (hk : IsKeyed (.model kind nullable) (.map entries))
    (ht : Forall₂ (Taken room entries) (declared kind) taken) (he : Kept kind entries extra)
    (hfield : ∀ f ∈ declared kind, ∀ v w, Table.get? entries f.key = some v →
      check room f.rule v = .ok w →
        (∀ n, room ≤ n → WrittenAs (n + f.rule.depth) w (arranged f.rule v)) ∧
          check room f.rule (arranged f.rule v) = .ok w) :
    (∀ n, room + 1 ≤ n → WrittenAs (n + 1) (ofFields kind taken extra)
        (arranged (.model kind nullable) (.map entries))) ∧
      check (room + 1) (.model kind nullable) (arranged (.model kind nullable) (.map entries)) =
        .ok (ofFields kind taken extra) := by
  rw [IsPlain] at hp
  rw [IsKeyed] at hk
  obtain ⟨hdistinct, hplain⟩ := hp
  obtain ⟨hkeys, hclosed, -⟩ := hk
  have htext : HasTextKeys entries := fun e he => (entriesPlain_iff.1 hplain e he).1
  have hr := rewrites_ordered htext hdistinct hkeys
  have hform := ht.imp fun _ _ => hasForm_of_taken
  obtain ⟨hrest, hothers⟩ := entriesPlain_of_kept hplain hkeys hclosed he
  have hfree := entriesModelFree_of_entriesPlain extra hrest
  rw [arranged]
  constructor
  · intro n hn
    have hinside : room ≤ kind.roomInside n := le_roomInside hn
    constructor
    · refine (meets_ofFields_eq_false_iff hform n extra).2 ⟨?_, ?_, ?_⟩
      · have hne : (n == 0) = false := beq_eq_false_iff_ne.2 (by omega)
        rw [hne, Bool.and_false]
      · intro t hmem w hw
        obtain ⟨f, hf, hname, htaken⟩ := exists_left_of_forall₂ ht hmem
        rw [keyIn?_of_writesKeys hkeys hf] at htaken
        cases hv : Table.get? entries f.key with
        | none =>
          rw [hv] at htaken
          rw [htaken.2] at hw
          cases hw
        | some v =>
          rw [hv] at htaken
          obtain ⟨v', w', hv', hcheck, hsome⟩ := htaken
          obtain rfl := Option.some.inj (hsome.symm.trans hw)
          rw [hname, depthOf_name hf]
          exact ((hfield f hf v' _ hv' hcheck).1 _ hinside).fits
      · intro e hmem
        exact meets_of_isModelFree _ e.2 (Value.isModelFree_of_mem hfree hmem)
    · have hgiven := givenEntries_of_taken hkeys (fun f hf => hf)
        (fun f hf v w hv hw => ((hfield f hf v w hv hw).1 _ hinside).form) ht
      rw [dump_of_isFormed hform (isApart_of_kept hdistinct ht he), hgiven,
        dumpEntries_of_entriesModelFree true _ extra hfree, hothers, ordered,
        filter_arrangedEntries]
  · have htaken : Forall₂ (Taken room (ordered kind (arrangedEntries kind entries)))
        (declared kind) taken := by
      have hboth := (List.forall₂_and_left (declared kind) taken).2 ⟨fun f hf => hf, ht⟩
      refine hboth.imp ?_
      intro f t h
      obtain ⟨hf, htaken⟩ := h
      have hcheck : ∀ v w, Table.get? entries f.key = some v → check room f.rule v = .ok w →
          check room f.rule (arranged f.rule v) = .ok w :=
        fun v w hv hw => (hfield f hf v w hv hw).2
      exact taken_of_rewrites hr hkeys hf hcheck htaken
    exact check_of_passes (.made htaken (kept_of_rewrites hr htext hkeys he))

/-- The same step for a list of nodes. -/
theorem arranged_of_nodes {room : Nat} {items out : List Value}
    (hitems : Forall₂ (fun v w =>
      (∀ n, room ≤ n → WrittenAs (n + 1) w (arranged (.model .node false) v)) ∧
        check room (.model .node false) (arranged (.model .node false) v) = .ok w) items out) :
    (∀ n, room ≤ n → WrittenAs (n + 2) (.list out) (arranged .optionalNodes (.list items))) ∧
      check room .optionalNodes (arranged .optionalNodes (.list items)) = .ok (.list out) := by
  rw [arranged, arrangedItems_eq_map]
  constructor
  · intro n hn
    have hwritten := hitems.imp fun _ _ h => h.1 n hn
    constructor
    · rw [overruns, meets, meetsAny_eq_false_iff]
      intro w hw
      obtain ⟨v, -, h⟩ := exists_left_of_forall₂ hwritten hw
      exact h.fits
    · have hsame : Forall₂ (· = ·) (out.map (dump true (n + 1)))
          (items.map (arranged (.model .node false))) := by
        rw [List.forall₂_map_left_iff, List.forall₂_map_right_iff]
        exact (hwritten.imp fun _ _ h => h.form).flip
      rw [List.forall₂_eq_eq_eq] at hsame
      rw [dump, dumpAll_eq_map, hsame]
  · apply check_of_passes
    exact .nodes rfl (List.forall₂_map_left_iff.2 (hitems.imp fun _ _ h => h.2))

/-- The model that plain data becomes has that data as its plain form, put in order, with no more
room than it took to make it; and it is made of this plain form again. -/
theorem arranged_of_check {room : Nat} {rule : Rule} {v w : Value}
    (h : check room rule v = .ok w) (hp : IsPlain v) (hk : IsKeyed rule v) :
    (∀ n, room ≤ n → WrittenAs (n + rule.depth) w (arranged rule v)) ∧
      check room rule (arranged rule v) = .ok w := by
  cases passes_of_check h with
  | any =>
    rw [arranged_any]
    exact ⟨fun n _ => writtenAs_of_isPlain _ hp, h⟩
  | null hnull =>
    rw [arranged_null]
    exact ⟨fun n _ => writtenAs_of_isPlain _ hp, h⟩
  | text hs | optionalText hs | format hs =>
    obtain rfl := eq_text_of_isPlain hp hs
    rw [arranged_text]
    exact ⟨fun n _ => writtenAs_of_isPlain _ hp, h⟩
  | @map _ entries ht =>
    rw [IsPlain] at hp
    have htext : HasTextKeys entries := fun e he => (entriesPlain_iff.1 hp.2 e he).1
    have harranged : arranged .optionalMap (.map entries) = .map entries := by simp [arranged]
    rw [harranged, others_nil htext]
    rw [others_nil htext] at h
    rw [← IsPlain] at hp
    exact ⟨fun n _ => writtenAs_of_isPlain _ hp, h⟩
  | @made room kind _ entries extra taken ht he =>
    refine arranged_of_made hp hk ht he ?_
    intro f hf v w hv hw
    rw [IsPlain] at hp
    rw [IsKeyed] at hk
    obtain ⟨k, hmem, hkey⟩ := mem_of_get? hv
    have hlt := weight_lt_of_get? hv
    have hkeyed := entriesKeyed_iff.1 hk.2.2 (k, v) hmem
    rw [ruleOf_of_text? hf hkey] at hkeyed
    exact arranged_of_check hw (entriesPlain_iff.1 hp.2 (k, v) hmem).2 hkeyed
  | model => simp [IsPlain] at hp
  | @nodes _ _ items out hi ho =>
    cases v with
    | list items =>
      obtain rfl := Option.some.inj hi
      rw [IsPlain, arePlain_iff] at hp
      rw [IsKeyed, areKeyed_iff] at hk
      have hboth := (List.forall₂_and_left items out).2 ⟨fun v hv => hv, ho⟩
      refine arranged_of_nodes (hboth.imp ?_)
      intro v w h
      obtain ⟨hmem, hw⟩ := h
      have hlt := weight_lt_of_items? hi hmem
      exact arranged_of_check hw (hp v hmem) (hk v hmem)
    | _ => simp [IsPlain, Value.items?] at hp hi
termination_by v.weight

theorem sameEntries_arrangedEntries {kind : ModelKind} {es : Entries}
    (h : ∀ e ∈ es, SameData e.2 (arranged (ruleOf kind e.1) e.2)) :
    SameEntries es (arrangedEntries kind es) := by
  induction es with
  | nil => exact .nil
  | cons e es ih =>
    obtain ⟨he, hes⟩ := List.forall_mem_cons.1 h
    exact .cons he (ih hes)

theorem sameItems_arrangedItems {vs : List Value}
    (h : ∀ v ∈ vs, SameData v (arranged (.model .node false) v)) :
    SameItems vs (arrangedItems vs) := by
  induction vs with
  | nil => exact .nil
  | cons v vs ih =>
    obtain ⟨hv, hvs⟩ := List.forall_mem_cons.1 h
    exact .cons hv (ih hvs)

/-- Arranging data changes nothing but the order of entries. -/
theorem sameData_arranged (rule : Rule) {v : Value} (h : IsPlain v) :
    SameData v (arranged rule v) := by
  cases v with
  | map entries =>
    cases rule with
    | model kind nullable =>
      rw [IsPlain, entriesPlain_iff] at h
      rw [arranged]
      have hkeys := keys_arrangedEntries kind entries
      have htext : HasTextKeys entries := fun e he => (h.2 e he).1
      have hdistinct : Table.IsDistinct (arrangedEntries kind entries) := by
        rw [Table.isDistinct_iff, hkeys]
        exact Table.isDistinct_iff.1 h.1
      refine .map (sameEntries_arrangedEntries ?_)
        (perm_ordered kind (hasTextKeys_of_keys hkeys htext) hdistinct)
      intro e he
      have hle := Value.weight_le_entriesWeight he
      have hlt : e.2.weight < (Value.map entries).weight := by
        rw [Value.weight]
        omega
      exact sameData_arranged (ruleOf kind e.1) (h.2 e he).2
    | _ => exact .refl _
  | list items =>
    cases rule with
    | optionalNodes =>
      rw [IsPlain, arePlain_iff] at h
      rw [arranged]
      refine .list (sameItems_arrangedItems ?_)
      intro v hv
      have hlt : v.weight < (Value.list items).weight := weight_lt_of_items? rfl hv
      exact sameData_arranged (.model .node false) (h v hv)
    | _ => exact .refl _
  | _ => cases rule <;> exact .refl _
termination_by v.weight

theorem isSplit_of_check {room : Nat} {kind : ModelKind} {nullable : Bool} {v m : Value}
    (h : check room (.model kind nullable) v = .ok m) (hp : IsPlain v) : isSplit m = false := by
  cases passes_of_check h with
  | null hnull => rfl
  | @made room _ _ entries extra taken ht he =>
    cases kind with
    | action => rfl
    | node => rfl
    | selector =>
      rw [IsPlain, entriesPlain_iff] at hp
      obtain rfl : extra = [] := he
      have hform := ht.imp fun _ _ => hasForm_of_taken
      change hasFollowUp (nestingLimit + 1) (ofFields .selector taken []) = false
      rw [hasFollowUp, meets_ofFields_eq_false_iff hform]
      refine ⟨rfl, ?_, List.forall_mem_nil _⟩
      intro t hmem w hw
      obtain ⟨f, hf, -, h⟩ := exists_left_of_forall₂ ht hmem
      cases hkey : f.keyIn? entries with
      | none =>
        rw [hkey] at h
        rw [h.2] at hw
        cases hw
      | some key =>
        rw [hkey] at h
        obtain ⟨v, w', hv, hcheck, hsome⟩ := h
        obtain rfl := Option.some.inj (hsome.symm.trans hw)
        obtain ⟨k, hk, -⟩ := mem_of_get? hv
        have hfree := isModelFree_of_isPlain v (hp.2 (k, v) hk).2
        exact meets_of_isModelFree _ _ (isModelFree_of_check hf hcheck hfree)
  | model => simp [IsPlain] at hp

/-- Plain data that becomes a model comes back as plain data: the same at every level, with the
entries of each model in order, so that it becomes the same model again. -/
theorem toWire_of_validate {kind : ModelKind} {entries : Entries} {m : Value}
    (hp : IsPlain (.map entries)) (hk : IsKeyed (.model kind false) (.map entries))
    (h : validate kind (.map entries) = .ok m) :
    toWire m = .ok (arranged (.model kind false) (.map entries)) ∧
      SameData (.map entries) (arranged (.model kind false) (.map entries)) ∧
      validate kind (arranged (.model kind false) (.map entries)) = .ok m := by
  rw [validate_eq_ok_iff] at h ⊢
  obtain ⟨hwritten, hagain⟩ := arranged_of_check h hp hk
  have hsound : IsSound m := isSound_of_check h (isSound_of_isPlain _ hp)
  have hmodel : m.isModel = true := by
    cases passes_of_check h with
    | made ht he => rfl
  have hplain := hwritten nestingLimit (Nat.le_refl _)
  have hwire : m.wire = .ok (arranged (.model kind false) (.map entries)) := by
    rw [Value.wire_of_isModel hmodel]
    exact plain_eq_ok_iff.2 ⟨hplain.fits, hplain.form⟩
  obtain ⟨w, hw, hsame⟩ := exists_toWire hsound hmodel hwire
  rw [hw, hsame.2 (isSplit_of_check h hp)]
  exact ⟨rfl, sameData_arranged _ hp, hagain⟩

/-- A node whose type comes last, with a child and a style that is null. -/
theorem toWire_of_validate_page :
    let child : Value := .map [(.text "name", .text "star"), (.text "type", .text "Icon")]
    let page : Value := .map [(.text "title", .list [.int 1, .null]),
      (.text "children", .list [child]), (.text "style", .null), (.text "type", .text "Box")]
    let inOrder : Value := .map [(.text "type", .text "Box"), (.text "style", .null),
      (.text "children", .list [.map [(.text "type", .text "Icon"), (.text "name", .text "star")]]),
      (.text "title", .list [.int 1, .null])]
    IsPlain page ∧ IsKeyed (.model .node false) page ∧ ∃ m, validate .node page = .ok m ∧
      toWire m = .ok inOrder ∧ SameData page inOrder ∧ validate .node inOrder = .ok m := by
  intro child page inOrder
  have hp : IsPlain page := by
    simp [page, child, IsPlain, ArePlain, EntriesPlain, Table.IsDistinct]
  have hkeys (es : Entries) : WritesKeys .node es := by
    intro f hf hname
    rw [key_eq_name hf (by simp)]
    exact hname
  have hopen (es : Entries) : isOpen .node = false → ∀ e ∈ es, isDeclared .node e.1 = true := by
    intro hclosed
    cases hclosed
  have hchild : IsKeyed (.model .node false) child :=
    ⟨hkeys _, hopen _, trivial, trivial, trivial⟩
  have hk : IsKeyed (.model .node false) page :=
    ⟨hkeys _, hopen _, trivial, ⟨hchild, trivial⟩, trivial, trivial, trivial⟩
  obtain ⟨m, hm⟩ : ∃ m, validate .node page = .ok m := ⟨_, rfl⟩
  have harranged : arranged (.model .node false) page = inOrder := by rfl
  refine ⟨hp, hk, m, hm, ?_⟩
  rw [← harranged]
  exact toWire_of_validate hp hk hm

end Model
end ViewDoc
