import Mathlib.Data.List.Nodup
import ViewDoc.Proofs.Depth
import ViewDoc.Proofs.Models

/-!
What the plain form of a model holds.

The fields that were given come first, in the order in which they are declared, and the others
behind them as they came. Under their keys no two of them meet, so nothing is written over and each
field is found under its own. Plain forms are sound again.
-/

namespace ViewDoc

open List (Forall₂)

namespace Table

variable {β : Type}

theorem isDistinct_iff {t : Table β} :
    IsDistinct t ↔ t.keys.Pairwise fun a b => a.equal b = false := by
  rw [keys, List.pairwise_map]
  rfl

theorem keys_append (t more : Table β) : keys (t ++ more) = t.keys ++ more.keys := List.map_append

theorem insert_of_new {t : Table β} {key : Value} (h : ∀ e ∈ t, e.1.equal key = false) (x : β) :
    t.insert key x = t ++ [(key, x)] := by
  induction t with
  | nil => rfl
  | cons e rest ih =>
    obtain ⟨k, y⟩ := e
    have hk : k.equal key = false := h (k, y) List.mem_cons_self
    rw [insert, hk, if_neg Bool.false_ne_true, ih fun e he => h e (List.mem_cons_of_mem _ he)]
    rfl

theorem update_of_isDistinct {t more : Table β} (h : IsDistinct (t ++ more)) :
    t.update more = t ++ more := by
  induction more generalizing t with
  | nil => exact (List.append_nil t).symm
  | cons e more ih =>
    obtain ⟨k, x⟩ := e
    have hnew : ∀ e ∈ t, e.1.equal k = false := fun e he =>
      (List.pairwise_append.1 h).2.2 e he (k, x) List.mem_cons_self
    rw [update_cons, insert_of_new hnew, ih, List.append_assoc]
    · rfl
    · rw [List.append_assoc]
      exact h

/-- Where no key comes twice, nothing is written over. -/
theorem ofList_of_isDistinct {entries : List (Value × β)} (h : IsDistinct entries) :
    ofList entries = entries := update_of_isDistinct (t := []) h

theorem get?_of_mem {t : Entries} (h : IsDistinct t) {k v : Value} {name : String}
    (hmem : (k, v) ∈ t) (hk : k.text? = some name) : t.get? name = some v := by
  induction t with
  | nil => cases hmem
  | cons e rest ih =>
    obtain ⟨hnew, hrest⟩ := List.pairwise_cons.1 h
    rw [get?, find?, List.find?_cons]
    rcases List.mem_cons.1 hmem with rfl | hmem
    · rw [Value.equal_text_iff.2 hk]
      rfl
    · have hne : e.1.equal (.text name) = false := by
        apply Bool.eq_false_iff.2
        intro he
        have hnew := hnew (k, v) hmem
        rw [Value.equal_of_equal_text he (Value.equal_text_iff.2 hk)] at hnew
        cases hnew
      rw [hne]
      exact ih hrest hmem

theorem get?_eq_none_iff {t : Entries} {name : String} :
    t.get? name = none ↔ ∀ e ∈ t, e.1.text? ≠ some name := by
  rw [get?, find?, Option.map_eq_none_iff, List.find?_eq_none]
  simp only [Value.equal_text_iff, ne_eq]

end Table

namespace Model

theorem keyOf_name {kind : ModelKind} {f : Field} (hf : f ∈ declared kind) :
    keyOf kind f.name = f.key := by
  revert f
  cases kind <;> simp [declared, selectorFields, actionFields, nodeFields, keyOf]

theorem depthOf_name {kind : ModelKind} {f : Field} (hf : f ∈ declared kind) :
    depthOf kind f.name = f.rule.depth := by
  revert f
  cases kind <;> simp [declared, selectorFields, actionFields, nodeFields, depthOf, Rule.depth]

theorem names_of_hasForm {kind : ModelKind} {taken : List (String × Option Value)}
    (h : Forall₂ HasForm (declared kind) taken) :
    taken.map (·.1) = (declared kind).map (·.name) := by
  generalize declared kind = fields at h
  induction h with
  | nil => rfl
  | cons ht _ ih => rw [List.map_cons, List.map_cons, ih, ht.1]

theorem nodup_names {kind : ModelKind} {taken : List (String × Option Value)}
    (h : Forall₂ HasForm (declared kind) taken) : (taken.map (·.1)).Nodup := by
  rw [names_of_hasForm h]
  exact List.pairwise_map.2 ((pairwise_declared kind).imp fun h => h.2.2.2)

/-- A field is given if its place among the fields is filled. -/
theorem contains_givenNames {taken : List (String × Option Value)}
    (h : (taken.map (·.1)).Nodup) {t : String × Option Value} (ht : t ∈ taken) :
    (givenNames taken).contains t.1 = t.2.isSome := by
  rw [Bool.eq_iff_iff, List.contains_iff_mem, givenNames, List.mem_map]
  constructor
  · intro h'
    obtain ⟨u, hu, hname⟩ := h'
    obtain ⟨hmem, hsome⟩ := List.mem_filter.1 hu
    rwa [← List.inj_on_of_nodup_map h hmem ht hname]
  · intro hsome
    exact ⟨t, List.mem_filter.2 ⟨ht, hsome⟩, rfl⟩

/-- The fields that were given, in plain form. -/
def givenEntries (keyed : Bool) (kind : ModelKind) (room : Nat)
    (taken : List (String × Option Value)) : Entries :=
  taken.filterMap fun t => t.2.map fun v =>
    (.text (if keyed then keyOf kind t.1 else t.1), dump keyed (room + depthOf kind t.1) v)

theorem dumpFields_map {keyed : Bool} {kind : ModelKind} {given : List String} (room : Nat)
    {taken : List (String × Option Value)} (h : ∀ t ∈ taken, given.contains t.1 = t.2.isSome) :
    dumpFields keyed kind given room (taken.map fun (name, v) => (.text name, v.getD .null)) =
      givenEntries keyed kind room taken := by
  induction taken with
  | nil => rfl
  | cons t taken ih =>
    obtain ⟨name, o⟩ := t
    have ih := ih fun t ht => h t (List.mem_cons_of_mem _ ht)
    have hname : given.contains name = o.isSome := h (name, o) List.mem_cons_self
    rw [List.map_cons, dumpFields, ih]
    simp only [Value.text?, Option.getD_some, hname]
    cases o <;> rfl

theorem dump_ofFields {kind : ModelKind} {taken : List (String × Option Value)}
    (h : Forall₂ HasForm (declared kind) taken) (keyed : Bool) (room : Nat) (extra : Entries) :
    dump keyed (room + 1) (ofFields kind taken extra) =
      .map (Table.ofList (givenEntries keyed kind (kind.roomInside room) taken ++
        dumpEntries keyed (kind.roomInside room) extra)) := by
  have hgiven : ∀ t ∈ taken, (givenNames taken).contains t.1 = t.2.isSome :=
    fun t ht => contains_givenNames (nodup_names h) ht
  rw [ofFields, dump, ← dumpFields_map _ hgiven]
  rfl

theorem dumpEntries_eq_map (keyed : Bool) (room : Nat) (entries : Entries) :
    dumpEntries keyed room entries = entries.map fun e => (e.1, dump keyed room e.2) := by
  induction entries with
  | nil => rfl
  | cons e rest ih =>
    obtain ⟨k, v⟩ := e
    rw [dumpEntries, ih]
    rfl

theorem keys_dumpEntries (keyed : Bool) (room : Nat) (entries : Entries) :
    Table.keys (dumpEntries keyed room entries) = entries.keys := by
  rw [dumpEntries_eq_map, Table.keys, Table.keys, List.map_map]
  rfl

theorem keys_givenEntries (keyed : Bool) (kind : ModelKind) (room : Nat)
    (taken : List (String × Option Value)) : (givenEntries keyed kind room taken).keys =
      (givenNames taken).map fun name => .text (if keyed then keyOf kind name else name) := by
  induction taken with
  | nil => rfl
  | cons t taken ih =>
    obtain ⟨name, o⟩ := t
    cases o with
    | none => exact ih
    | some v => exact congrArg (_ :: ·) ih

theorem exists_declared {kind : ModelKind} {taken : List (String × Option Value)}
    (h : Forall₂ HasForm (declared kind) taken) {name : String} (hn : name ∈ givenNames taken) :
    ∃ f ∈ declared kind, f.name = name := by
  obtain ⟨t, ht, rfl⟩ := List.mem_map.1 hn
  obtain ⟨f, hf, hform⟩ := exists_left_of_forall₂ h (List.mem_of_mem_filter ht)
  exact ⟨f, hf, hform.1.symm⟩

theorem nodup_keys_given {kind : ModelKind} {taken : List (String × Option Value)}
    (h : Forall₂ HasForm (declared kind) taken) : ((givenNames taken).map (keyOf kind)).Nodup := by
  have hkeys : (declared kind).map (·.key) = (taken.map (·.1)).map (keyOf kind) := by
    rw [names_of_hasForm h, List.map_map]
    exact List.map_congr_left fun f hf => (keyOf_name hf).symm
  have hnodup : ((taken.map (·.1)).map (keyOf kind)).Nodup := by
    rw [← hkeys]
    exact List.pairwise_map.2 ((pairwise_declared kind).imp fun h => h.1)
  exact hnodup.sublist ((List.filter_sublist.map _).map _)

/-- Under their keys, the parts of a model do not meet. -/
theorem isDistinct_plain {kind : ModelKind} {taken : List (String × Option Value)}
    {extra : Entries} (h : Forall₂ HasForm (declared kind) taken)
    (he : IsApart kind (givenNames taken) extra) (room : Nat) :
    Table.IsDistinct (givenEntries true kind room taken ++ dumpEntries true room extra) := by
  rw [Table.isDistinct_iff]
  have hsplit : Table.keys (givenEntries true kind room taken ++ dumpEntries true room extra) =
      ((givenNames taken).map (keyOf kind)).map .text ++ extra.keys := by
    rw [Table.keys_append, keys_givenEntries, keys_dumpEntries, List.map_map]
    rfl
  rw [hsplit, List.pairwise_append]
  refine ⟨List.pairwise_map.2 ((nodup_keys_given h).imp ?_), Table.isDistinct_iff.1 he.distinct, ?_⟩
  · intro a b hab
    simpa using Ne.symm hab
  · intro a ha b hb
    obtain ⟨key, hkey, rfl⟩ := List.mem_map.1 ha
    obtain ⟨name, hname, rfl⟩ := List.mem_map.1 hkey
    obtain ⟨f, hf, rfl⟩ := exists_declared h hname
    obtain ⟨e, hmem, rfl⟩ := List.mem_map.1 hb
    obtain ⟨s, hs, hkeys⟩ := he.texts e hmem
    rw [hs, keyOf_name hf]
    simpa using (hkeys f hf).1

/-- The plain form of a sound model: what was given and then the rest, with nothing written over. -/
theorem dump_of_isFormed {kind : ModelKind} {taken : List (String × Option Value)}
    {extra : Entries} (h : Forall₂ HasForm (declared kind) taken)
    (he : IsApart kind (givenNames taken) extra) (room : Nat) :
    dump true (room + 1) (ofFields kind taken extra) =
      .map (givenEntries true kind (kind.roomInside room) taken ++
        dumpEntries true (kind.roomInside room) extra) := by
  rw [dump_ofFields h, Table.ofList_of_isDistinct (isDistinct_plain h he _)]

theorem eq_of_key_eq {kind : ModelKind} {f g : Field} (hf : f ∈ declared kind)
    (hg : g ∈ declared kind) (h : f.key = g.key) : f = g := by
  have hkeys : ((declared kind).map (·.key)).Nodup :=
    List.pairwise_map.2 ((pairwise_declared kind).imp fun h => h.1)
  exact List.inj_on_of_nodup_map hkeys hf hg h

theorem isDistinct_fields {taken : List (String × Option Value)}
    (h : (taken.map (·.1)).Nodup) : Table.IsDistinct
      (taken.map fun (name, v) => (Value.text name, v.getD .null)) := by
  rw [Table.IsDistinct, List.pairwise_map]
  refine (List.pairwise_map.1 h).imp ?_
  intro a b hab
  simpa using Ne.symm hab

theorem get_fields {taken : List (String × Option Value)} (h : (taken.map (·.1)).Nodup)
    {t : String × Option Value} (ht : t ∈ taken) :
    Entries.get (taken.map fun (name, v) => (Value.text name, v.getD .null)) t.1 =
      t.2.getD .null := by
  have hmem := List.mem_map_of_mem (f := fun t : String × Option Value =>
    (Value.text t.1, t.2.getD .null)) ht
  rw [Entries.get, Table.get?_of_mem (isDistinct_fields h) hmem rfl]
  rfl

theorem IsFormed.exists_taken {kind : ModelKind} {fields extra : Entries} {given : List String}
    (h : IsFormed kind fields given extra) : ∃ taken : List (String × Option Value),
      fields = (taken.map fun (name, v) => (Value.text name, v.getD .null)) ∧
        given = givenNames taken ∧ Forall₂ HasForm (declared kind) taken ∧
          IsApart kind (givenNames taken) extra := by
  obtain ⟨taken, heq, htaken, he⟩ := h
  injection heq with _ hfields hgiven
  obtain rfl : given = givenNames taken := hgiven
  exact ⟨taken, hfields, rfl, htaken, he⟩

/-- In plain form a field is under its key, if it was given. -/
theorem get?_plain {kind : ModelKind} {taken : List (String × Option Value)} {extra : Entries}
    (htaken : Forall₂ HasForm (declared kind) taken) (he : IsApart kind (givenNames taken) extra)
    (room : Nat) {f : Field} (hf : f ∈ declared kind) {o : Option Value}
    (ht : (f.name, o) ∈ taken) :
    Table.get? (givenEntries true kind room taken ++ dumpEntries true room extra) f.key =
      o.map (dump true (room + f.rule.depth)) := by
  cases o with
  | some v =>
    have hmem : (Value.text f.key, dump true (room + f.rule.depth) v) ∈
        givenEntries true kind room taken :=
      List.mem_filterMap.2 ⟨_, ht, by simp [keyOf_name hf, depthOf_name hf]⟩
    have hdistinct := isDistinct_plain htaken he room
    exact Table.get?_of_mem hdistinct (List.mem_append_left _ hmem) rfl
  | none =>
    apply Table.get?_eq_none_iff.2
    intro e hmem hkey
    rcases List.mem_append.1 hmem with hmem | hmem
    · obtain ⟨⟨name, o⟩, hu, hsome⟩ := List.mem_filterMap.1 hmem
      obtain ⟨v, rfl, rfl⟩ := Option.map_eq_some_iff.1 hsome
      obtain ⟨g, hg, hform⟩ := exists_left_of_forall₂ htaken hu
      obtain rfl : name = g.name := hform.1
      have hsame : g.key = f.key := Option.some.inj (keyOf_name hg ▸ hkey)
      obtain rfl := eq_of_key_eq hg hf hsame
      cases List.inj_on_of_nodup_map (nodup_names htaken) hu ht rfl
    · rw [dumpEntries_eq_map] at hmem
      obtain ⟨d, hd, rfl⟩ := List.mem_map.1 hmem
      obtain ⟨s, hs, hkeys⟩ := he.texts d hd
      rw [hs] at hkey
      exact (hkeys f hf).1 (Option.some.inj hkey)

/-- A sound model holds its fields under their keys in plain form, and null for those not given;
those that have to be given are there. -/
theorem get_plain {kind : ModelKind} {fields extra entries : Entries} {given : List String}
    (h : IsFormed kind fields given extra) {room : Nat}
    (hplain : dump true (room + 1) (.model kind fields given extra) = .map entries)
    {f : Field} (hf : f ∈ declared kind) :
    Entries.get entries f.key =
        dump true (kind.roomInside room + f.rule.depth) (Entries.get fields f.name) ∧
      (f.required = true → Table.contains entries (.text f.key) = true) := by
  obtain ⟨taken, rfl, rfl, htaken, he⟩ := h.exists_taken
  have hentries : entries = givenEntries true kind (kind.roomInside room) taken ++
      dumpEntries true (kind.roomInside room) extra :=
    Value.map.inj (hplain.symm.trans (dump_of_isFormed htaken he room))
  subst hentries
  obtain ⟨⟨name, o⟩, ht, hname, hform⟩ := exists_right_of_forall₂ htaken hf
  obtain rfl : name = f.name := hname
  rw [get_fields (nodup_names htaken) ht, Entries.get, Table.contains_text,
    get?_plain htaken he _ hf ht]
  cases o with
  | some v => exact ⟨rfl, fun _ => rfl⟩
  | none =>
    refine ⟨(dump_null _ _).symm, ?_⟩
    intro hreq
    rw [hreq] at hform
    cases hform

/-- What a sound model holds under the name of a field: the form of its rule, or null. -/
theorem fits_get {kind : ModelKind} {fields extra : Entries} {given : List String}
    (h : IsFormed kind fields given extra) {f : Field} (hf : f ∈ declared kind) :
    Fits f.rule (Entries.get fields f.name) ∨
      f.required = false ∧ Entries.get fields f.name = .null := by
  obtain ⟨taken, rfl, rfl, htaken, -⟩ := h.exists_taken
  obtain ⟨⟨name, o⟩, ht, hname, hform⟩ := exists_right_of_forall₂ htaken hf
  obtain rfl : name = f.name := hname
  rw [get_fields (nodup_names htaken) ht]
  cases o with
  | some v => exact .inl hform
  | none => exact .inr ⟨hform, rfl⟩

/-- Writing the fields of a model comes to something if writing one that was given does. -/
theorem meetsField_ofFields_eq_false_iff {p : ModelKind → List String → Nat → Bool}
    {kind : ModelKind} {given : List String} {room : Nat} {taken : List (String × Option Value)}
    (h : ∀ t ∈ taken, given.contains t.1 = t.2.isSome) :
    meetsField p kind given room (taken.map fun (name, v) => (.text name, v.getD .null)) = false ↔
      ∀ t ∈ taken, ∀ v ∈ t.2, meets p (room + depthOf kind t.1) v = false := by
  induction taken with
  | nil => simp [meetsField]
  | cons t taken ih =>
    obtain ⟨name, o⟩ := t
    have ih := ih fun t ht => h t (List.mem_cons_of_mem _ ht)
    have hname : given.contains name = o.isSome := h (name, o) List.mem_cons_self
    rw [List.map_cons, meetsField, List.forall_mem_cons, Bool.or_eq_false_iff, ih]
    simp only [Value.text?, Option.getD_some, hname]
    cases o <;> simp

/-- Writing a model comes to something if the model is it, or if writing one of its parts does. -/
theorem meets_ofFields_eq_false_iff {p : ModelKind → List String → Nat → Bool} {kind : ModelKind}
    {taken : List (String × Option Value)} (h : Forall₂ HasForm (declared kind) taken)
    (room : Nat) (extra : Entries) : meets p (room + 1) (ofFields kind taken extra) = false ↔
      p kind (givenNames taken) room = false ∧
      (∀ t ∈ taken, ∀ v ∈ t.2, meets p (kind.roomInside room + depthOf kind t.1) v = false) ∧
      ∀ e ∈ extra, meets p (kind.roomInside room) e.2 = false := by
  have hgiven : ∀ t ∈ taken, (givenNames taken).contains t.1 = t.2.isSome :=
    fun t ht => contains_givenNames (nodup_names h) ht
  rw [ofFields, meets, Bool.or_eq_false_iff, Bool.or_eq_false_iff, and_assoc,
    ← meetsEntry_eq_false_iff, ← meetsField_ofFields_eq_false_iff hgiven]
  rfl

theorem isSound_get {entries : Entries} (h : EntriesSound entries) (name : String) :
    IsSound (entries.get name) := by
  rw [Entries.get]
  cases hv : entries.get? name with
  | none => simp [IsSound]
  | some v =>
    obtain ⟨k, hmem, -⟩ := mem_of_get? hv
    exact entriesSound_iff.1 h (k, v) hmem

mutual

theorem isSound_dump : ∀ (room : Nat) (v : Value), IsSound v → IsSound (dump true room v)
  | 0, v, h => by
    rw [dump]
    · exact h
    all_goals simp
  | room + 1, .list items, h => by
    rw [IsSound] at h
    rw [dump, IsSound]
    exact areSound_dumpAll room items h
  | room + 1, .tuple items, h => by
    rw [IsSound] at h
    rw [dump, IsSound]
    exact areSound_dumpAll room items h
  | room + 1, .map entries, h => by
    rw [IsSound] at h
    rw [dump, IsSound, Table.isDistinct_iff, keys_dumpEntries]
    exact ⟨Table.isDistinct_iff.1 h.1, entriesSound_dumpEntries room entries h.2⟩
  | room + 1, .model kind fields given extra, h => by
    rw [IsSound] at h
    obtain ⟨hformed, hfields, hextra⟩ := h
    have hparts : ∀ e ∈ dumpFields true kind given (kind.roomInside room) fields ++
        dumpEntries true (kind.roomInside room) extra, IsSound e.2 := by
      intro e hmem
      rcases List.mem_append.1 hmem with hmem | hmem
      · exact entriesSound_iff.1 (entriesSound_dumpFields kind given _ fields hfields) e hmem
      · exact entriesSound_iff.1 (entriesSound_dumpEntries _ extra hextra) e hmem
    have hvalues := Table.forall_mem_update (List.forall_mem_nil _) hparts
    obtain ⟨taken, rfl, rfl, htaken, he⟩ := hformed.exists_taken
    have hplain := dump_of_isFormed htaken he room
    rw [ofFields, dump] at hplain
    have hdistinct := isDistinct_plain htaken he (kind.roomInside room)
    rw [← Value.map.inj hplain] at hdistinct
    rw [dump, IsSound, entriesSound_iff]
    exact ⟨hdistinct, hvalues⟩
  | room + 1, .rendered element props children, h => by
    rw [IsSound] at h
    have helement := isSound_dump room element h.1
    have hprops := isSound_dump room props h.2.1
    have hchildren := isSound_dump room children h.2.2
    simp [dump, IsSound, EntriesSound, Table.IsDistinct, helement, hprops, hchildren]
  | _ + 1, .null, _ | _ + 1, .bool _, _ | _ + 1, .int _, _ | _ + 1, .float _, _
  | _ + 1, .text _, _ | _ + 1, .markup _, _ | _ + 1, .date _, _ | _ + 1, .dateTime _, _
  | _ + 1, .time _, _ | _ + 1, .zone _, _ | _ + 1, .function .., _ | _ + 1, .object .., _ => by
    simp [dump, IsSound]

theorem areSound_dumpAll (room : Nat) :
    ∀ vs : List Value, AreSound vs → AreSound (dumpAll true room vs)
  | [], _ => by simp [dumpAll, AreSound]
  | v :: vs, h => by
    rw [AreSound] at h
    rw [dumpAll, AreSound]
    exact ⟨isSound_dump room v h.1, areSound_dumpAll room vs h.2⟩

theorem entriesSound_dumpEntries (room : Nat) :
    ∀ es : List (Value × Value), EntriesSound es → EntriesSound (dumpEntries true room es)
  | [], _ => by simp [dumpEntries, EntriesSound]
  | (_, v) :: rest, h => by
    rw [EntriesSound] at h
    rw [dumpEntries, EntriesSound]
    exact ⟨isSound_dump room v h.1, entriesSound_dumpEntries room rest h.2⟩

theorem entriesSound_dumpFields (kind : ModelKind) (given : List String) (room : Nat) :
    ∀ es : List (Value × Value), EntriesSound es →
      EntriesSound (dumpFields true kind given room es)
  | [], _ => by simp [dumpFields, EntriesSound]
  | (k, v) :: rest, h => by
    rw [EntriesSound] at h
    have hrest := entriesSound_dumpFields kind given room rest h.2
    rw [dumpFields]
    split
    · rw [EntriesSound]
      exact ⟨isSound_dump _ v h.1, hrest⟩
    · exact hrest

end
end Model
end ViewDoc
