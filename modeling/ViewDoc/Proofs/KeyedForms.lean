import ViewDoc.Proofs.PlainForms
import ViewDoc.Proofs.Refusals

/-!
When the plain form of a model that the model gives itself is the one that resolvers work with.

A selector writes the fields of the models inside it under their names, everything else writes them
under their keys. The two differ for one field only, what follows an action; so the two forms are
equal just where no selector holds an action that has been given one.
-/

namespace ViewDoc

open List (Forall₂)

namespace Model

/-- Whether an action is written with a value that has been given what follows it. -/
def hasFollowUp : Nat → Value → Bool :=
  meets fun kind given _ => kind == .action && given.contains "on_success"

theorem dumpAll_eq_map (keyed : Bool) (room : Nat) (vs : List Value) :
    dumpAll keyed room vs = vs.map (dump keyed room) := by
  induction vs with
  | nil => rfl
  | cons v vs ih => rw [dumpAll, ih, List.map_cons]

theorem dumpAll_eq_iff {room : Nat} {vs : List Value} :
    dumpAll true room vs = dumpAll false room vs ↔
      ∀ v ∈ vs, dump true room v = dump false room v := by
  rw [dumpAll_eq_map, dumpAll_eq_map, List.map_inj_left]

theorem dumpEntries_eq_iff {room : Nat} {es : Entries} :
    dumpEntries true room es = dumpEntries false room es ↔
      ∀ e ∈ es, dump true room e.2 = dump false room e.2 := by
  rw [dumpEntries_eq_map, dumpEntries_eq_map, List.map_inj_left]
  simp only [Prod.mk.injEq, true_and]

/-- Only what follows an action has a key that is not its name. -/
theorem key_eq_name {kind : ModelKind} {f : Field} (hf : f ∈ declared kind)
    (h : kind = .action → f.name ≠ "on_success") : f.key = f.name := by
  revert f
  cases kind <;> simp [declared, selectorFields, actionFields, nodeFields]

/-- What is checked by the rule of a selector's field holds no model if it held none before. -/
theorem isModelFree_of_check {room : Nat} {f : Field} {v w : Value} (hf : f ∈ declared .selector)
    (h : check room f.rule v = .ok w) (hv : v.isModelFree = true) : w.isModelFree = true := by
  have hrule : f.rule = .any ∨ f.rule = .optionalText ∨ f.rule = .format := by
    simp only [declared, selectorFields, List.mem_cons, List.not_mem_nil, or_false] at hf
    rcases hf with rfl | rfl | rfl | rfl | rfl | rfl <;> simp
  generalize f.rule = rule at hrule h
  cases passes_of_check h with
  | any => exact hv
  | null => rfl
  | optionalText => rfl
  | format => rfl
  | _ => simp at hrule

theorem givenEntries_eq_iff {kind : ModelKind} {room : Nat} {taken : List (String × Option Value)}
    (hkeys : ∀ t ∈ taken, t.2.isSome = true → keyOf kind t.1 = t.1) :
    givenEntries true kind room taken = givenEntries false kind room taken ↔
      ∀ t ∈ taken, ∀ v ∈ t.2, dump true (room + depthOf kind t.1) v =
        dump false (room + depthOf kind t.1) v := by
  induction taken with
  | nil => simp [givenEntries]
  | cons t taken ih =>
    obtain ⟨name, o⟩ := t
    have ih := ih fun t ht => hkeys t (List.mem_cons_of_mem _ ht)
    rw [List.forall_mem_cons, ← ih, givenEntries, givenEntries, List.filterMap_cons,
      List.filterMap_cons]
    cases o with
    | none => simp [givenEntries]
    | some v =>
      have hkey : keyOf kind name = name := hkeys (name, some v) List.mem_cons_self rfl
      simp [hkey, givenEntries]

theorem dump_ofFields_eq_iff {kind : ModelKind} {taken : List (String × Option Value)}
    {extra : Entries} (h : Forall₂ HasForm (declared kind) taken)
    (he : IsApart kind (givenNames taken) extra)
    (hno : kind = .action → "on_success" ∉ givenNames taken) (room : Nat) :
    dump true (room + 1) (ofFields kind taken extra) =
        dump false (room + 1) (ofFields kind taken extra) ↔
      (∀ t ∈ taken, ∀ v ∈ t.2, dump true (kind.roomInside room + depthOf kind t.1) v =
        dump false (kind.roomInside room + depthOf kind t.1) v) ∧
      ∀ e ∈ extra, dump true (kind.roomInside room) e.2 =
        dump false (kind.roomInside room) e.2 := by
  generalize hinside : kind.roomInside room = inside
  have hname : ∀ name ∈ givenNames taken, keyOf kind name = name := by
    intro name hmem
    obtain ⟨f, hf, rfl⟩ := exists_declared h hmem
    rw [keyOf_name hf]
    apply key_eq_name hf
    intro hkind hsame
    exact hno hkind (hsame ▸ hmem)
  have hkeys : Table.keys (givenEntries false kind inside taken ++ dumpEntries false inside extra) =
      Table.keys (givenEntries true kind inside taken ++ dumpEntries true inside extra) := by
    rw [Table.keys_append, Table.keys_append, keys_dumpEntries, keys_dumpEntries,
      keys_givenEntries, keys_givenEntries]
    congr 1
    apply List.map_congr_left
    intro name hmem
    simp [hname name hmem]
  have hdistinct : Table.IsDistinct
      (givenEntries false kind inside taken ++ dumpEntries false inside extra) := by
    rw [Table.isDistinct_iff, hkeys, ← Table.isDistinct_iff]
    exact isDistinct_plain h he inside
  have hlength : (dumpEntries true inside extra).length =
      (dumpEntries false inside extra).length := by
    rw [dumpEntries_eq_map, dumpEntries_eq_map, List.length_map, List.length_map]
  have hgiven : ∀ t ∈ taken, t.2.isSome = true → keyOf kind t.1 = t.1 := fun t ht hsome =>
    hname t.1 (List.mem_map.2 ⟨t, List.mem_filter.2 ⟨ht, hsome⟩, rfl⟩)
  rw [dump_of_isFormed h he, dump_ofFields h, hinside, Table.ofList_of_isDistinct hdistinct,
    Value.map.injEq, ← givenEntries_eq_iff hgiven, ← dumpEntries_eq_iff]
  constructor
  · intro heq
    exact List.append_inj' heq hlength
  · intro heq
    rw [heq.1, heq.2]

theorem dump_ofFields_ne {taken : List (String × Option Value)} {extra : Entries}
    (h : Forall₂ HasForm (declared .action) taken) (he : IsApart .action (givenNames taken) extra)
    (hmem : "on_success" ∈ givenNames taken) (room : Nat) :
    dump true (room + 1) (ofFields .action taken extra) ≠
      dump false (room + 1) (ofFields .action taken extra) := by
  intro heq
  rw [dump_of_isFormed h he, dump_ofFields h, Value.map.injEq] at heq
  generalize ModelKind.action.roomInside room = inside at heq
  -- the key of the field is there in one form and not in the other
  have hkeyed : Table.get? (givenEntries true .action inside taken ++ dumpEntries true inside extra)
      "onSuccess" ≠ none := by
    intro hnone
    obtain ⟨t, ht, hname⟩ := List.mem_map.1 hmem
    obtain ⟨ht, hsome⟩ := List.mem_filter.1 ht
    obtain ⟨v, hv⟩ := Option.isSome_iff_exists.1 hsome
    have hentry : (Value.text "onSuccess", dump true (inside + 1) v) ∈
        givenEntries true .action inside taken := by
      refine List.mem_filterMap.2 ⟨t, ht, ?_⟩
      rw [hv, hname]
      rfl
    exact Table.get?_eq_none_iff.1 hnone _ (List.mem_append_left _ hentry) rfl
  have hnamed : Table.get?
      (Table.ofList (givenEntries false .action inside taken ++ dumpEntries false inside extra))
      "onSuccess" = none := by
    have hno : ∀ f ∈ declared .action, f.name ≠ "onSuccess" := by
      simp [declared, actionFields]
    have hother : ∀ e ∈ givenEntries false .action inside taken ++ dumpEntries false inside extra,
        e.1.equal (.text "onSuccess") ≠ true := by
      intro e hmem hkey
      have hkey := Value.equal_text_iff.1 hkey
      rcases List.mem_append.1 hmem with hmem | hmem
      · have hname := List.mem_map_of_mem (f := Prod.fst) hmem
        rw [← Table.keys, keys_givenEntries] at hname
        obtain ⟨name, hname, hsame⟩ := List.mem_map.1 hname
        obtain ⟨f, hf, rfl⟩ := exists_declared h hname
        rw [← hsame] at hkey
        exact hno f hf (Option.some.inj hkey)
      · rw [dumpEntries_eq_map] at hmem
        obtain ⟨d, hd, rfl⟩ := List.mem_map.1 hmem
        obtain ⟨s, hs, hkeys⟩ := he.texts d hd
        rw [hs] at hkey
        exact (hkeys _ followUp_mem_declared).1 (Option.some.inj hkey)
    rw [Table.ofList, Table.get?_update, Table.lastWrite?, List.filter_eq_nil_iff.2 hother]
    rfl
  rw [heq] at hkeyed
  exact hkeyed hnamed

mutual

theorem dump_eq_iff : ∀ (v : Value) (room : Nat), IsSound v →
    (dump true room v = dump false room v ↔ hasFollowUp room v = false)
  | v, 0, _ => by simp [hasFollowUp]
  | .list items, room + 1, h => by
    rw [IsSound] at h
    rw [dump, dump, hasFollowUp, meets, Value.list.injEq, dumpAll_eq_iff, meetsAny_eq_false_iff]
    exact forall₂_congr fun v hv => dump_items_iff items h v hv room
  | .tuple items, room + 1, h => by
    rw [IsSound] at h
    rw [dump, dump, hasFollowUp, meets, Value.tuple.injEq, dumpAll_eq_iff, meetsAny_eq_false_iff]
    exact forall₂_congr fun v hv => dump_items_iff items h v hv room
  | .map entries, room + 1, h => by
    rw [IsSound] at h
    rw [dump, dump, hasFollowUp, meets, Value.map.injEq, dumpEntries_eq_iff,
      meetsEntry_eq_false_iff]
    exact forall₂_congr fun e he => dump_entries_iff entries h.2 e he room
  | .rendered element props children, room + 1, h => by
    rw [IsSound] at h
    have helement := dump_eq_iff element room h.1
    have hprops := dump_eq_iff props room h.2.1
    have hchildren := dump_eq_iff children room h.2.2
    rw [hasFollowUp] at helement hprops hchildren
    simp [dump, hasFollowUp, meets, helement, hprops, hchildren, and_assoc]
  | .model kind fields given extra, room + 1, h => by
    rw [IsSound] at h
    obtain ⟨hformed, hfields, hextra⟩ := h
    have hfields := dump_entries_iff fields hfields
    have hextra := dump_entries_iff extra hextra
    obtain ⟨taken, rfl, rfl, htaken, he⟩ := hformed.exists_taken
    have hparts : ((∀ t ∈ taken, ∀ v ∈ t.2,
          hasFollowUp (kind.roomInside room + depthOf kind t.1) v = false) ∧
        ∀ e ∈ extra, hasFollowUp (kind.roomInside room) e.2 = false) ↔
        (∀ t ∈ taken, ∀ v ∈ t.2, dump true (kind.roomInside room + depthOf kind t.1) v =
          dump false (kind.roomInside room + depthOf kind t.1) v) ∧
        ∀ e ∈ extra, dump true (kind.roomInside room) e.2 =
          dump false (kind.roomInside room) e.2 := by
      refine and_congr (forall₂_congr fun t ht => forall₂_congr fun v hv => ?_)
        (forall₂_congr fun e he => (hextra e he _).symm)
      have hmem := List.mem_map_of_mem (f := fun t : String × Option Value =>
        (Value.text t.1, t.2.getD .null)) ht
      rw [Option.mem_def.1 hv] at hmem
      exact (hfields _ hmem _).symm
    have hsplit : hasFollowUp (room + 1) (ofFields kind taken extra) = false ↔
        (kind == .action && (givenNames taken).contains "on_success") = false ∧ _ :=
      meets_ofFields_eq_false_iff htaken room extra
    have hsplit := hsplit.trans (and_congr_right fun _ => hparts)
    change dump true (room + 1) (ofFields kind taken extra) = _ ↔
      hasFollowUp (room + 1) (ofFields kind taken extra) = false
    rw [hsplit]
    by_cases hno : kind = .action → "on_success" ∉ givenNames taken
    · have hfalse : (kind == .action && (givenNames taken).contains "on_success") = false := by
        apply Bool.eq_false_iff.2
        simpa using hno
      rw [hfalse, eq_self, true_and]
      exact dump_ofFields_eq_iff htaken he hno room
    · obtain ⟨rfl, hmem⟩ := Classical.not_imp.1 hno
      have hmem := Classical.not_not.1 hmem
      have htrue : (ModelKind.action == .action && (givenNames taken).contains "on_success") =
          true := by
        simpa using hmem
      have hne := dump_ofFields_ne htaken he hmem room
      rw [htrue]
      exact ⟨fun heq => absurd heq hne, fun h => by simp at h⟩
  | .null, _ + 1, _ | .bool _, _ + 1, _ | .int _, _ + 1, _ | .float _, _ + 1, _
  | .text _, _ + 1, _ | .markup _, _ + 1, _ | .date _, _ + 1, _ | .dateTime _, _ + 1, _
  | .time _, _ + 1, _ | .zone _, _ + 1, _ | .function .., _ + 1, _ | .object .., _ + 1, _ => by
    simp [dump, hasFollowUp, meets]

theorem dump_items_iff : ∀ vs : List Value, AreSound vs → ∀ v ∈ vs, ∀ room : Nat,
    (dump true room v = dump false room v ↔ hasFollowUp room v = false)
  | [], _ => by simp
  | v :: vs, h => by
    rw [AreSound] at h
    rw [List.forall_mem_cons]
    exact ⟨fun room => dump_eq_iff v room h.1, dump_items_iff vs h.2⟩

theorem dump_entries_iff : ∀ es : List (Value × Value), EntriesSound es → ∀ e ∈ es, ∀ room : Nat,
    (dump true room e.2 = dump false room e.2 ↔ hasFollowUp room e.2 = false)
  | [], _ => by simp
  | (_, v) :: rest, h => by
    rw [EntriesSound] at h
    rw [List.forall_mem_cons]
    exact ⟨fun room => dump_eq_iff v room h.1, dump_entries_iff rest h.2⟩

end

/-- Whether a selector is written with an action that has been given a follow-up, anywhere inside
it. -/
def isSplit : Value → Bool
  | .model .selector fields given extra =>
    hasFollowUp (nestingLimit + 1) (.model .selector fields given extra)
  | _ => false

theorem toWire_eq_error_iff {m : Value} (hmodel : m.isModel = true) {f : Failure} :
    toWire m = .error f ↔ m.wire = .error f := by
  cases m with
  | model kind fields given extra =>
    rw [toWire, Value.wire, plain_eq_error_iff, plain_eq_error_iff]
  | _ => cases hmodel

theorem exists_toWire {m u : Value} (hm : IsSound m) (hmodel : m.isModel = true)
    (hu : m.wire = .ok u) : ∃ w, toWire m = .ok w ∧ (w = u ↔ isSplit m = false) := by
  cases m with
  | model kind fields given extra =>
    rw [Value.wire] at hu
    obtain ⟨hroom, rfl⟩ := plain_eq_ok_iff.1 hu
    cases kind with
    | selector =>
      refine ⟨_, plain_eq_ok_iff.2 ⟨hroom, rfl⟩, ?_⟩
      rw [isSplit, ← dump_eq_iff _ _ hm]
      exact eq_comm
    | action => exact ⟨_, hu, fun _ => rfl, fun _ => rfl⟩
    | node => exact ⟨_, hu, fun _ => rfl, fun _ => rfl⟩
  | _ => cases hmodel

theorem wire_list_of_models {levels : List Value} (h : ∀ m ∈ levels, m.isModel = true) :
    (Value.list levels).wire = (levels.mapM Value.wire).map .list := by
  rw [Value.wire]
  split
  · rw [Value.wireAll_eq_mapM]
  · rename_i hnone
    cases levels with
    | nil => rfl
    | cons m levels => simp [h m List.mem_cons_self] at hnone

theorem dynamicVariable_eq_error_iff {levels : List Value} (h : ∀ m ∈ levels, m.isModel = true)
    {f : Failure} :
    dynamicVariable (.list levels) = .error f ↔ (Value.list levels).wire = .error f := by
  have hplain : dynamicVariable (.list levels) = (levels.mapM toWire).map .list := rfl
  rw [hplain, wire_list_of_models h, map_eq_error_iff, map_eq_error_iff]
  exact mapM_eq_error_congr fun m hm _ => toWire_eq_error_iff (h m hm)

theorem exists_dynamicVariable {levels : List Value} {u : Value}
    (h : ∀ m ∈ levels, IsSound m ∧ m.isModel = true) (hu : (Value.list levels).wire = .ok u) :
    ∃ w, dynamicVariable (.list levels) = .ok w ∧ (w = u ↔ ∀ m ∈ levels, isSplit m = false) := by
  rw [wire_list_of_models fun m hm => (h m hm).2] at hu
  obtain ⟨us, hus, rfl⟩ := map_eq_ok_iff.1 hu
  suffices hplain : ∃ plain, Forall₂ (fun m w => toWire m = .ok w) levels plain ∧
      (plain = us ↔ ∀ m ∈ levels, isSplit m = false) by
    obtain ⟨plain, hplain, hiff⟩ := hplain
    refine ⟨.list plain, map_eq_ok_iff.2 ⟨plain, mapM_eq_ok_iff.2 hplain, rfl⟩, ?_⟩
    rw [Value.list.injEq]
    exact hiff
  clear hu
  replace hus := mapM_eq_ok_iff.1 hus
  induction hus with
  | nil => exact ⟨[], .nil, by simp⟩
  | cons hm _ ih =>
    obtain ⟨hfirst, hrest⟩ := List.forall_mem_cons.1 h
    obtain ⟨w, hw, hsame⟩ := exists_toWire hfirst.1 hfirst.2 hm
    obtain ⟨plain, hplain, hiff⟩ := ih hrest
    refine ⟨w :: plain, .cons hw hplain, ?_⟩
    rw [List.cons.injEq, List.forall_mem_cons, hsame, hiff]

theorem isSelector_of_isFormed {fields extra : Entries} {given : List String} {w : Value}
    (h : IsFormed .selector fields given extra)
    (hw : (Value.model .selector fields given extra).wire = .ok w) : w.isSelector = true := by
  have hroot : (⟨"root", "root", .optionalText, true⟩ : Field) ∈ declared .selector := by
    simp [declared, selectorFields]
  have hkeys : (⟨"keys", "keys", .any, true⟩ : Field) ∈ declared .selector := by
    simp [declared, selectorFields]
  rw [Value.wire] at hw
  obtain ⟨-, rfl⟩ := plain_eq_ok_iff.1 hw
  obtain ⟨entries, hplain⟩ : ∃ entries : Entries,
      dump true (nestingLimit + 1) (.model .selector fields given extra) = .map entries := by
    rw [dump]
    exact ⟨_, rfl⟩
  rw [hplain, Value.isSelector, (get_plain h hplain hroot).2 rfl, (get_plain h hplain hkeys).2 rfl]
  rfl

theorem isSelector_of_isSound {fields extra : Entries} {given : List String} {w : Value}
    (h : IsSound (.model .selector fields given extra))
    (hw : (Value.model .selector fields given extra).wire = .ok w) : w.isSelector = true := by
  rw [IsSound] at h
  exact isSelector_of_isFormed h.1 hw

/-- A list of sound selectors resolves as its plain form does. -/
theorem resolve_wire {levels : List Value} {u : Value}
    (h : ∀ m ∈ levels, ∃ fields given extra, m = .model .selector fields given extra ∧ IsSound m)
    (hu : (Value.list levels).wire = .ok u) (c : Clock) (roots : Entries) :
    Variable.resolve c roots u = Variable.resolve c roots (.list levels) := by
  have hmodels : ∀ m ∈ levels, m.isModel = true := by
    intro m hm
    obtain ⟨fields, given, extra, rfl, -⟩ := h m hm
    rfl
  have huu := Value.wire_of_wire hu
  rw [wire_list_of_models hmodels] at hu
  obtain ⟨us, hus, rfl⟩ := map_eq_ok_iff.1 hu
  cases mapM_eq_ok_iff.1 hus with
  | nil => rfl
  | @cons m v levels us hm _ =>
    obtain ⟨fields, given, extra, rfl, hsound⟩ := h m List.mem_cons_self
    have hlevels : Variable.levels? (.list (v :: us)) = some (v :: us) := by
      simp [Variable.levels?, Value.items?, isSelector_of_isSound hsound hm]
    simp only [Variable.resolve, huu, wire_list_of_models hmodels, hus, ok_map,
      Outcome.liftM_ok_bind, hlevels]

/-- The form that a model has of its own fails as the one that resolvers work with. It is the same
except for a selector that was given an action with a follow-up, anywhere inside it. So it is for
the levels of a dynamic variable, and a list of selectors resolves as the form that resolvers work
with. -/
theorem wire_forms_agree_iff {m : Value} (hm : IsSound m) (hmodel : m.isModel = true)
    {levels : List Value} (hlevels : ∀ l ∈ levels, ∃ fields given extra,
      l = .model .selector fields given extra ∧ IsSound l) (c : Clock) (roots : Entries) :
    ((∀ f, toWire m = .error f ↔ m.wire = .error f) ∧
      ∀ u, m.wire = .ok u → ∃ w, toWire m = .ok w ∧ (w = u ↔ isSplit m = false)) ∧
    ((∀ f, dynamicVariable (.list levels) = .error f ↔ (Value.list levels).wire = .error f) ∧
      ∀ u, (Value.list levels).wire = .ok u → ∃ w, dynamicVariable (.list levels) = .ok w ∧
        (w = u ↔ ∀ l ∈ levels, isSplit l = false)) ∧
    ∀ u, (Value.list levels).wire = .ok u →
      Variable.resolve c roots u = Variable.resolve c roots (.list levels) := by
  have hboth : ∀ l ∈ levels, IsSound l ∧ l.isModel = true := by
    intro l hl
    obtain ⟨fields, given, extra, rfl, hsound⟩ := hlevels l hl
    exact ⟨hsound, rfl⟩
  refine ⟨⟨?_, ?_⟩, ⟨?_, ?_⟩, ?_⟩
  · intro f
    exact toWire_eq_error_iff hmodel
  · intro u hu
    exact exists_toWire hm hmodel hu
  · intro f
    exact dynamicVariable_eq_error_iff fun l hl => (hboth l hl).2
  · intro u hu
    exact exists_dynamicVariable hboth hu
  · intro u hu
    exact resolve_wire hlevels hu c roots

/-- Two selectors around actions: the first holds one that nothing follows, the second one with a
follow-up that was left empty. -/
theorem wire_forms_agree_iff_nested :
    let action (given : Option Value) : Value := ofFields .action
      [("name", some (.text "go")), ("payload", none), ("on_success", given)] []
    let selector (keys : Value) : Value := ofFields .selector
      [("root", some .null), ("keys", some keys), ("default", none), ("prefix", none),
        ("suffix", none), ("format", none)] []
    let first := selector (.list [action none])
    let second := selector (.map [(.text "then", action (some .null))])
    IsSound first ∧ IsSound second ∧ toWire first = first.wire ∧ toWire second ≠ second.wire ∧
      dynamicVariable (.list [first]) = (Value.list [first]).wire ∧
      dynamicVariable (.list [first, second]) ≠ (Value.list [first, second]).wire := by
  intro action selector first second
  have hplain : IsSound (action none) :=
    isSound_action "go" ⟨rfl, rfl⟩ (by simp [IsSound])
  have hempty : IsSound (action (some .null)) :=
    isSound_action "go" ⟨rfl, .inl ⟨rfl, rfl⟩⟩ (by simp [IsSound])
  have hfirst : IsSound first := by
    apply isSound_selector
    simpa [IsSound, AreSound] using hplain
  have hsecond : IsSound second := by
    apply isSound_selector
    simpa [IsSound, EntriesSound, Table.IsDistinct] using hempty
  have hboth : ∀ l ∈ [first, second], ∃ fields given extra,
      l = .model .selector fields given extra ∧ IsSound l := by
    intro l hl
    rcases List.mem_pair.1 hl with rfl | rfl
    · exact ⟨_, _, _, rfl, hfirst⟩
    · exact ⟨_, _, _, rfl, hsecond⟩
  have hone : ∀ l ∈ [first], ∃ fields given extra,
      l = .model .selector fields given extra ∧ IsSound l := by
    intro l hl
    rw [List.mem_singleton.1 hl]
    exact ⟨_, _, _, rfl, hfirst⟩
  have hwhole : isSplit first = false := by rfl
  have hsplit : isSplit second = true := by rfl
  let clock : Clock := ⟨0, ⟨.first, none⟩, false⟩
  obtain ⟨⟨-, hown⟩, ⟨-, hlevels⟩, -⟩ := wire_forms_agree_iff hfirst rfl hone clock []
  obtain ⟨⟨-, hother⟩, ⟨-, hmixed⟩, -⟩ := wire_forms_agree_iff hsecond rfl hboth clock []
  refine ⟨hfirst, hsecond, ?_, ?_, ?_, ?_⟩
  · obtain ⟨w, hw, hsame⟩ := hown _ rfl
    rw [hw, hsame.2 hwhole]
    rfl
  · obtain ⟨w, hw, hsame⟩ := hother _ rfl
    intro heq
    have hnone := hsame.1 (Except.ok.inj (hw.symm.trans heq))
    rw [hsplit] at hnone
    cases hnone
  · obtain ⟨w, hw, hsame⟩ := hlevels _ rfl
    rw [hw, hsame.2 (List.forall_mem_singleton.2 hwhole)]
    rfl
  · obtain ⟨w, hw, hsame⟩ := hmixed _ rfl
    intro heq
    have hnone := hsame.1 (Except.ok.inj (hw.symm.trans heq)) second (by simp)
    rw [hsplit] at hnone
    cases hnone

/-- A selector whose keys are an action with a follow-up writes itself in another form than the one
that resolvers work with. -/
theorem toWire_ne_wire_follow_up :
    let last : Value := ofFields .action
      [("name", some (.text "b")), ("payload", none), ("on_success", none)] []
    let m : Value := ofFields .selector [("root", some .null), ("keys", some (ofFields .action
      [("name", some (.text "a")), ("payload", none), ("on_success", some last)] [])),
      ("default", none), ("prefix", none), ("suffix", none), ("format", none)] []
    IsSound m ∧ m.isModel = true ∧ toWire m ≠ m.wire := by
  intro last m
  have hlast : IsSound last := isSound_action "b" ⟨rfl, rfl⟩ (by simp [IsSound])
  have hm : IsSound m :=
    isSound_selector (isSound_action "a" ⟨rfl, .inr ⟨_, _, _, rfl⟩⟩ hlast)
  obtain ⟨w, hw, hsame⟩ := exists_toWire hm rfl rfl
  refine ⟨hm, rfl, ?_⟩
  intro heq
  have hnone : isSplit m = false := hsame.1 (Except.ok.inj (hw.symm.trans heq))
  have hsplit : isSplit m = true := rfl
  rw [hsplit] at hnone
  cases hnone

end Model
end ViewDoc
