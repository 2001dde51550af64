import ViewDoc.Proofs.KeyedForms
import ViewDoc.Proofs.Styles

/-!
What a style gives, property by property.

Every entry whose value is a selector gives the property of its name, null if nothing is found, and
the others give nothing. No entry sees another, so a style can be cut anywhere and its parts be
resolved apart.
-/

namespace ViewDoc

theorem Value.isShowable_of_isText {v : Value} (h : v.isText = true) : v.isShowable = true := by
  cases v with
  | text s => rfl
  | markup s => rfl
  | _ => cases h

/-- What is a selector in itself is one in plain form. -/
theorem Value.isLevel_of_isSelector {v w : Value} (h : Model.IsSound v) (hw : v.wire = .ok w)
    (hs : v.isSelector = true) : v.isLevel = true := by
  rw [isLevel_of_wire hw]
  cases v with
  | map entries =>
    obtain rfl := Except.ok.inj hw
    exact hs
  | model kind fields given extra =>
    cases kind with
    | selector => exact Model.isSelector_of_isSound h hw
    | action => cases hs
    | node => cases hs
  | _ => cases hs

namespace Style

variable {styles : Entries} {byRoot : Bool}

/-- The entries of a style whose values are selectors in plain form. -/
def selectors (entries : Entries) : Entries := entries.filter fun e => e.2.isLevel

/-- The paths of all selectors of a style are texts or null. -/
def HasTextPaths (entries : Entries) : Prop :=
  ∀ e ∈ entries, ∀ selector : Entries, e.2.wire = .ok (.map selector) →
    (Value.map selector).isSelector = true →
    (selector.get "keys").isText = true ∨ selector.get "keys" = .null

theorem resolveEntries_singleton (e : Value × Value) :
    resolveEntries styles byRoot [e] = resolveEntry styles byRoot e := by
  rw [resolveEntries_eq_mapM, List.mapM_cons]
  cases resolveEntry styles byRoot e with
  | error f => rfl
  | ok p => exact congrArg Except.ok (List.append_nil p)

theorem eq_nil_of_resolveEntry {e : Value × Value} {p : Entries} (hs : e.2.isLevel = false)
    (h : resolveEntry styles byRoot e = .ok p) : p = [] := by
  cases hw : e.2.wire with
  | error f =>
    rw [resolveEntry_of_wire_error hw] at h
    cases h
  | ok w =>
    rw [resolveEntry_of_other hw (Value.isLevel_of_wire hw ▸ hs)] at h
    exact (Except.ok.inj h).symm

theorem exists_selector_of_isLevel {v : Value} (h : v.isLevel = true) : ∃ selector : Entries,
    v.wire = .ok (.map selector) ∧ (Value.map selector).isSelector = true := by
  rw [Value.isLevel] at h
  cases hw : v.wire with
  | error f =>
    rw [hw] at h
    cases h
  | ok w =>
    rw [hw] at h
    obtain ⟨selector, hv, hs⟩ := exists_selector hw h
    exact ⟨selector, hw.symm.trans hv, hs⟩

theorem exists_of_resolveEntry {e : Value × Value} {p : Entries} (hs : e.2.isLevel = true)
    (h : resolveEntry styles byRoot e = .ok p) : ∃ v, p = [(e.1, v)] := by
  obtain ⟨selector, hw, hs⟩ := exists_selector_of_isLevel hs
  rw [resolveEntry_of_selector hw hs] at h
  obtain ⟨v, -, hp⟩ := map_eq_ok_iff.1 h
  exact ⟨v, hp.symm⟩

/-- A style can be cut anywhere. -/
theorem resolveEntries_append (entries more : Entries) :
    resolveEntries styles byRoot (entries ++ more) = (resolveEntries styles byRoot entries).bind
      fun r => (resolveEntries styles byRoot more).map (r ++ ·) := by
  simp only [resolveEntries_eq_mapM, List.mapM_append]
  cases entries.mapM (resolveEntry styles byRoot) with
  | error f => rfl
  | ok ps =>
    cases more.mapM (resolveEntry styles byRoot) with
    | error f => rfl
    | ok qs => exact congrArg Except.ok List.flatten_append

theorem selectors_cons_of_isLevel {e : Value × Value} (h : e.2.isLevel = true)
    (rest : Entries) : selectors (e :: rest) = e :: selectors rest := List.filter_cons_of_pos h

theorem selectors_cons_of_other {e : Value × Value} (h : e.2.isLevel = false)
    (rest : Entries) : selectors (e :: rest) = selectors rest :=
  List.filter_cons_of_neg (Bool.eq_false_iff.1 h)

/-- One property for each selector, with the value that it gives alone. -/
theorem forall₂_of_resolveEntries {entries resolved : Entries}
    (h : resolveEntries styles byRoot entries = .ok resolved) :
    List.Forall₂ (fun e r => r.1 = e.1 ∧ resolveEntries styles byRoot [e] = .ok [r])
      (selectors entries) resolved := by
  rw [resolveEntries_eq_mapM] at h
  obtain ⟨parts, hparts, rfl⟩ := map_eq_ok_iff.1 h
  clear h
  replace hparts := mapM_eq_ok_iff.1 hparts
  induction hparts with
  | nil => exact .nil
  | @cons e p entries parts he _ ih =>
    cases hs : e.2.isLevel with
    | false =>
      obtain rfl := eq_nil_of_resolveEntry hs he
      rw [selectors_cons_of_other hs]
      exact ih
    | true =>
      obtain ⟨v, rfl⟩ := exists_of_resolveEntry hs he
      rw [selectors_cons_of_isLevel hs]
      refine .cons ⟨rfl, ?_⟩ ih
      rw [resolveEntries_singleton, he]

theorem keys_of_forall₂ {entries resolved : Entries}
    (h : List.Forall₂ (fun e r => r.1 = e.1) entries resolved) : resolved.keys = entries.keys := by
  induction h with
  | nil => rfl
  | cons hkey _ ih => exact congrArg₂ (· :: ·) hkey ih

theorem keys_of_resolveEntries {entries resolved : Entries}
    (h : resolveEntries styles byRoot entries = .ok resolved) :
    resolved.keys = (selectors entries).keys :=
  keys_of_forall₂ ((forall₂_of_resolveEntries h).imp fun _ _ h => h.1)

/-- With paths that are texts or null, only models can be in the way of a style. -/
theorem wire_eq_error_of_resolveEntries {entries : Entries} (h : HasTextPaths entries)
    {f : Failure} (hr : resolveEntries styles byRoot entries = .error f) :
    ∃ e ∈ entries, e.2.wire = .error f := by
  obtain ⟨before, e, after, rfl, -, he⟩ := resolveEntries_eq_error_iff.1 hr
  have hmem : e ∈ before ++ e :: after := List.mem_append_right _ List.mem_cons_self
  cases he with
  | depth hw => exact ⟨e, hmem, hw⟩
  | path hw hs _ hlong =>
    rcases h e hmem _ hw hs with htext | hnull
    · rw [Value.isShowable_of_isText htext] at hlong
      cases hlong
    · rw [hnull] at hlong
      cases hlong

theorem resolveEntries_eq_error_of_wire {entries : Entries} (h : HasTextPaths entries)
    (hdeep : ∃ e ∈ entries, e.2.wire = .error .tooDeep) :
    resolveEntries styles byRoot entries = .error .tooDeep := by
  cases hr : resolveEntries styles byRoot entries with
  | error f =>
    obtain ⟨e, -, hw⟩ := wire_eq_error_of_resolveEntries h hr
    rw [Value.eq_tooDeep_of_wire hw]
  | ok resolved =>
    obtain ⟨e, he, hw⟩ := hdeep
    rw [resolveEntries_eq_mapM] at hr
    obtain ⟨parts, hparts, -⟩ := map_eq_ok_iff.1 hr
    obtain ⟨p, -, hp⟩ := exists_of_mapM_eq_ok hparts he
    rw [resolveEntry_of_wire_error hw] at hp
    cases hp

theorem isDistinct_of_resolveEntries {es fs r s : Entries} (h : Table.IsDistinct (es ++ fs))
    (hr : resolveEntries styles byRoot es = .ok r)
    (hs : resolveEntries styles byRoot fs = .ok s) : Table.IsDistinct (r ++ s) := by
  have hkeys : Table.keys (r ++ s) = Table.keys (selectors es ++ selectors fs) := by
    rw [Table.keys_append, Table.keys_append, keys_of_resolveEntries hr, keys_of_resolveEntries hs]
  rw [Table.isDistinct_iff, hkeys]
  have hsub : (selectors es ++ selectors fs).Sublist (es ++ fs) :=
    List.Sublist.append List.filter_sublist List.filter_sublist
  exact (Table.isDistinct_iff.1 h).sublist (hsub.map _)

/-- Maps without a common key: their union gives the union of what they give. -/
theorem resolveEntries_update {es fs : Entries} (h : Table.IsDistinct (es ++ fs)) :
    resolveEntries styles byRoot (Table.update es fs) = (resolveEntries styles byRoot es).bind
      fun r => (resolveEntries styles byRoot fs).map (Table.update r) := by
  rw [Table.update_of_isDistinct h, resolveEntries_append]
  cases hr : resolveEntries styles byRoot es with
  | error f => rfl
  | ok r =>
    cases hs : resolveEntries styles byRoot fs with
    | error f => rfl
    | ok s =>
      have hdistinct := isDistinct_of_resolveEntries h hr hs
      rw [ok_bind, ok_bind, ok_map, ok_map, Table.update_of_isDistinct hdistinct]

theorem resolve_map (styles : Entries) (byRoot : Bool) (entries : Entries) :
    resolve styles byRoot (.map entries) = resolveEntries styles byRoot entries :=
  resolve_of_wire rfl

/-- A style whose paths are texts or null fails only for models that stand too deep inside each
other. Otherwise it resolves to one property for each of its selectors, in their order; every one
has the value that its entry has alone, and all other entries have none. -/
theorem resolve_property_by_property (styles : Entries) (byRoot : Bool) {v : Value}
    {entries : Entries} (hv : v.wire = .ok (.map entries)) (hpaths : HasTextPaths entries) :
    (∀ f, resolve styles byRoot v = .error f ↔
      f = .tooDeep ∧ ∃ e ∈ entries, e.2.wire = .error .tooDeep) ∧
    ((∀ e ∈ entries, e.2.wire ≠ .error .tooDeep) → ∃ resolved : Entries,
      resolve styles byRoot v = .ok resolved ∧ resolved.keys = (selectors entries).keys ∧
      List.Forall₂ (fun e r => resolve styles byRoot (.map [e]) = .ok [r]) (selectors entries)
        resolved) ∧
    (∀ e ∈ entries, e.2.wire ≠ .error .tooDeep → e.2.isLevel = false →
      resolve styles byRoot (.map [e]) = .ok []) ∧
    (∀ e ∈ entries, Model.IsSound e.2 → e.2.wire ≠ .error .tooDeep → e.2.isSelector = true →
      e ∈ selectors entries) ∧
    (∀ es fs : Entries, Table.IsDistinct (es ++ fs) →
      resolve styles byRoot (.map (Table.update es fs)) = (resolve styles byRoot (.map es)).bind
        fun r => (resolve styles byRoot (.map fs)).map (Table.update r)) := by
  have hwire {u : Value} (h : u.wire ≠ .error .tooDeep) : ∃ w, u.wire = .ok w :=
    (Value.exists_wire_or_tooDeep u).resolve_right h
  have herror {f : Failure} (h : resolveEntries styles byRoot entries = .error f) :
      f = .tooDeep ∧ ∃ e ∈ entries, e.2.wire = .error .tooDeep := by
    obtain ⟨e, he, hw⟩ := wire_eq_error_of_resolveEntries hpaths h
    obtain rfl := Value.eq_tooDeep_of_wire hw
    exact ⟨rfl, e, he, hw⟩
  simp only [resolve_map, resolve_of_wire hv]
  refine ⟨?_, ?_, ?_, ?_, ?_⟩
  · intro f
    constructor
    · exact herror
    · intro h
      obtain ⟨rfl, hdeep⟩ := h
      exact resolveEntries_eq_error_of_wire hpaths hdeep
  · intro hall
    cases hr : resolveEntries styles byRoot entries with
    | error f =>
      obtain ⟨-, e, he, hw⟩ := herror hr
      exact absurd hw (hall e he)
    | ok resolved =>
      exact ⟨resolved, rfl, keys_of_resolveEntries hr,
        (forall₂_of_resolveEntries hr).imp fun _ _ h => h.2⟩
  · intro e he hdeep hs
    obtain ⟨w, hw⟩ := hwire hdeep
    rw [resolveEntries_singleton, resolveEntry_of_other hw (Value.isLevel_of_wire hw ▸ hs)]
  · intro e he hsound hdeep hs
    obtain ⟨w, hw⟩ := hwire hdeep
    exact List.mem_filter.2 ⟨he, Value.isLevel_of_isSelector hsound hw hs⟩
  · intro es fs h
    exact resolveEntries_update h

/-- A selector, a literal, a model that finds nothing, and a default that is a list and stands for
itself, in a style and in one that is added to it. -/
theorem resolve_property_by_property_page :
    let dark : Value := .map [(.text "ink", .text "black")]
    let styles : Entries := [(.text "dark", dark)]
    let ink : Value := .map [(.text "root", .text "dark"), (.text "keys", .text "ink"),
      (.text "default", .text "dark")]
    let gap : Value := Model.ofFields .selector [("root", some (.text "dark")),
      ("keys", some .null), ("default", none), ("prefix", none), ("suffix", none),
      ("format", none)] []
    let line : Value := .map [(.text "root", .text "light"), (.text "keys", .null),
      (.text "default", .list [.int 1])]
    let entries : Entries := [(.text "color", ink), (.text "padding", .int 4), (.text "gap", gap)]
    let more : Entries := [(.text "line", line)]
    HasTextPaths entries ∧ Table.IsDistinct (entries ++ more) ∧
      (∃ resolved : Entries, resolve styles false (.map entries) = .ok resolved ∧
        resolved.keys = [.text "color", .text "gap"] ∧
        List.Forall₂ (fun e r => resolve styles false (.map [e]) = .ok [r])
          [(.text "color", ink), (.text "gap", gap)] resolved) ∧
      resolve styles false (.map (Table.update entries more)) = .ok
        [(.text "color", .text "black"), (.text "gap", .null), (.text "line", .list [.int 1])] := by
  intro dark styles ink gap line entries more
  have hpaths : HasTextPaths entries := by
    intro e he selector hw hs
    simp only [entries, List.mem_cons, List.not_mem_nil, or_false] at he
    rcases he with rfl | rfl | rfl
    · obtain rfl := Value.map.inj (Except.ok.inj hw)
      exact .inl rfl
    · cases hw
    · obtain rfl := Value.map.inj (Except.ok.inj hw)
      exact .inr rfl
  have hshallow : ∀ e ∈ entries, e.2.wire ≠ .error .tooDeep := by
    intro e he
    simp only [entries, List.mem_cons, List.not_mem_nil, or_false] at he
    intro hdeep
    rcases he with rfl | rfl | rfl <;> cases hdeep
  have hdistinct : Table.IsDistinct (entries ++ more) := by
    rw [Table.isDistinct_iff]
    decide
  obtain ⟨-, hresolved, -, -, hunion⟩ :=
    resolve_property_by_property styles false (v := .map entries) rfl hpaths
  refine ⟨hpaths, hdistinct, hresolved hshallow, ?_⟩
  rw [hunion entries more hdistinct]
  rfl

/-- A selector with the path of a property, whose default is a chain of 255 actions: no style with
it can be resolved. -/
theorem resolve_deep_default :
    let selector : Value := Model.ofFields .selector [("root", some (.text "colors")),
      ("keys", some (.text "ink")), ("default", some (Model.linked 254)), ("prefix", none),
      ("suffix", none), ("format", none)] []
    let entries : Entries := [(.text "color", selector)]
    HasTextPaths entries ∧ ∀ (styles : Entries) (byRoot : Bool),
      resolve styles byRoot (.map entries) = .error .tooDeep := by
  intro selector entries
  have hdefault (room : Nat) :
      Model.overruns (room + 1) selector = Model.overruns room (Model.linked 254) := by
    simp [selector, Model.ofFields, Model.overruns, Model.meets, Model.meetsField,
      Model.meetsEntry, ModelKind.nests, ModelKind.roomInside, Model.depthOf, Model.declared,
      Model.selectorFields, Model.Rule.depth, Value.text?]
  have hover : Model.overruns (Model.nestingLimit + 1) selector = true := by
    rw [hdefault, Model.nestingLimit, Model.overruns_linked]
    rfl
  have hdeep : selector.wire = .error .tooDeep := Model.plain_eq_error_iff.2 ⟨rfl, hover⟩
  have hpaths : HasTextPaths entries := by
    intro e he s hw
    obtain rfl := List.mem_singleton.1 he
    rw [hdeep] at hw
    cases hw
  refine ⟨hpaths, ?_⟩
  intro styles byRoot
  rw [resolve_map]
  exact resolveEntries_eq_error_of_wire hpaths ⟨_, List.mem_cons_self, hdeep⟩

end Style
end ViewDoc
