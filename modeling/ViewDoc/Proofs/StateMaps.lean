import ViewDoc.Proofs.Refusals
import ViewDoc.Proofs.StyleProperties
import ViewDoc.State

/-!
What a state gives, entry by entry.

Only lists of selectors are resolved, and everything else is copied, also the lists that a variable
would refuse: those that mix selectors with other things. So a state is never lost over a level that
is no selector, and for all other values it makes no difference which of the two was done.
-/

namespace ViewDoc

namespace Value

/-- A list with at least one item, all items being selectors in plain form. -/
def IsSelectorList (v : Value) : Prop :=
  ∃ items, v.items? = some items ∧ items ≠ [] ∧ ∀ item ∈ items, item.isLevel = true

/-- A list with a plain form that holds selectors and other things. -/
def IsMixed (v : Value) : Prop :=
  (∃ w, v.wire = .ok w) ∧ ∃ items, v.items? = some items ∧
    (∃ item ∈ items, item.isLevel = true) ∧ ∃ item ∈ items, item.isLevel = false

theorem isDynamic_of_wire {v w : Value} {items : List Value} (hw : v.wire = .ok w)
    (hi : v.items? = some items) :
    w.isDynamic = (!items.isEmpty && items.all isLevel) := by
  obtain ⟨levels, hl⟩ := exists_items?_of_wire hw hi
  have hmap := map_isSelector_of_wire hw hi hl
  have hempty : levels.isEmpty = items.isEmpty := by
    rw [← List.isEmpty_map (f := isSelector), hmap, List.isEmpty_map]
  have hall (f : Value → Bool) (vs : List Value) : vs.all f = (vs.map f).all id := by
    rw [List.all_map]
    rfl
  rw [isDynamic, hl]
  dsimp only
  rw [hempty, hall isSelector, hmap, ← hall]

/-- A value is taken as a dynamic variable if and only if it is a list of selectors. -/
theorem isDynamic_iff_of_wire {v w : Value} (hw : v.wire = .ok w) :
    w.isDynamic = true ↔ v.IsSelectorList := by
  cases hi : v.items? with
  | none =>
    have hitems := items?_of_wire hw
    rw [hi] at hitems
    simp [isDynamic, hitems, IsSelectorList, hi]
  | some items => simp [isDynamic_of_wire hw hi, IsSelectorList, hi]

theorem not_isMixed_of_isSelectorList {v : Value} (h : v.IsSelectorList) : ¬ v.IsMixed := by
  obtain ⟨items, hi, -, hall⟩ := h
  rintro ⟨-, items', hi', -, item, hitem, hother⟩
  obtain rfl := Option.some.inj (hi.symm.trans hi')
  rw [hall item hitem] at hother
  cases hother

/-- Selectors, as maps or as models, are a list of selectors, if they can all be written. -/
theorem isSelectorList_of_selectors {v : Value} {items : List Value} (hi : v.items? = some items)
    (hne : items ≠ []) (h : ∀ item ∈ items, Model.IsSound item ∧ item.isSelector = true ∧
      ∃ w, item.wire = .ok w) : v.IsSelectorList := by
  refine ⟨items, hi, hne, ?_⟩
  intro item hitem
  obtain ⟨hsound, hs, w, hw⟩ := h item hitem
  exact isLevel_of_isSelector hsound hw hs

end Value

namespace Variable

variable {c : Clock} {roots : Entries}

theorem isMixed_of_levels? {v w : Value} {levels : List Value} (hw : v.wire = .ok w)
    (h : levels? w = some levels) (hother : ¬ v.IsSelectorList) : v.IsMixed := by
  obtain ⟨hl, hs⟩ := levels?_eq_some_iff.1 h
  cases hi : v.items? with
  | none =>
    have hitems := Value.items?_of_wire hw
    rw [hi] at hitems
    cases hitems.symm.trans hl
  | some items =>
    have hsome := (Value.exists_level_iff hw hi hl true).1 hs
    refine ⟨⟨w, hw⟩, items, hi, hsome, ?_⟩
    by_contra hnone
    obtain ⟨item, hitem, -⟩ := hsome
    refine hother ⟨items, hi, List.ne_nil_of_mem hitem, fun item hitem => ?_⟩
    rw [← Bool.not_eq_false]
    exact fun hf => hnone ⟨item, hitem, hf⟩

end Variable

namespace State

variable {c : Clock} {roots : Entries}

/-- The value that an entry of a state is given. -/
def given (resolveVariable : Value → Outcome Value) (v : Value) : Except Failure Value :=
  v.wire.bind fun w => if w.isDynamic then (resolveVariable v).result else .ok v

theorem result_resolveEntries_cons (resolveVariable : Value → Outcome Value) (e : Value × Value)
    (rest : Entries) :
    (resolveEntries resolveVariable (e :: rest)).result =
      (given resolveVariable e.2).bind fun w =>
        (resolveEntries resolveVariable rest).result.map ((e.1, w) :: ·) := by
  obtain ⟨name, v⟩ := e
  have hrest (w : Value) : (do
      return (name, w) :: (← resolveEntries resolveVariable rest) : Outcome Entries).result =
        (resolveEntries resolveVariable rest).result.map ((name, w) :: ·) := by
    rw [Outcome.result_bind]
    cases (resolveEntries resolveVariable rest).result <;> rfl
  rw [resolveEntries, given]
  cases v.wire with
  | error f => rfl
  | ok w =>
    simp only [Outcome.liftM_ok_bind, ok_bind]
    split
    · rw [Outcome.result_bind]
      simp only [hrest]
    · rw [Outcome.result_bind]
      simp only [hrest, Outcome.result_pure, ok_bind]

theorem result_resolveEntries (resolveVariable : Value → Outcome Value) (entries : Entries) :
    (resolveEntries resolveVariable entries).result =
      entries.mapM fun e => (given resolveVariable e.2).map fun w => (e.1, w) := by
  induction entries with
  | nil => rfl
  | cons e rest ih =>
    rw [List.mapM_cons, ← ih, result_resolveEntries_cons]
    cases given resolveVariable e.2 with
    | error f => rfl
    | ok w => cases (resolveEntries resolveVariable rest).result <;> rfl

theorem result_resolve_map (resolveVariable : Value → Outcome Value) (entries : Entries) :
    (resolve resolveVariable (.map entries)).result =
      (resolveEntries resolveVariable entries).result.map .map := by
  cases entries with
  | nil => rfl
  | cons e rest =>
    have hresolve : (resolve resolveVariable (.map (e :: rest))).result =
        (resolveEntries resolveVariable (e :: rest)).result.bind fun r => .ok (.map r) := by
      simp [resolve, Value.truthy, Value.entries, Value.entries?]
    rw [hresolve]
    cases (resolveEntries resolveVariable (e :: rest)).result <;> rfl

theorem given_of_isSelectorList {v w : Value} (hw : v.wire = .ok w) (h : v.IsSelectorList)
    (resolveVariable : Value → Outcome Value) :
    given resolveVariable v = (resolveVariable v).result := by
  rw [given, hw, ok_bind, if_pos ((Value.isDynamic_iff_of_wire hw).2 h)]

theorem given_of_other {v w : Value} (hw : v.wire = .ok w) (h : ¬ v.IsSelectorList)
    (resolveVariable : Value → Outcome Value) : given resolveVariable v = .ok v := by
  rw [given, hw, ok_bind, if_neg (mt (Value.isDynamic_iff_of_wire hw).1 h)]

/-- Only for a mixed list it matters that it is copied. -/
theorem given_of_not_isMixed {v : Value} (h : ¬ v.IsMixed) :
    given (Variable.resolve c roots) v = (Variable.resolve c roots v).result := by
  cases hw : v.wire with
  | error f =>
    rw [given, hw, Variable.resolve_of_wire_error hw]
    rfl
  | ok w =>
    by_cases hs : v.IsSelectorList
    · exact given_of_isSelectorList hw hs _
    · -- a value without selectors stands for itself as a variable too
      have hlevels : Variable.levels? w = none := by
        apply Option.eq_none_iff_forall_ne_some.2
        intro levels hl
        exact h (Variable.isMixed_of_levels? hw hl hs)
      rw [given_of_other hw hs, Variable.resolve_of_levels?_eq_none hw hlevels]
      rfl

/-- An entry cannot be given a value: it stands too deep to be written, or it is a list of selectors
that cannot be resolved. -/
inductive Fails (c : Clock) (roots : Entries) (v : Value) : Failure → Prop
  | depth {f : Failure} : v.wire = .error f → Fails c roots v f
  | levels {f : Failure} : v.IsSelectorList → Variable.IsOverflowing c roots v f →
      Fails c roots v f

theorem Fails.kind {v : Value} {f : Failure} (h : Fails c roots v f) :
    f = .tooDeep ∨ f = .tooManyDigits ∨ f = .outsideCalendar := by
  cases h with
  | depth h => exact .inl (Value.eq_tooDeep_of_wire h)
  | levels _ h => exact Variable.kind_of_isOverflowing h

theorem Fails.ne_notSelector {v : Value} {f : Failure} (h : Fails c roots v f)
    (level reported : Value) : f ≠ .notSelector level reported := by
  rcases h.kind with rfl | rfl | rfl <;> simp

theorem given_eq_error_iff {v : Value} {f : Failure} :
    given (Variable.resolve c roots) v = .error f ↔ Fails c roots v f := by
  cases hw : v.wire with
  | error g =>
    have hgiven : given (Variable.resolve c roots) v = .error g := by
      rw [given, hw]
      rfl
    rw [hgiven, Except.error.injEq]
    constructor
    · rintro rfl
      exact .depth hw
    · intro h
      cases h with
      | depth h => exact Except.error.inj (hw.symm.trans h)
      | levels _ h =>
        cases h with
        | depth h => exact Except.error.inj (hw.symm.trans h)
        | levels h => cases hw.symm.trans h
  | ok w =>
    constructor
    · intro h
      by_cases hs : v.IsSelectorList
      · rw [given_of_isSelectorList hw hs] at h
        refine .levels hs ((Variable.result_resolve_eq_error_iff ?_).1 h)
        rintro level reported rfl
        obtain ⟨levels, -, hl, hall⟩ :=
          Variable.levels?_of_isDynamic ((Value.isDynamic_iff_of_wire hw).2 hs)
        exact Variable.resolve_ne_notSelector hw hl hall level reported h
      · rw [given_of_other hw hs] at h
        cases h
    · intro h
      have hf := h.ne_notSelector
      cases h with
      | depth h => cases hw.symm.trans h
      | levels hs h =>
        rw [given_of_isSelectorList hw hs]
        exact (Variable.result_resolve_eq_error_iff hf).2 h

theorem exists_given_iff {v : Value} :
    (∃ w, given (Variable.resolve c roots) v = .ok w) ↔ ∀ f, ¬ Fails c roots v f := by
  simp only [← given_eq_error_iff]
  cases given (Variable.resolve c roots) v with
  | ok w => simp
  | error f => simp

/-- The first list of selectors that fails is what a state fails with. -/
theorem result_resolve_eq_error_iff {entries : Entries} {f : Failure} :
    (resolve (Variable.resolve c roots) (.map entries)).result = .error f ↔
      ∃ before e rest, entries = before ++ e :: rest ∧
        (∀ x ∈ before, ∀ g, ¬ Fails c roots x.2 g) ∧ Fails c roots e.2 f := by
  rw [result_resolve_map, map_eq_error_iff, result_resolveEntries, mapM_eq_error_iff]
  simp only [map_eq_error_iff, given_eq_error_iff, map_eq_ok_iff]
  have hbefore (x : Value × Value) :
      (∃ r w, given (Variable.resolve c roots) x.2 = .ok w ∧ (x.1, w) = r) ↔
        ∀ g, ¬ Fails c roots x.2 g := by
    rw [← exists_given_iff]
    simp
  simp only [hbefore]

/-- What a state gives for one of its entries. -/
structure Settles (c : Clock) (roots : Entries) (e r : Value × Value) : Prop where
  key : r.1 = e.1
  resolved : ¬ e.2.IsMixed → (Variable.resolve c roots e.2).result = .ok r.2
  mixed : e.2.IsMixed → r.2 = e.2
  literal : ¬ e.2.IsSelectorList → r.2 = e.2

theorem entry_eq_ok_iff {e r : Value × Value} :
    (given (Variable.resolve c roots) e.2).map (fun w => (e.1, w)) = .ok r ↔
      Settles c roots e r := by
  rw [map_eq_ok_iff]
  constructor
  · rintro ⟨w, hw, rfl⟩
    obtain ⟨u, hu, -⟩ := bind_eq_ok_iff.1 hw
    have hliteral (h : ¬ e.2.IsSelectorList) : w = e.2 := by
      rw [given_of_other hu h] at hw
      exact (Except.ok.inj hw).symm
    refine ⟨rfl, ?_, ?_, hliteral⟩
    · intro hm
      rw [← given_of_not_isMixed hm, hw]
    · intro hm
      exact hliteral fun hs => Value.not_isMixed_of_isSelectorList hs hm
  · intro h
    refine ⟨r.2, ?_, Prod.ext h.key.symm rfl⟩
    by_cases hm : e.2.IsMixed
    · obtain ⟨u, hu⟩ := hm.1
      rw [given_of_other hu fun hs => Value.not_isMixed_of_isSelectorList hs hm, h.mixed hm]
    · rw [given_of_not_isMixed hm, h.resolved hm]

theorem result_resolve_eq_ok_iff {entries : Entries} {out : Value} :
    (resolve (Variable.resolve c roots) (.map entries)).result = .ok out ↔
      ∃ resolved : Entries, out = .map resolved ∧
        List.Forall₂ (Settles c roots) entries resolved := by
  rw [result_resolve_map, map_eq_ok_iff, result_resolveEntries]
  simp only [mapM_eq_ok_iff, entry_eq_ok_iff]
  constructor
  · rintro ⟨resolved, h, rfl⟩
    exact ⟨resolved, rfl, h⟩
  · rintro ⟨resolved, rfl, h⟩
    exact ⟨resolved, h, rfl⟩

/-- A state resolves unless one of its lists of selectors fails. -/
theorem exists_result_resolve_iff {entries : Entries} :
    (∃ out, (resolve (Variable.resolve c roots) (.map entries)).result = .ok out) ↔
      ∀ e ∈ entries, ∀ f, ¬ Fails c roots e.2 f := by
  constructor
  · rintro ⟨out, hout⟩ e he f hf
    obtain ⟨resolved, -, h⟩ := result_resolve_eq_ok_iff.1 hout
    obtain ⟨r, -, hr⟩ := exists_right_of_forall₂ h he
    have herror := given_eq_error_iff.2 hf
    have hok := entry_eq_ok_iff.2 hr
    rw [herror] at hok
    cases hok
  · intro h
    cases hr : (resolve (Variable.resolve c roots) (.map entries)).result with
    | ok out => exact ⟨out, rfl⟩
    | error f =>
      obtain ⟨before, e, rest, rfl, -, hf⟩ := result_resolve_eq_error_iff.1 hr
      exact absurd hf (h e (List.mem_append_right _ List.mem_cons_self) f)

/-- A state has an entry for each of its own, resolved if it is a list of selectors and copied if it
mixes them with other things; it is never refused, and only lost where an entry stands too deep or a
list of selectors is lost. -/
theorem resolve_entry_by_entry (c : Clock) (roots entries : Entries) :
    let result := (resolve (Variable.resolve c roots) (.map entries)).result
    (∀ level reported, result ≠ .error (.notSelector level reported)) ∧
    (∀ out, result = .ok out ↔ ∃ resolved : Entries, out = .map resolved ∧
      List.Forall₂ (Settles c roots) entries resolved) ∧
    (∀ resolved : Entries, result = .ok (.map resolved) → resolved.keys = entries.keys) ∧
    ((∃ out, result = .ok out) ↔ ∀ e ∈ entries, ∀ f, ¬ Fails c roots e.2 f) ∧
    (∀ f, result = .error f ↔ (f = .tooDeep ∨ f = .tooManyDigits ∨ f = .outsideCalendar) ∧
      ∃ before e rest, entries = before ++ e :: rest ∧
        (∀ x ∈ before, ∀ g, ¬ Fails c roots x.2 g) ∧ Fails c roots e.2 f) ∧
    (∀ e ∈ entries, ∀ items, e.2.items? = some items → items ≠ [] →
      (∀ item ∈ items, Model.IsSound item ∧ item.isSelector = true ∧
        ∃ w, item.wire = .ok w) → e.2.IsSelectorList) := by
  intro result
  refine ⟨?_, ?_, ?_, exists_result_resolve_iff, ?_, ?_⟩
  · intro level reported h
    obtain ⟨-, e, -, -, -, hf⟩ := result_resolve_eq_error_iff.1 h
    exact hf.ne_notSelector level reported rfl
  · intro out
    exact result_resolve_eq_ok_iff
  · intro resolved h
    obtain ⟨resolved', hmap, h⟩ := result_resolve_eq_ok_iff.1 h
    obtain rfl := Value.map.inj hmap
    exact Style.keys_of_forall₂ (h.imp fun _ _ h => h.key)
  · intro f
    constructor
    · intro h
      obtain ⟨before, e, rest, hentries, hbefore, hf⟩ := result_resolve_eq_error_iff.1 h
      exact ⟨hf.kind, before, e, rest, hentries, hbefore, hf⟩
    · rintro ⟨-, h⟩
      exact result_resolve_eq_error_iff.2 h
  · intro e _ items hi hne h
    exact Value.isSelectorList_of_selectors hi hne h

/-- A model and a map, a mixed list, a selector that is no list, and an empty list. -/
theorem resolve_entry_by_entry_page :
    let c : Clock := ⟨0, ⟨.first, none⟩, false⟩
    let roots : Entries := [(.text "@state", .map [(.text "x", .text "hi")])]
    let level : Value := .map [(.text "root", .text "@state"), (.text "keys", .text "x")]
    let model : Value := .model .selector
      [(.text "root", .text "@state"), (.text "keys", .text "x")] ["root", "keys"] []
    let entries : Entries := [(.text "a", .list [model, level]), (.text "b", .list [level, .int 3]),
      (.text "c", level), (.text "d", .tuple [])]
    let resolved : Entries := [(.text "a", .text "hihi"), (.text "b", .list [level, .int 3]),
      (.text "c", level), (.text "d", .tuple [])]
    (resolve (Variable.resolve c roots) (.map entries)).result = .ok (.map resolved) ∧
      List.Forall₂ (Settles c roots) entries resolved ∧ resolved.keys = entries.keys ∧
      (Value.list [model, level]).IsSelectorList ∧ (Value.list [level, .int 3]).IsMixed := by
  intro c roots level model entries resolved
  have hresult : (resolve (Variable.resolve c roots) (.map entries)).result =
      .ok (.map resolved) := rfl
  obtain ⟨-, hok, hkeys, -, -, -⟩ := resolve_entry_by_entry c roots entries
  obtain ⟨resolved', hmap, hsettles⟩ := (hok _).1 hresult
  obtain rfl := Value.map.inj hmap
  refine ⟨hresult, hsettles, hkeys _ hresult, (Value.isDynamic_iff_of_wire rfl).1 rfl,
    ⟨_, rfl⟩, _, rfl, ?_, ?_⟩
  · exact ⟨level, List.mem_cons_self, rfl⟩
  · exact ⟨.int 3, List.mem_cons_of_mem _ List.mem_cons_self, rfl⟩

/-- A state is lost over a chain of 256 actions, which is no list and in no need of resolving. -/
theorem resolve_too_deep_literal :
    let chain := Model.linked 255
    ¬ chain.IsSelectorList ∧ ¬ chain.IsMixed ∧ ∀ (c : Clock) (roots : Entries),
      (resolve (Variable.resolve c roots) (.map [(.text "a", chain)])).result =
        .error .tooDeep := by
  intro chain
  have hnone : chain.items? = none := rfl
  have hw : chain.wire = .error .tooDeep :=
    Value.wire_linked_eq_error_iff.2 ⟨rfl, Nat.le_refl _⟩
  refine ⟨?_, ?_, ?_⟩
  · rintro ⟨items, hi, -⟩
    cases hnone.symm.trans hi
  · rintro ⟨-, items, hi, -⟩
    cases hnone.symm.trans hi
  · intro c roots
    exact result_resolve_eq_error_iff.2 ⟨[], _, [], rfl, by simp, .depth hw⟩

end State
end ViewDoc
