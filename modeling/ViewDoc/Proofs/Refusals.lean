import ViewDoc.Proofs.ResolverFailures

/-!
Which levels a dynamic variable is refused for.

A value without selectors stands for itself. A list that mixes selectors with other things never
resolves: the first of the other things is reported, together with the whole list, as soon as the
levels before it are taken up.
-/

namespace ViewDoc

namespace Value

/-- Some item of a list is a selector in plain form, or is none, just as the levels are. -/
theorem exists_level_iff {v w : Value} {items levels : List Value} (h : v.wire = .ok w)
    (hi : v.items? = some items) (hl : w.items? = some levels) (b : Bool) :
    (∃ level ∈ levels, level.isSelector = b) ↔ ∃ item ∈ items, item.isLevel = b := by
  have hmap := map_isSelector_of_wire h hi hl
  have hlevels : b ∈ levels.map isSelector ↔ ∃ level ∈ levels, level.isSelector = b :=
    List.mem_map
  have hitems : b ∈ items.map isLevel ↔ ∃ item ∈ items, item.isLevel = b := List.mem_map
  rw [← hlevels, ← hitems, hmap]

end Value

namespace Variable

variable {c : Clock} {roots : Entries} {context : Value}

theorem result_resolveLevels_append {before : List Value}
    (hb : ∀ level ∈ before, level.isSelector = true) (a : Accumulator) (rest : List Value) :
    (resolveLevels c roots context a (before ++ rest)).result =
      (resolveLevels c roots context a before).result.bind fun b =>
        (resolveLevels c roots context b rest).result := by
  induction before generalizing a with
  | nil => rfl
  | cons level before ih =>
    have hl := hb level List.mem_cons_self
    have ih := ih fun l h => hb l (List.mem_cons_of_mem _ h)
    rw [List.cons_append, result_resolveLevels_cons hl, result_resolveLevels_cons hl]
    cases (Level.said c roots level).result with
    | error f => rfl
    | ok body =>
      rw [ok_bind, ok_bind]
      cases a.step body with
      | error f => rfl
      | ok b => exact ih b

/-- Levels that are all selectors are never reported as something else. -/
theorem resolveLevels_ne_notSelector {levels : List Value}
    (hs : ∀ level ∈ levels, level.isSelector = true)
    (hm : ∀ level ∈ levels, level.isModel = false) (a : Accumulator) (level reported : Value) :
    (resolveLevels c roots context a levels).result ≠ .error (.notSelector level reported) := by
  induction levels generalizing a with
  | nil => simp [resolveLevels]
  | cons head rest ih =>
    have hhead := hs head List.mem_cons_self
    have ih := ih (fun l h => hs l (List.mem_cons_of_mem _ h))
      fun l h => hm l (List.mem_cons_of_mem _ h)
    intro h
    rw [result_resolveLevels_cons hhead, bind_eq_error_iff] at h
    rcases h with h | ⟨body, -, h⟩
    · obtain ⟨entries, rfl⟩ := Value.exists_map_of_isSelector (hm head List.mem_cons_self) hhead
      rcases Level.kind_of_breaks (Level.result_said_eq_error_iff.1 h) with hf | hf <;> cases hf
    rcases bind_eq_error_iff.1 h with h | ⟨b, -, h⟩
    · cases (Accumulator.step_eq_error_iff.1 h).1
    · exact ih b h

theorem finish_ne_notSelector (a : Accumulator) (level reported : Value) :
    a.finish ≠ .error (.notSelector level reported) := by
  intro h
  rw [Accumulator.finish_eq] at h
  cases (Accumulator.combine_eq_error_iff.1 h).1

/-- Up to its first level that is no selector, a list is taken up as usual. -/
structure BreaksOff (levels before : List Value) (level : Value) (rest : List Value) : Prop where
  levels : levels = before ++ level :: rest
  before : ∀ l ∈ before, l.isSelector = true
  level : level.isSelector = false

theorem exists_breaksOff {levels : List Value} (h : ∃ level ∈ levels, level.isSelector = false) :
    ∃ before level rest, BreaksOff levels before level rest := by
  induction levels with
  | nil =>
    obtain ⟨level, hl, -⟩ := h
    cases hl
  | cons head tail ih =>
    cases hs : head.isSelector with
    | false => exact ⟨[], head, tail, rfl, by simp, hs⟩
    | true =>
      have htail : ∃ level ∈ tail, level.isSelector = false := by
        obtain ⟨level, hl, hf⟩ := h
        rcases List.mem_cons.1 hl with rfl | hl
        · rw [hs] at hf
          cases hf
        · exact ⟨level, hl, hf⟩
      obtain ⟨before, level, rest, rfl, hb, hf⟩ := ih htail
      refine ⟨head :: before, level, rest, rfl, ?_, hf⟩
      intro l hl
      rcases List.mem_cons.1 hl with rfl | hl
      · exact hs
      · exact hb l hl

theorem levels?_eq_some_iff {v : Value} {levels : List Value} :
    levels? v = some levels ↔
      v.items? = some levels ∧ ∃ level ∈ levels, level.isSelector = true := by
  rw [levels?]
  cases v.items? with
  | none => simp
  | some items =>
    rw [Option.bind_some, ← List.any_eq_true]
    constructor
    · intro h
      split at h
      · rename_i ha
        obtain rfl := Option.some.inj h
        exact ⟨rfl, ha⟩
      · cases h
    · intro h
      obtain ⟨hi, ha⟩ := h
      obtain rfl := Option.some.inj hi
      rw [if_pos ha]

/-- Nothing behind the level that a list breaks off at matters. -/
theorem result_resolve_of_breaksOff {v w : Value} {levels before rest : List Value} {level : Value}
    (hw : v.wire = .ok w) (hl : levels? w = some levels)
    (h : BreaksOff levels before level rest) :
    (resolve c roots v).result = (resolveLevels c roots w .start before).result.bind fun _ =>
      .error (Failure.ofLevel level w) := by
  have hother (a : Accumulator) : (resolveLevels c roots w a (level :: rest)).result =
      .error (Failure.ofLevel level w) := by
    simp [resolveLevels, h.level]
  rw [result_resolve_of_levels? hw hl, h.levels, result_resolveLevels_append h.before]
  cases (resolveLevels c roots w .start before).result with
  | error f => rfl
  | ok a => rw [ok_bind, ok_bind, hother, error_bind]

theorem resolve_ne_notSelector {v w : Value} {levels : List Value} (hw : v.wire = .ok w)
    (hl : levels? w = some levels) (hs : ∀ level ∈ levels, level.isSelector = true)
    (level reported : Value) :
    (resolve c roots v).result ≠ .error (.notSelector level reported) := by
  have hm : ∀ l ∈ levels, l.isModel = false := by
    intro l hlevel
    exact Value.isModel_of_mem_items? hw (levels?_eq_some_iff.1 hl).1 hlevel
  intro h
  rw [result_resolve_of_levels? hw hl, bind_eq_error_iff] at h
  rcases h with h | ⟨a, -, h⟩
  · exact resolveLevels_ne_notSelector hs hm _ level reported h
  · exact finish_ne_notSelector a level reported h

theorem ofLevel_eq_notSelector_iff {level context l reported : Value} :
    Failure.ofLevel level context = .notSelector l reported ↔
      level = l ∧ context = reported ∧ (level.isQuotable && context.isQuotable) = true := by
  rw [Failure.ofLevel]
  split
  · rename_i hq
    simp [hq]
  · rename_i hq
    simp [hq]

/-- The report names the level that the plain list breaks off at, and that list. -/
theorem result_resolve_eq_notSelector_iff {v w level reported : Value} (hw : v.wire = .ok w) :
    (resolve c roots v).result = .error (.notSelector level reported) ↔
      reported = w ∧ ∃ levels before rest, levels? w = some levels ∧
        BreaksOff levels before level rest ∧ (level.isQuotable && w.isQuotable) = true ∧
        ∃ a, (resolveLevels c roots w .start before).result = .ok a := by
  constructor
  · intro h
    cases hl : levels? w with
    | none =>
      rw [resolve_of_levels?_eq_none hw hl] at h
      cases h
    | some levels =>
      by_cases hs : ∀ l ∈ levels, l.isSelector = true
      · exact absurd h (resolve_ne_notSelector hw hl hs level reported)
      have hother : ∃ l ∈ levels, l.isSelector = false := by
        push Not at hs
        obtain ⟨l, hl, hf⟩ := hs
        exact ⟨l, hl, Bool.eq_false_iff.2 hf⟩
      obtain ⟨before, other, rest, hb⟩ := exists_breaksOff hother
      have hm : ∀ l ∈ before, l.isModel = false := by
        intro l hlevel
        apply Value.isModel_of_mem_items? hw (levels?_eq_some_iff.1 hl).1
        rw [hb.levels]
        exact List.mem_append_left _ hlevel
      rw [result_resolve_of_breaksOff hw hl hb, bind_eq_error_iff] at h
      rcases h with h | ⟨a, ha, h⟩
      · exact absurd h (resolveLevels_ne_notSelector hb.before hm _ level reported)
      · obtain ⟨rfl, rfl, hq⟩ := ofLevel_eq_notSelector_iff.1 (Except.error.inj h)
        exact ⟨rfl, levels, before, rest, rfl, hb, hq, a, ha⟩
  · intro h
    obtain ⟨rfl, levels, before, rest, hl, hb, hq, a, ha⟩ := h
    rw [result_resolve_of_breaksOff hw hl hb, ha, ok_bind,
      ofLevel_eq_notSelector_iff.2 ⟨rfl, rfl, hq⟩]

/-- A value whose models stand too deep inside each other resolves to nothing. Among the others,
what holds no selector resolves to itself and a mixed list to nothing; and what is reported is
always the first level that is no selector, of a list that holds one. -/
theorem resolve_literal_or_first_other (c : Clock) (roots : Entries) (v : Value) :
    (∀ f, v.wire = .error f → resolve c roots v = .fail .tooDeep) ∧
    ((∀ items, v.items? = some items → ∀ item ∈ items, item.isLevel = false) →
      ∀ w, v.wire = .ok w → resolve c roots v = return v) ∧
    (∀ items, v.items? = some items → (∃ item ∈ items, item.isLevel = true) →
      (∃ item ∈ items, item.isLevel = false) → ∀ w, (resolve c roots v).result ≠ .ok w) ∧
    (∀ level reported, (resolve c roots v).result = .error (.notSelector level reported) ↔
      v.wire = .ok reported ∧ ∃ before rest,
        reported.items? = some (before ++ level :: rest) ∧
        (∀ l ∈ before, l.isSelector = true) ∧
        level.isSelector = false ∧ (∃ l ∈ before ++ level :: rest, l.isSelector = true) ∧
        (level.isQuotable = true ∧ reported.isQuotable = true) ∧
        ∃ a, (resolveLevels c roots reported .start before).result = .ok a) ∧
    (∀ w, v.wire = .ok w → w.isDynamic = true →
      ∀ level reported, (resolve c roots v).result ≠ .error (.notSelector level reported)) := by
  have hitems {w : Value} {levels : List Value} (hw : v.wire = .ok w)
      (hl : w.items? = some levels) : ∃ items, v.items? = some items := by
    have hi := Value.items?_of_wire hw
    cases hv : v.items? with
    | none =>
      rw [hv] at hi
      rw [hi] at hl
      cases hl
    | some items => exact ⟨items, rfl⟩
  refine ⟨?_, ?_, ?_, ?_, ?_⟩
  · intro f hw
    rw [resolve_of_wire_error hw, Value.eq_tooDeep_of_wire hw]
  · intro hnone w hw
    apply resolve_of_levels?_eq_none hw
    apply Option.eq_none_iff_forall_ne_some.2
    intro levels h
    obtain ⟨hl, hs⟩ := levels?_eq_some_iff.1 h
    obtain ⟨items, hi⟩ := hitems hw hl
    obtain ⟨item, hitem, hs⟩ := (Value.exists_level_iff hw hi hl true).1 hs
    rw [hnone items hi item hitem] at hs
    cases hs
  · intro items hi hs hother r h
    rcases Value.exists_wire_or_tooDeep v with ⟨w, hw⟩ | hw
    · obtain ⟨levels, hl⟩ := Value.exists_items?_of_wire hw hi
      have hlevels : levels? w = some levels :=
        levels?_eq_some_iff.2 ⟨hl, (Value.exists_level_iff hw hi hl true).2 hs⟩
      obtain ⟨before, level, rest, hb⟩ :=
        exists_breaksOff ((Value.exists_level_iff hw hi hl false).2 hother)
      rw [result_resolve_of_breaksOff hw hlevels hb] at h
      obtain ⟨a, -, h⟩ := bind_eq_ok_iff.1 h
      cases h
    · rw [resolve_of_wire_error hw] at h
      cases h
  · intro level reported
    rcases Value.exists_wire_or_tooDeep v with ⟨w, hw⟩ | hw
    · rw [result_resolve_eq_notSelector_iff hw, ← Bool.and_eq_true, hw, Except.ok.injEq, eq_comm]
      refine and_congr_right fun hsame => ?_
      subst hsame
      constructor
      · intro h
        obtain ⟨levels, before, rest, hl, ⟨rfl, hb, hf⟩, hq, ha⟩ := h
        obtain ⟨hl, hs⟩ := levels?_eq_some_iff.1 hl
        exact ⟨before, rest, hl, hb, hf, hs, hq, ha⟩
      · intro h
        obtain ⟨before, rest, hl, hb, hf, hs, hq, ha⟩ := h
        exact ⟨_, before, rest, levels?_eq_some_iff.2 ⟨hl, hs⟩, ⟨rfl, hb, hf⟩, hq, ha⟩
    · rw [resolve_of_wire_error hw, hw]
      simp
  · intro w hw hd level reported
    obtain ⟨levels, -, hl, hs⟩ := levels?_of_isDynamic hd
    exact resolve_ne_notSelector hw hl hs level reported

/-- A model among the levels, an object that is held back, and a map with one of the two fields. -/
theorem resolve_literal_or_first_other_user :
    let c : Clock := ⟨0, ⟨.first, none⟩, false⟩
    let roots : Entries := [(.text "@user", .map [(.text "name", .text "Ada")])]
    let model : Value := .model .selector
      [(.text "root", .text "@user"), (.text "keys", .text "")] ["root", "keys"] []
    let wire : Value := .map [(.text "root", .text "@user"), (.text "keys", .text "")]
    let half : Value := .map [(.text "root", .text "@user")]
    (resolve c roots (.list [half, .text "b"]) = return .list [half, .text "b"]) ∧
      (∀ w, (resolve c roots (.list [model, half, model])).result ≠ .ok w) ∧
      (resolve c roots (.list [model, half, model])).result =
        .error (.notSelector half (.list [wire, half, wire])) ∧
      (∀ level reported,
        (resolve c roots (.list [model])).result ≠ .error (.notSelector level reported)) := by
  intro c roots model wire half
  have hmixed := resolve_literal_or_first_other c roots (.list [model, half, model])
  refine ⟨?_, ?_, ?_, ?_⟩
  · apply (resolve_literal_or_first_other c roots (.list [half, .text "b"])).2.1 _ _ rfl
    intro items hi
    obtain rfl := Option.some.inj hi
    decide
  · apply hmixed.2.2.1 [model, half, model] rfl
    · exact ⟨model, by simp, by decide⟩
    · exact ⟨half, by simp, by decide⟩
  · apply (hmixed.2.2.2.1 half _).2
    refine ⟨rfl, [wire], [wire], rfl, ?_, rfl, ⟨wire, by simp, by decide⟩, ⟨rfl, rfl⟩, _, rfl⟩
    decide
  · exact (resolve_literal_or_first_other c roots (.list [model])).2.2.2.2 _ rfl (by decide)

/-- A chain of 256 actions is no list, but does not resolve to itself. -/
theorem resolve_ne_return_of_chain :
    (Model.linked 255).items? = none ∧ ∀ (c : Clock) (roots : Entries),
      resolve c roots (Model.linked 255) ≠ return Model.linked 255 := by
  refine ⟨rfl, ?_⟩
  intro c roots h
  have hw : (Model.linked 255).wire = .error .tooDeep :=
    Value.wire_linked_eq_error_iff.2 ⟨rfl, Nat.le_refl _⟩
  rw [resolve_of_wire_error hw] at h
  cases h

end Variable
end ViewDoc
