import ViewDoc.Proofs.Formats
import ViewDoc.Proofs.Segments

/-!
How resolving a dynamic variable can fail.

Apart from a level that is not a selector there are three causes, and each of them comes up in a few
places only: models that stand inside each other too deep, a number that has too many digits to be
read or written, and a time outside the calendar.
-/

namespace ViewDoc

namespace Value

theorem exists_map_of_isSelector {v : Value} (hm : v.isModel = false) (h : v.isSelector = true) :
    ∃ entries, v = .map entries := by
  cases v with
  | map entries => exact ⟨entries, rfl⟩
  | model kind fields given extra => cases hm
  | _ => cases h

end Value

namespace Level

theorem concat_eq (a b : Value) : concat a b = if a.isShowable && b.isShowable then
    .ok (.text (a.shown ++ b.shown)) else .error .tooManyDigits := by
  unfold concat Value.show?
  cases a.isShowable <;> cases b.isShowable <;> rfl

theorem concat_eq_error_iff {a b : Value} {f : Failure} :
    concat a b = .error f ↔ f = .tooManyDigits ∧ (a.isShowable = false ∨ b.isShowable = false) := by
  rw [concat_eq]
  cases a.isShowable <;> cases b.isShowable <;> simp <;> exact eq_comm

theorem concat_eq_ok_iff {a b v : Value} : concat a b = .ok v ↔
    a.isShowable = true ∧ b.isShowable = true ∧ .text (a.shown ++ b.shown) = v := by
  rw [concat_eq]
  cases a.isShowable <;> cases b.isShowable <;> simp

/-- Where affixes are put around a value, one of the texts has a number too long to be written. -/
def IsAffixOverlong (level : Entries) (v : Value) : Prop :=
  (level.get "prefix").truthy = true ∧ (level.get "prefix").isShowable = false ∨
    (level.get "suffix").truthy = true ∧ (level.get "suffix").isShowable = false ∨
    ((level.get "prefix").truthy = true ∨ (level.get "suffix").truthy = true) ∧
      v.isShowable = false

theorem affix_eq (level : Entries) (v : Value) : affix level v =
    (if (level.get "prefix").truthy then concat (level.get "prefix") v else .ok v).bind fun w =>
      if (level.get "suffix").truthy then concat w (level.get "suffix") else .ok w := by
  simp only [affix]
  split
  · rfl
  · rfl

theorem affix_eq_error_iff {level : Entries} {v : Value} {f : Failure} :
    affix level v = .error f ↔ f = .tooManyDigits ∧ IsAffixOverlong level v := by
  have htext (s : String) : (Value.text s).isShowable = true := rfl
  rw [affix_eq, IsAffixOverlong]
  generalize level.get "prefix" = before
  generalize level.get "suffix" = behind
  cases before.truthy with
  | false => cases behind.truthy <;> simp [concat_eq_error_iff, or_comm]
  | true =>
    rw [if_pos rfl, bind_eq_error_iff]
    simp only [concat_eq_error_iff, concat_eq_ok_iff]
    cases behind.truthy with
    | false => simp
    | true =>
      simp only [if_true, concat_eq_error_iff]
      constructor
      · intro h
        rcases h with ⟨hf, h⟩ | ⟨w, ⟨-, -, rfl⟩, hf, h⟩
        · exact ⟨hf, by tauto⟩
        · rw [htext] at h
          exact ⟨hf, by tauto⟩
      · intro h
        obtain ⟨hf, h⟩ := h
        cases hb : before.isShowable with
        | false => exact .inl ⟨hf, .inl rfl⟩
        | true =>
          cases hv : v.isShowable with
          | false => exact .inl ⟨hf, .inr rfl⟩
          | true => exact .inr ⟨_, ⟨rfl, rfl, rfl⟩, hf, by simp_all⟩

/-- The ways in which a level cannot be said. -/
inductive Breaks (c : Clock) (roots level : Entries) : Failure → Prop
  | path : ((level.get "root").text?.bind fun name => roots.get? name).isSome →
      level.contains (.text "keys") = true → (level.get "keys").isShowable = false →
      Breaks c roots level .tooManyDigits
  | format {v : Value} {kind : FormatKind} {f : Failure} : body roots level = .ok v →
      v.isTextOrNumber = true → (level.get "format").text?.bind FormatKind.ofName? = some kind →
      Format.Breaks c kind v f → Breaks c roots level f
  | affix {v w : Value} : body roots level = .ok v → v.isTextOrNumber = true →
      (convert c level v).result = .ok w → w.isTextOrNumber = true → IsAffixOverlong level w →
      Breaks c roots level .tooManyDigits

theorem kind_of_breaks {c : Clock} {roots level : Entries} {f : Failure}
    (h : Breaks c roots level f) : f = .tooManyDigits ∨ f = .outsideCalendar := by
  cases h with
  | path => exact .inl rfl
  | format _ _ _ h =>
    cases h with
    | digits => exact .inl rfl
    | number => exact .inl rfl
    | time => exact .inr rfl
    | ago => exact .inr rfl
  | affix => exact .inl rfl

theorem body_eq_error_iff {roots level : Entries} {f : Failure} :
    body roots level = .error f ↔ f = .tooManyDigits ∧
      ((level.get "root").text?.bind fun name => roots.get? name).isSome ∧
      level.contains (.text "keys") = true ∧ (level.get "keys").isShowable = false := by
  unfold body
  simp only
  split
  · rename_i tree hr
    rw [hr]
    cases level.contains (.text "keys") with
    | false => simp
    | true =>
      cases hs : (level.get "keys").isShowable with
      | true => simp [Value.at_eq_ok hs]
      | false =>
        simp only [Value.at_eq_error hs, if_true, error_map, Except.error.injEq,
          Option.isSome_some, and_true]
        exact eq_comm
  · rename_i hr
    simp [hr]

theorem result_convert_eq_error_iff {c : Clock} {level : Entries} {v : Value}
    (hv : v.isTextOrNumber = true) {f : Failure} : (convert c level v).result = .error f ↔
      ∃ kind, (level.get "format").text?.bind FormatKind.ofName? = some kind ∧
        Format.Breaks c kind v f := by
  unfold convert
  simp only
  split
  · exact Format.result_apply_eq_error_iff hv
  · rename_i ht
    -- no format has the empty name
    have hnone : (level.get "format").text?.bind FormatKind.ofName? = none := by
      cases h : level.get "format" with
      | text s =>
        obtain rfl : s = "" := by simpa [h, Value.truthy] using ht
        rfl
      | markup s =>
        obtain rfl : s = "" := by simpa [h, Value.truthy] using ht
        rfl
      | _ => rfl
    simp [hnone]

theorem result_format_eq_error_iff {c : Clock} {level : Entries} {v : Value} {f : Failure} :
    (format c level v).result = .error f ↔ v.isTextOrNumber = true ∧
      ((convert c level v).result = .error f ∨ ∃ w, (convert c level v).result = .ok w ∧
        w.isTextOrNumber = true ∧ affix level w = .error f) := by
  rw [format]
  cases v.isTextOrNumber with
  | false => simp
  | true =>
    simp only [Bool.not_true, Bool.false_eq_true, if_false, Outcome.result_bind, true_and,
      bind_eq_error_iff]
    refine or_congr Iff.rfl (exists_congr fun w => and_congr_right fun _ => ?_)
    cases w.isTextOrNumber <;> simp

theorem result_said_eq_error_iff {c : Clock} {roots level : Entries} {f : Failure} :
    (said c roots (.map level)).result = .error f ↔ Breaks c roots level f := by
  have h : (said c roots (.map level)).result =
      (body roots level).bind fun v => (format c level v).result := by
    simp [said, Value.entries, Value.entries?]
  rw [h, bind_eq_error_iff, body_eq_error_iff]
  constructor
  · intro h
    rcases h with ⟨rfl, hr, hk, hs⟩ | ⟨v, hb, h⟩
    · exact .path hr hk hs
    obtain ⟨hv, h⟩ := result_format_eq_error_iff.1 h
    rcases h with h | ⟨w, hw, ht, h⟩
    · obtain ⟨kind, hk, h⟩ := (result_convert_eq_error_iff hv).1 h
      exact .format hb hv hk h
    · obtain ⟨rfl, ho⟩ := affix_eq_error_iff.1 h
      exact .affix hb hv hw ht ho
  · intro h
    cases h with
    | path hr hk hs => exact .inl ⟨rfl, hr, hk, hs⟩
    | format hb hv hk h =>
      refine .inr ⟨_, hb, result_format_eq_error_iff.2 ⟨hv, .inl ?_⟩⟩
      exact (result_convert_eq_error_iff hv).2 ⟨_, hk, h⟩
    | affix hb hv hw ht h =>
      refine .inr ⟨_, hb, result_format_eq_error_iff.2 ⟨hv, .inr ⟨_, hw, ht, ?_⟩⟩⟩
      exact affix_eq_error_iff.2 ⟨rfl, h⟩

end Level

namespace Accumulator

theorem step_eq_error_iff {a : Accumulator} {v : Value} {f : Failure} :
    a.step v = .error f ↔ f = .tooManyDigits ∧ a.held?.isSome ∧ v.isPrimitive = true ∧
      v.isShowable = false := by
  unfold step Value.isPrimitive
  cases v.isNull with
  | true => simp
  | false =>
    cases v.isObject with
    | true => simp
    | false =>
      cases a with
      | collecting results => simp [held?]
      | pending results object =>
        cases hs : v.isShowable with
        | true => simp [Value.at_eq_ok hs]
        | false => simp [Value.at_eq_error hs, held?, eq_comm]

theorem join_eq_error_iff {vs : List Value} {f : Failure} :
    join vs = .error f ↔ f = .tooManyDigits ∧ ∃ v ∈ vs, v.isShowable = false := by
  rw [join, map_eq_error_iff]
  constructor
  · intro h
    obtain ⟨v, hv, h⟩ := exists_of_mapM_eq_error h
    obtain ⟨hf, hs⟩ := Value.show?_eq_error_iff.1 h
    exact ⟨hf, v, hv, hs⟩
  · intro h
    obtain ⟨rfl, v, hv, hs⟩ := h
    have herror : v.show? = .error .tooManyDigits := Value.show?_eq_error_iff.2 ⟨rfl, hs⟩
    cases hm : vs.mapM Value.show? with
    | error g =>
      obtain ⟨w, -, h⟩ := exists_of_mapM_eq_error hm
      rw [(Value.show?_eq_error_iff.1 h).1]
    | ok texts =>
      obtain ⟨text, -, ht⟩ := exists_of_mapM_eq_ok hm hv
      rw [herror] at ht
      cases ht

/-- Several results are joined, and one of them has a number too long to be written. -/
def IsJoinOverlong (results : List Value) : Prop :=
  2 ≤ results.length ∧ ∃ v ∈ results, v.isShowable = false

theorem combine_eq_error_iff {vs : List Value} {f : Failure} :
    combine vs = .error f ↔ f = .tooManyDigits ∧ IsJoinOverlong vs := by
  unfold combine IsJoinOverlong
  split
  · simp
  · simp
  · rename_i hnil hone
    have hlength : 2 ≤ vs.length := by
      match vs with
      | [] => exact absurd rfl hnil
      | [v] => exact absurd rfl (hone v)
      | _ :: _ :: _ => simp
    rw [join_eq_error_iff]
    simp [hlength]

theorem finish_eq (a : Accumulator) : a.finish = combine (a.results ++ a.held?.toList) := by
  cases a with
  | collecting results => simp [finish, Accumulator.results, held?]
  | pending results object => rfl

end Accumulator

namespace Variable

variable {c : Clock} {roots : Entries} {context : Value}

/-- The ways in which taking up levels and combining their results fails, other than a level that
is reported as no selector. -/
inductive Overflows (c : Clock) (roots : Entries) (context : Value) :
    Accumulator → List Value → Failure → Prop
  /-- The report on a level that is not a selector cannot be written. -/
  | report {a : Accumulator} {level : Value} {rest : List Value} : level.isSelector = false →
      (level.isQuotable && context.isQuotable) = false →
      Overflows c roots context a (level :: rest) .tooManyDigits
  | level {a : Accumulator} {entries : Entries} {rest : List Value} {f : Failure} :
      (Value.map entries).isSelector = true → Level.Breaks c roots entries f →
      Overflows c roots context a (.map entries :: rest) f
  /-- The path into the object that is held back cannot be written. -/
  | path {a : Accumulator} {level body : Value} {rest : List Value} : level.isSelector = true →
      (Level.said c roots level).result = .ok body → a.held?.isSome → body.isPrimitive = true →
      body.isShowable = false → Overflows c roots context a (level :: rest) .tooManyDigits
  | later {a b : Accumulator} {level body : Value} {rest : List Value} {f : Failure} :
      level.isSelector = true → (Level.said c roots level).result = .ok body →
      a.step body = .ok b → Overflows c roots context b rest f →
      Overflows c roots context a (level :: rest) f
  | join {a : Accumulator} : Accumulator.IsJoinOverlong (a.results ++ a.held?.toList) →
      Overflows c roots context a [] .tooManyDigits

theorem kind_of_overflows {a : Accumulator} {levels : List Value} {f : Failure}
    (h : Overflows c roots context a levels f) : f = .tooManyDigits ∨ f = .outsideCalendar := by
  induction h with
  | report => exact .inl rfl
  | level _ h => exact Level.kind_of_breaks h
  | path => exact .inl rfl
  | later _ _ _ _ ih => exact ih
  | join => exact .inl rfl

/-- One level fails, or it is taken up and the rest fails. -/
theorem resolveLevels_cons_eq_error_iff {a : Accumulator} {level : Value} {rest : List Value}
    (hl : level.isSelector = true) {f : Failure} :
    (resolveLevels c roots context a (level :: rest)).result.bind Accumulator.finish = .error f ↔
      (Level.said c roots level).result = .error f ∨
        ∃ body, (Level.said c roots level).result = .ok body ∧ (a.step body = .error f ∨
          ∃ b, a.step body = .ok b ∧
            (resolveLevels c roots context b rest).result.bind Accumulator.finish = .error f) := by
  rw [result_resolveLevels_cons hl]
  cases (Level.said c roots level).result with
  | error g => simp
  | ok body =>
    simp only [ok_bind, reduceCtorEq, Except.ok.injEq, exists_eq_left', false_or]
    cases a.step body <;> simp

theorem resolveLevels_eq_error_iff {levels : List Value}
    (hm : ∀ level ∈ levels, level.isModel = false) {f : Failure}
    (hf : ∀ level context, f ≠ .notSelector level context) (a : Accumulator) :
    (resolveLevels c roots context a levels).result.bind Accumulator.finish = .error f ↔
      Overflows c roots context a levels f := by
  -- what was taken up before only counts through the state that it left
  induction levels generalizing a with
  | nil =>
    have h : (resolveLevels c roots context a []).result.bind Accumulator.finish = a.finish := rfl
    rw [h, Accumulator.finish_eq, Accumulator.combine_eq_error_iff]
    constructor
    · intro h
      obtain ⟨rfl, h⟩ := h
      exact .join h
    · intro h
      cases h with
      | join h => exact ⟨rfl, h⟩
  | cons level rest ih =>
    have ih := ih fun level hl => hm level (List.mem_cons_of_mem _ hl)
    cases hl : level.isSelector with
    | false =>
      have h : (resolveLevels c roots context a (level :: rest)).result.bind Accumulator.finish =
          .error (Failure.ofLevel level context) := by
        simp [resolveLevels, hl]
      rw [h, Except.error.injEq, Failure.ofLevel]
      constructor
      · intro h
        split at h
        · exact absurd h.symm (hf level context)
        · rename_i hq
          rw [← h]
          exact .report hl (Bool.eq_false_iff.2 hq)
      · intro h
        cases h with
        | report _ hq => simp [hq]
        | level hs => simp [hl] at hs
        | path hs => simp [hl] at hs
        | later hs => simp [hl] at hs
    | true =>
      rw [resolveLevels_cons_eq_error_iff hl]
      obtain ⟨entries, rfl⟩ := Value.exists_map_of_isSelector (hm level List.mem_cons_self) hl
      rw [Level.result_said_eq_error_iff]
      constructor
      · intro h
        rcases h with h | ⟨body, hb, h | ⟨b, hs, h⟩⟩
        · exact .level hl h
        · obtain ⟨rfl, hheld, hp, hs⟩ := Accumulator.step_eq_error_iff.1 h
          exact .path hl hb hheld hp hs
        · exact .later hl hb hs ((ih b).1 h)
      · intro h
        cases h with
        | report hs => simp [hl] at hs
        | level _ h => exact .inl h
        | path _ hb hheld hp hs =>
          exact .inr ⟨_, hb, .inl (Accumulator.step_eq_error_iff.2 ⟨rfl, hheld, hp, hs⟩)⟩
        | later _ hb hs h => exact .inr ⟨_, hb, .inr ⟨_, hs, (ih _).2 h⟩⟩

/-- A value overflows where its models stand too deep inside each other, or where the levels that it
holds overflow. -/
inductive IsOverflowing (c : Clock) (roots : Entries) (v : Value) : Failure → Prop
  | depth {f : Failure} : v.wire = .error f → IsOverflowing c roots v f
  | levels {w : Value} {levels : List Value} {f : Failure} : v.wire = .ok w →
      levels? w = some levels → Overflows c roots w .start levels f → IsOverflowing c roots v f

theorem kind_of_isOverflowing {v : Value} {f : Failure} (h : IsOverflowing c roots v f) :
    f = .tooDeep ∨ f = .tooManyDigits ∨ f = .outsideCalendar := by
  cases h with
  | depth h => exact .inl (Value.eq_tooDeep_of_wire h)
  | levels _ _ h => exact .inr (kind_of_overflows h)

theorem items?_of_levels? {v : Value} {levels : List Value} (h : levels? v = some levels) :
    v.items? = some levels := by
  rw [levels?] at h
  obtain ⟨items, hi, h⟩ := Option.bind_eq_some_iff.1 h
  split at h
  · rwa [← Option.some.inj h]
  · cases h

theorem result_resolve_eq_error_iff {v : Value} {f : Failure}
    (hf : ∀ level context, f ≠ .notSelector level context) :
    (resolve c roots v).result = .error f ↔ IsOverflowing c roots v f := by
  have hlevels {w : Value} {levels : List Value} (hw : v.wire = .ok w)
      (hl : levels? w = some levels) :
      (resolve c roots v).result = .error f ↔ Overflows c roots w .start levels f := by
    rw [result_resolve_of_levels? hw hl]
    exact resolveLevels_eq_error_iff
      (fun _ h => Value.isModel_of_mem_items? hw (items?_of_levels? hl) h) hf _
  constructor
  · intro h
    cases hw : v.wire with
    | error g =>
      rw [resolve_of_wire_error hw] at h
      obtain rfl := Except.error.inj h
      exact .depth hw
    | ok w =>
      cases hl : levels? w with
      | none =>
        rw [resolve_of_levels?_eq_none hw hl] at h
        cases h
      | some levels => exact .levels hw hl ((hlevels hw hl).1 h)
  · intro h
    cases h with
    | depth hw => rw [resolve_of_wire_error hw, Outcome.result_fail]
    | levels hw hl h => exact (hlevels hw hl).2 h

/-- Resolving gives a value or refuses a level, except where models stand inside each other too
deep, a number is too long to be read or written or a time leaves the calendar. -/
theorem resolve_fails_iff (c : Clock) (roots : Entries) (v : Value) :
    ((∃ w, (resolve c roots v).result = .ok w) ∨
      (∃ level context, (resolve c roots v).result = .error (.notSelector level context)) ↔
        ∀ f, ¬ IsOverflowing c roots v f) ∧
    ∀ f, (∀ level context, f ≠ .notSelector level context) →
      ((resolve c roots v).result = .error f ↔
        (f = .tooDeep ∨ f = .tooManyDigits ∨ f = .outsideCalendar) ∧
          IsOverflowing c roots v f) := by
  refine ⟨?_, ?_⟩
  · constructor
    · intro h f ho
      have hf : ∀ level context, f ≠ .notSelector level context := by
        intro level context
        rcases kind_of_isOverflowing ho with rfl | rfl | rfl <;> simp
      have herror := (result_resolve_eq_error_iff hf).2 ho
      rcases h with ⟨w, h⟩ | ⟨level, context, h⟩
      · simp [h] at herror
      · rw [h] at herror
        exact hf level context (Except.error.inj herror).symm
    · intro h
      cases hr : (resolve c roots v).result with
      | ok w => exact .inl ⟨w, rfl⟩
      | error f =>
        by_contra hnone
        refine h f ((result_resolve_eq_error_iff fun level context hf => hnone ?_).1 hr)
        exact .inr ⟨level, context, by rw [hf]⟩
  · intro f hf
    rw [result_resolve_eq_error_iff hf]
    exact ⟨fun h => ⟨kind_of_isOverflowing h, h⟩, fun h => h.2⟩

theorem resolve_fails_iff_early :
    let c : Clock := ⟨0, ⟨.ofDate ⟨738959, by decide⟩, none⟩, false⟩
    let level : Value := .map [(.text "root", .null),
      (.text "keys", .text "0001-01-01T00:00:00+05:00"), (.text "format", .text "time")]
    (∀ level context, Failure.outsideCalendar ≠ .notSelector level context) ∧
      (resolve c [] (.list [level])).result = .error .outsideCalendar ∧
      IsOverflowing c [] (.list [level]) .outsideCalendar ∧
      ¬ ((∃ w, (resolve c [] (.list [level])).result = .ok w) ∨
        ∃ level' context, (resolve c [] (.list [level])).result =
          .error (.notSelector level' context)) := by
  intro c level
  have hf : ∀ level context, Failure.outsideCalendar ≠ .notSelector level context := by simp
  have hr : (resolve c [] (.list [level])).result = .error .outsideCalendar := rfl
  obtain ⟨hiff, herror⟩ := resolve_fails_iff c [] (.list [level])
  have ho := ((herror .outsideCalendar hf).1 hr).2
  exact ⟨hf, hr, ho, fun h => hiff.1 h .outsideCalendar ho⟩

end Variable
end ViewDoc
