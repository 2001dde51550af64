import ViewDoc.Proofs.Depth
import ViewDoc.Variable

/-!
What the levels of a dynamic variable give together, run by run.

An object that is held back only reaches as far as the next object. So the bodies fall into leading
primitives, which are results as they stand, and runs that each begin with an object and mean the
same wherever they stand.
-/

namespace ViewDoc

namespace Value

def isPrimitive (v : Value) : Bool := !v.isNull && !v.isObject

theorem not_isNull_of_isObject {v : Value} (h : v.isObject = true) : v.isNull = false := by
  cases v <;> simp_all [isObject, isNull]

theorem not_isNull_of_truthy {v : Value} (h : v.truthy = true) : v.isNull = false := by
  cases v with
  | null => cases h
  | _ => rfl

theorem not_isNull_of_isPrimitive {v : Value} (h : v.isPrimitive = true) : v.isNull = false := by
  rw [isPrimitive, Bool.and_eq_true, Bool.not_eq_true'] at h
  exact h.1

end Value

namespace Accumulator

def run (a : Accumulator) (bodies : List Value) : Except Failure Accumulator := bodies.foldlM step a

/-- The object that is held back, if there is one. -/
def held? : Accumulator → Option Value
  | collecting _ => none
  | pending _ object => some object

theorem eq_of_results_of_held? {a b : Accumulator} (hr : a.results = b.results)
    (hh : a.held? = b.held?) : a = b := by
  cases a <;> cases b <;> simp_all [results, held?]

theorem run_nil (a : Accumulator) : a.run [] = .ok a := rfl

theorem run_cons (a : Accumulator) (v : Value) (bodies : List Value) :
    a.run (v :: bodies) = (a.step v).bind fun b => b.run bodies := rfl

@[simp] theorem results_start : start.results = [] := rfl

@[simp] theorem held?_start : start.held? = none := rfl

/-- The same state behind other results. -/
def behind (earlier : List Value) : Accumulator → Accumulator
  | collecting results => collecting (earlier ++ results)
  | pending results object => pending (earlier ++ results) object

@[simp] theorem results_behind (earlier : List Value) (a : Accumulator) :
    (a.behind earlier).results = earlier ++ a.results := by
  cases a <;> rfl

@[simp] theorem held?_behind (earlier : List Value) (a : Accumulator) :
    (a.behind earlier).held? = a.held? := by
  cases a <;> rfl

theorem settle_behind (earlier results : List Value) (object found : Value) :
    settle (earlier ++ results) object found = (settle results object found).behind earlier := by
  unfold settle
  split
  · rfl
  split
  · simp [behind]
  · rfl

/-- Earlier results are never read. -/
theorem step_behind (earlier : List Value) (a : Accumulator) (v : Value) :
    (a.behind earlier).step v = (a.step v).map (behind earlier) := by
  unfold step
  split
  · rfl
  split
  · cases a <;> rfl
  cases a with
  | collecting results => simp [behind, Except.map]
  | pending results object =>
    simp only [behind]
    cases object.at v object with
    | error f => rfl
    | ok found => simp only [Except.map, settle_behind]

theorem run_behind (earlier : List Value) (a : Accumulator) (bodies : List Value) :
    (a.behind earlier).run bodies = (a.run bodies).map (behind earlier) := by
  induction bodies generalizing a with
  | nil => rfl
  | cons v bodies ih =>
    rw [run_cons, run_cons, step_behind]
    cases a.step v with
    | error f => rfl
    | ok b => exact ih b

theorem step_null {v : Value} (h : v.isNull = true) (a : Accumulator) : a.step v = .ok a := by
  simp [step, h]

theorem step_object {v : Value} (h : v.isObject = true) (a : Accumulator) :
    a.step v = .ok (pending a.results v) := by
  simp [step, h, Value.not_isNull_of_isObject h]

/-- An object begins anew: what was held back before it is dropped. -/
theorem run_object {v : Value} (h : v.isObject = true) (a : Accumulator) (bodies : List Value) :
    a.run (v :: bodies) = (start.run (v :: bodies)).map (behind a.results) := by
  rw [run_cons, run_cons, step_object h, step_object h]
  simpa [behind] using run_behind a.results (pending [] v) bodies

/-- The bodies that lead, and the runs behind them, each from an object to the next one. -/
structure Segments where
  lead : List Value
  runs : List (List Value)

/-- Leaves out null and begins a run at every object. -/
def segments : List Value → Segments
  | [] => ⟨[], []⟩
  | v :: bodies =>
    let later := segments bodies
    if v.isNull then later
    else if v.isObject then ⟨[], (v :: later.lead) :: later.runs⟩
    else ⟨v :: later.lead, later.runs⟩

/-- How bodies are cut: nothing but null is lost, and runs begin at objects and go on with
primitives only. -/
structure Segments.Cuts (s : Segments) (bodies : List Value) : Prop where
  joined : s.lead ++ s.runs.flatten = bodies.filter (!·.isNull)
  lead : ∀ v ∈ s.lead, v.isPrimitive
  runs : ∀ run ∈ s.runs, ∃ object rest,
    run = object :: rest ∧ object.isObject ∧ ∀ v ∈ rest, v.isPrimitive

theorem segments_cuts (bodies : List Value) : (segments bodies).Cuts bodies := by
  induction bodies with
  | nil => exact ⟨rfl, by simp [segments], by simp [segments]⟩
  | cons v bodies ih =>
    rw [segments]
    split
    · rename_i hn
      exact ⟨by simp [hn, ih.joined], ih.lead, ih.runs⟩
    rename_i hn
    split
    · rename_i ho
      refine ⟨?_, by simp, ?_⟩
      · simp [hn, ← ih.joined]
      · intro run hrun
        rcases List.mem_cons.1 hrun with rfl | hrun
        · exact ⟨v, _, rfl, ho, ih.lead⟩
        · exact ih.runs run hrun
    · rename_i ho
      refine ⟨by simp [hn, ← ih.joined], ?_, ih.runs⟩
      intro w hw
      rcases List.mem_cons.1 hw with rfl | hw
      · simp [Value.isPrimitive, hn, ho]
      · exact ih.lead w hw

theorem segments_filter (bodies : List Value) :
    segments (bodies.filter (!·.isNull)) = segments bodies := by
  induction bodies with
  | nil => rfl
  | cons v bodies ih =>
    cases hn : v.isNull with
    | true => simpa [segments, hn] using ih
    | false => simp [segments, hn, ih]

theorem segments_primitives_append {vs : List Value} (h : ∀ v ∈ vs, v.isPrimitive)
    (bodies : List Value) :
    segments (vs ++ bodies) = ⟨vs ++ (segments bodies).lead, (segments bodies).runs⟩ := by
  induction vs with
  | nil => rfl
  | cons v vs ih =>
    have hv := h v (by simp)
    simp only [Value.isPrimitive, Bool.and_eq_true, Bool.not_eq_true'] at hv
    simp [segments, hv.1, hv.2, ih fun w hw => h w (by simp [hw])]

theorem segments_flatten {runs : List (List Value)}
    (h : ∀ run ∈ runs, ∃ object rest,
      run = object :: rest ∧ object.isObject ∧ ∀ v ∈ rest, v.isPrimitive) :
    segments runs.flatten = ⟨[], runs⟩ := by
  induction runs with
  | nil => rfl
  | cons run runs ih =>
    obtain ⟨object, rest, rfl, ho, hrest⟩ := h run (by simp)
    have hs := segments_primitives_append hrest runs.flatten
    rw [ih fun run hrun => h run (by simp [hrun])] at hs
    simp [segments, ho, Value.not_isNull_of_isObject ho, hs]

theorem segments_eq_of_cuts {s : Segments} {bodies : List Value} (h : s.Cuts bodies) :
    segments bodies = s := by
  rw [← segments_filter, ← h.joined, segments_primitives_append h.lead, segments_flatten h.runs]
  simp

/-- The state of a run behind the results of what came before; what that held back is dropped. -/
def next (a b : Accumulator) : Accumulator := b.behind a.results

theorem behind_behind (r s : List Value) (a : Accumulator) :
    (a.behind s).behind r = a.behind (r ++ s) := by
  cases a <;> simp [behind]

theorem foldl_next_behind (earlier : List Value) (a : Accumulator) (later : List Accumulator) :
    later.foldl next (a.behind earlier) = (later.foldl next a).behind earlier := by
  induction later generalizing a with
  | nil => rfl
  | cons b later ih =>
    have h : next (a.behind earlier) b = (next a b).behind earlier := by
      simp [next, behind_behind]
    rw [List.foldl_cons, List.foldl_cons, h, ih]

theorem run_segments (a : Accumulator) (bodies : List Value) :
    a.run bodies = (a.run (segments bodies).lead).bind fun b =>
      ((segments bodies).runs.mapM start.run).map fun folded => folded.foldl next b := by
  induction bodies generalizing a with
  | nil => rfl
  | cons v bodies ih =>
    rw [segments]
    split
    · rename_i hn
      rw [run_cons, step_null hn]
      exact ih a
    split
    · rename_i ho
      rw [run_object ho, run_cons, step_object ho, run_nil, List.mapM_cons, run_cons,
        step_object ho]
      simp only [ok_bind, bind]
      rw [ih]
      cases run (pending start.results v) (segments bodies).lead with
      | error f => rfl
      | ok b =>
        cases List.mapM start.run (segments bodies).runs with
        | error f => rfl
        | ok folded =>
          have h := foldl_next_behind a.results b folded
          simp only [ok_map, ok_bind, pure, Except.pure, List.foldl_cons, next, h]
    · rw [run_cons, run_cons]
      cases a.step v with
      | error f => rfl
      | ok b => exact ih b

theorem results_foldl_next (a : Accumulator) (later : List Accumulator) :
    (later.foldl next a).results = a.results ++ later.flatMap results := by
  induction later generalizing a with
  | nil => simp
  | cons b later ih =>
    rw [List.foldl_cons, ih]
    simp [next]

/-- Only the last run can leave an object over. -/
theorem held?_foldl_next (a : Accumulator) (later : List Accumulator) :
    (later.foldl next a).held? = (later.getLast?.getD a).held? := by
  induction later generalizing a with
  | nil => rfl
  | cons b later ih =>
    rw [List.foldl_cons, ih, List.getLast?_cons]
    cases later.getLast? with
    | none => simp [next]
    | some c => simp

theorem run_primitives {vs : List Value} (h : ∀ v ∈ vs, v.isPrimitive) (earlier : List Value) :
    (collecting earlier).run vs = .ok (collecting (earlier ++ vs)) := by
  induction vs generalizing earlier with
  | nil => simp [run_nil]
  | cons v vs ih =>
    have hv := h v (by simp)
    simp only [Value.isPrimitive, Bool.and_eq_true, Bool.not_eq_true'] at hv
    have hs : (collecting earlier).step v = .ok (collecting (earlier ++ [v])) := by
      simp [step, hv.1, hv.2]
    rw [run_cons, hs, ok_bind, ih (fun w hw => h w (by simp [hw]))]
    simp

/-- The leading primitives are results as they stand, and every run adds what it gives alone. -/
theorem run_start_eq_ok_iff {bodies : List Value} {a : Accumulator} :
    start.run bodies = .ok a ↔ ∃ folded,
      List.Forall₂ (fun run b => start.run run = .ok b) (segments bodies).runs folded ∧
      a.results = (segments bodies).lead ++ folded.flatMap results ∧
      a.held? = folded.getLast?.bind held? := by
  have hlead : start.run (segments bodies).lead = .ok (collecting (segments bodies).lead) :=
    run_primitives (segments_cuts bodies).lead []
  rw [run_segments, hlead, ok_bind, map_eq_ok_iff]
  have hheld (folded : List Accumulator) :
      (folded.foldl next (collecting (segments bodies).lead)).held? =
        folded.getLast?.bind held? := by
    rw [held?_foldl_next]
    cases folded.getLast? <;> rfl
  constructor
  · intro h
    obtain ⟨folded, hf, rfl⟩ := h
    exact ⟨folded, mapM_eq_ok_iff.1 hf, results_foldl_next _ _, hheld folded⟩
  · intro h
    obtain ⟨folded, hf, hr, hh⟩ := h
    refine ⟨folded, mapM_eq_ok_iff.2 hf, eq_of_results_of_held? ?_ ?_⟩
    · rw [results_foldl_next, hr]
      rfl
    · rw [hheld, hh]

theorem finish_run_of_no_object {bodies : List Value} (h : ∀ v ∈ bodies, v.isObject = false) :
    (start.run bodies).bind finish = combine (bodies.filter (!·.isNull)) := by
  have hp : ∀ v ∈ bodies.filter (!·.isNull), v.isPrimitive := by
    intro v hv
    rw [List.mem_filter] at hv
    simp [Value.isPrimitive, h v hv.1, hv.2]
  have hruns : (segments bodies).runs = [] := by
    have hj := (segments_cuts bodies).joined
    refine List.eq_nil_iff_forall_not_mem.2 fun run hrun => ?_
    obtain ⟨object, rest, rfl, ho, -⟩ := (segments_cuts bodies).runs run hrun
    have hm : object ∈ bodies.filter (!·.isNull) := by
      rw [← hj]
      exact List.mem_append_right _ (List.mem_flatten.2 ⟨_, hrun, by simp⟩)
    rw [h object (List.mem_filter.1 hm).1] at ho
    cases ho
  have hlead : (segments bodies).lead = bodies.filter (!·.isNull) := by
    have hj := (segments_cuts bodies).joined
    simpa [hruns] using hj
  have hrun : start.run bodies = .ok (collecting (bodies.filter (!·.isNull))) := by
    rw [run_start_eq_ok_iff]
    exact ⟨[], by simp [hruns], by simp [hlead, results], rfl⟩
  rw [hrun]
  rfl

end Accumulator

namespace Variable

open Accumulator

variable (c : Clock) (roots : Entries)

/-- What the levels of a list give, level by level. -/
def Says (levels bodies : List Value) : Prop :=
  List.Forall₂ (fun level body => (Level.said c roots level).result = .ok body) levels bodies

variable {c roots}

theorem result_resolveLevels_cons {level : Value} (hl : level.isSelector = true) (context : Value)
    (a : Accumulator) (rest : List Value) :
    (resolveLevels c roots context a (level :: rest)).result =
      (Level.said c roots level).result.bind fun body => (a.step body).bind fun b =>
        (resolveLevels c roots context b rest).result := by
  simp [resolveLevels, hl]

theorem resolveLevels_of_says {levels bodies : List Value} (hs : ∀ level ∈ levels, level.isSelector)
    (h : Says c roots levels bodies) (context : Value) (a : Accumulator) :
    (resolveLevels c roots context a levels).result = a.run bodies := by
  induction h generalizing a with
  | nil => rfl
  | @cons level body levels bodies hbody _ ih =>
    have hlevel := hs level (by simp)
    rw [result_resolveLevels_cons hlevel, run_cons, hbody, ok_bind]
    cases a.step body with
    | error f => rfl
    | ok b => exact ih (fun level hl => hs level (by simp [hl])) b

theorem levels?_of_isDynamic {v : Value} (h : v.isDynamic = true) :
    ∃ levels, v.items? = some levels ∧ levels? v = some levels ∧
      ∀ level ∈ levels, level.isSelector := by
  rw [Value.isDynamic] at h
  cases hi : v.items? with
  | none => simp [hi] at h
  | some levels =>
    simp only [hi, Bool.and_eq_true, Bool.not_eq_true', List.isEmpty_eq_false_iff,
      List.all_eq_true] at h
    obtain ⟨level, hl⟩ := List.exists_mem_of_ne_nil levels h.1
    refine ⟨levels, rfl, ?_, h.2⟩
    have hany : levels.any Value.isSelector = true := List.any_eq_true.2 ⟨level, hl, h.2 level hl⟩
    simp only [levels?, hi, Option.bind_some, hany, if_true]

theorem resolve_of_wire_error {v : Value} {f : Failure} (h : v.wire = .error f) :
    resolve c roots v = .fail f := by
  simp only [resolve, h, Outcome.liftM_error_bind]

theorem resolve_of_levels?_eq_none {v w : Value} (h : v.wire = .ok w) (hl : levels? w = none) :
    resolve c roots v = return v := by
  simp only [resolve, h, Outcome.liftM_ok_bind, hl]

theorem result_resolve_of_levels? {v w : Value} {levels : List Value} (h : v.wire = .ok w)
    (hl : levels? w = some levels) : (resolve c roots v).result =
      (resolveLevels c roots w .start levels).result.bind finish := by
  simp only [resolve, h, Outcome.liftM_ok_bind, hl, Outcome.result_bind, Outcome.result_liftM]

theorem resolve_of_says {v w : Value} {levels bodies : List Value} (hv : v.wire = .ok w)
    (hd : w.isDynamic = true) (hl : w.items? = some levels) (h : Says c roots levels bodies) :
    (resolve c roots v).result = (start.run bodies).bind finish := by
  obtain ⟨levels', hi, hl', hs⟩ := levels?_of_isDynamic hd
  obtain rfl : levels = levels' := by
    rw [hl] at hi
    exact Option.some.inj hi
  rw [result_resolve_of_levels? hv hl', resolveLevels_of_says hs h]

/-- The levels of a dynamic variable mean together what their segments mean one by one. -/
theorem resolve_segment_by_segment (c : Clock) (roots : Entries) (bodies : List Value) :
    let s := segments bodies
    s.Cuts bodies ∧ (∀ t : Segments, t.Cuts bodies → t = s) ∧
    (∀ a, start.run bodies = .ok a ↔ ∃ folded,
      List.Forall₂ (fun run b => start.run run = .ok b) s.runs folded ∧
      a.results = s.lead ++ folded.flatMap results ∧
      a.held? = folded.getLast?.bind held?) ∧
    (∀ v w levels, v.wire = .ok w → w.isDynamic → w.items? = some levels →
      Says c roots levels bodies → (resolve c roots v).result = (start.run bodies).bind finish) ∧
    ((∀ v ∈ bodies, v.isObject = false) →
      (start.run bodies).bind finish =
        match bodies.filter (!·.isNull) with
        | [] => .ok .null
        | [v] => .ok v
        | vs => (vs.mapM Value.show?).map fun texts => .text (String.join texts)) := by
  intro s
  refine ⟨segments_cuts bodies, fun t ht => (segments_eq_of_cuts ht).symm, ?_, ?_, ?_⟩
  · intro a
    exact run_start_eq_ok_iff
  · intro v w levels hv hd hl h
    exact resolve_of_says hv hd hl h
  · intro h
    rw [finish_run_of_no_object h]
    unfold combine join
    rfl

theorem resolve_segment_by_segment_user :
    let c : Clock := ⟨0, ⟨.first, none⟩, false⟩
    let user : Value := .map [(.text "name", .text "Ada"), (.text "town", .text "London")]
    let roots : Entries := [(.text "@user", user)]
    let level (root keys : Value) : Value := .map [(.text "root", root), (.text "keys", keys)]
    let levels := [level .null (.text "Hi "), level (.text "@user") (.text "pets"),
      level .null user, level .null (.text "town"), level .null user, level .null (.text "name")]
    let s : Segments := ⟨[.text "Hi "], [[user, .text "town"], [user, .text "name"]]⟩
    s = segments [.text "Hi ", .null, user, .text "town", user, .text "name"] ∧
      (resolve c roots (.list levels)).result = .ok (.text "Hi LondonAda") ∧
      (start.run [.text "a", .null, .bool true]).bind finish = .ok (.text "atrue") := by
  intro c user roots level levels s
  have hs : s.Cuts [.text "Hi ", .null, user, .text "town", user, .text "name"] := by
    have htext (t : String) : (Value.text t).isPrimitive = true := rfl
    refine ⟨rfl, by simp [s, htext], ?_⟩
    intro run hrun
    simp only [s, List.mem_cons, List.not_mem_nil, or_false] at hrun
    rcases hrun with rfl | rfl
    · exact ⟨user, [.text "town"], rfl, rfl, by simp [htext]⟩
    · exact ⟨user, [.text "name"], rfl, rfl, by simp [htext]⟩
  have h : Says c roots levels [.text "Hi ", .null, user, .text "town", user, .text "name"] :=
    .cons rfl (.cons rfl (.cons rfl (.cons rfl (.cons rfl (.cons rfl .nil)))))
  have hr := (resolve_segment_by_segment c roots _).2.2.2.1 (.list levels) (.list levels) levels
    rfl rfl rfl h
  have hp := (resolve_segment_by_segment c roots [.text "a", .null, .bool true]).2.2.2.2
    (by simp [Value.isObject])
  exact ⟨(resolve_segment_by_segment c roots _).2.1 s hs, hr.trans rfl, hp.trans rfl⟩

end Variable
end ViewDoc
