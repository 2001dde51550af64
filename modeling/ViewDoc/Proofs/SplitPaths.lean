import ViewDoc.Proofs.Segments
import ViewDoc.Proofs.Walks

/-!
Paths that are cut into parts, one for each level of a dynamic variable.

As long as every part but the last one ends at an object, that object is held back for the next
level, and the levels lead to where the whole path leads.
-/

namespace ViewDoc

namespace Path

/-- A walk that finds all its segments. -/
inductive Finds : Value → List String → Value → Prop
  | here (v : Value) : Finds v [] v
  | found {v w x : Value} {s : String} {rest : List String} : step v s = .found w →
      Finds w rest x → Finds v (s :: rest) x

theorem walk_of_finds {v w : Value} {p : List String} (h : Finds v p w) (default : Value) :
    walk default v p = w := by
  induction h with
  | here v => rfl
  | found hs _ ih => rw [walk_cons_of_found hs, ih]

theorem Finds.append {v w x : Value} {p q : List String} (h : Finds v p w) (hq : Finds w q x) :
    Finds v (p ++ q) x := by
  induction h with
  | here v => exact hq
  | found hs _ ih => exact .found hs (ih hq)

theorem at_of_finds {v w : Value} {p : String} (h : Finds v (segments p) w) (default : Value) :
    v.at (.text p) default = .ok w := by
  rw [at_text, walk_of_finds h]

/-- Parts of a path, walked one after the other. Each finds all its segments, and all but the last
one close their brackets and end at an object. -/
inductive Continues : Value → List String → Value → Prop
  | last {v w : Value} {p : String} : Finds v (segments p) w → Continues v [p] w
  | more {v w x : Value} {p : String} {later : List String} : IsClosed p.toList →
      Finds v (segments p) w → w.isObject → Continues w later x → Continues v (p :: later) x

theorem ne_nil_of_continues {v w : Value} {parts : List String} (h : Continues v parts w) :
    parts ≠ [] := by
  cases h <;> exact List.cons_ne_nil _ _

/-- With dots between them the parts are one path to the same value. -/
theorem finds_of_continues {v w : Value} {parts : List String} (h : Continues v parts w) :
    Finds v (segments (".".intercalate parts)) w := by
  induction h with
  | last hp => rwa [String.intercalate_singleton]
  | more hclosed hp _ hlater ih =>
    rw [String.intercalate_cons_of_ne_nil (ne_nil_of_continues hlater), segments_append_dot hclosed]
    exact hp.append ih

end Path

namespace Accumulator

open ViewDoc.Path (Finds Continues at_of_finds)

theorem not_isNull_of_found {found : Value} (h : found.isObject ∨ found.truthy) :
    found.isNull = false :=
  h.elim Value.not_isNull_of_isObject Value.not_isNull_of_truthy

theorem finish_settle {object found : Value} (h : found.isObject ∨ found.truthy) :
    (settle [] object found).finish = .ok found := by
  rw [settle]
  split
  · rfl
  · rename_i ho
    rw [if_pos (h.resolve_left ho)]
    rfl

theorem step_of_finds {object w : Value} {p : String} (h : Finds object (Path.segments p) w)
    (results : List Value) :
    (pending results object).step (.text p) = .ok (settle results object w) := by
  have hat : object.at (.text p) object = .ok w := at_of_finds h object
  simp [step, Value.isNull, Value.isObject, hat]

/-- The texts of the parts, taken up one by one, lead on from the object that is held back. -/
theorem finish_run_of_continues {object w : Value} {parts : List String}
    (h : Continues object parts w) (hw : w.isObject ∨ w.truthy) :
    ((pending [] object).run (parts.map .text)).bind finish = .ok w := by
  induction h with
  | last hp =>
    rw [List.map_singleton, run_cons, step_of_finds hp, ok_bind, run_nil, ok_bind,
      finish_settle hw]
  | more _ hp ho _ ih =>
    rw [List.map_cons, run_cons, step_of_finds hp, ok_bind, settle, if_pos ho]
    exact ih hw

theorem finish_run_singleton {w : Value} (hw : w.isObject ∨ w.truthy) :
    (start.run [w]).bind finish = .ok w := by
  cases ho : w.isObject with
  | true =>
    rw [run_cons, step_object ho]
    rfl
  | false =>
    have hp : w.isPrimitive := by
      simp [Value.isPrimitive, not_isNull_of_found hw, ho]
    have hrun : start.run [w] = .ok (collecting [w]) := run_primitives (by simpa using hp) []
    rw [hrun]
    rfl

end Accumulator

namespace Level

/-- A level with a root and keys, and without anything else. -/
def bare (root keys : Value) : Entries := [(.text "root", root), (.text "keys", keys)]

theorem isSelector_bare (root keys : Value) : (Value.map (bare root keys)).isSelector = true := rfl

theorem format_bare (c : Clock) (root keys v : Value) :
    (format c (bare root keys) v).result = .ok v := by
  have hconvert : (convert c (bare root keys) v).result = .ok v := rfl
  have haffix : affix (bare root keys) v = .ok v := rfl
  rw [format]
  cases ht : v.isTextOrNumber with
  | false => rfl
  | true => simp [hconvert, haffix, ht]

theorem result_said_bare (c : Clock) (roots : Entries) (root keys : Value) :
    (said c roots (.map (bare root keys))).result = body roots (bare root keys) := by
  have hsaid : (said c roots (.map (bare root keys))).result =
      (body roots (bare root keys)).bind fun v => (format c (bare root keys) v).result := by
    simp [said, Value.entries, Value.entries?]
  rw [hsaid]
  cases body roots (bare root keys) with
  | error f => rfl
  | ok v => rw [ok_bind, format_bare]

theorem body_bare_of_root {roots : Entries} {root : String} {tree : Value}
    (hroot : roots.get? root = some tree) (keys : Value) :
    body roots (bare (.text root) keys) =
      (tree.at keys .null).map fun found => if found.isNull then .null else found := by
  have hget : ((bare (.text root) keys).get "root").text?.bind (fun name => roots.get? name) =
      some tree := hroot
  rw [body]
  simp only [hget]
  rfl

/-- A level without a root says its path as it stands. -/
theorem said_bare_null (c : Clock) (roots : Entries) (p : String) :
    (said c roots (.map (bare .null (.text p)))).result = .ok (.text p) :=
  result_said_bare c roots .null (.text p)

theorem said_bare_root {roots : Entries} {root p : String} {tree w : Value}
    (hroot : roots.get? root = some tree) (h : Path.Finds tree (Path.segments p) w)
    (hw : w.isObject ∨ w.truthy) (c : Clock) :
    (said c roots (.map (bare (.text root) (.text p)))).result = .ok w := by
  rw [result_said_bare, body_bare_of_root hroot, Path.at_of_finds h, ok_map,
    Accumulator.not_isNull_of_found hw, if_neg Bool.false_ne_true]

end Level

namespace Variable

open ViewDoc.Path

/-- A level for each part of a path: the first one names the root, the others have none. -/
def splitLevels (root : String) : List String → List Value
  | [] => []
  | p :: later =>
    .map (Level.bare (.text root) (.text p)) :: later.map fun q => .map (Level.bare .null (.text q))

theorem isSelector_of_mem_splitLevels {root : String} {parts : List String} {level : Value}
    (h : level ∈ splitLevels root parts) : level.isSelector = true := by
  cases parts with
  | nil => cases h
  | cons p later =>
    rcases List.mem_cons.1 h with rfl | h
    · exact Level.isSelector_bare _ _
    · obtain ⟨q, -, rfl⟩ := List.mem_map.1 h
      exact Level.isSelector_bare _ _

theorem isDynamic_of_splitLevels {v : Value} {root : String} {parts : List String}
    (hne : parts ≠ []) (hv : v.items? = some (splitLevels root parts)) : v.isDynamic = true := by
  have hlevels : splitLevels root parts ≠ [] := by
    cases parts with
    | nil => exact absurd rfl hne
    | cons p later => exact List.cons_ne_nil _ _
  rw [Value.isDynamic, hv, Bool.and_eq_true, Bool.not_eq_true', List.isEmpty_eq_false_iff,
    List.all_eq_true]
  exact ⟨hlevels, fun level hl => isSelector_of_mem_splitLevels hl⟩

variable {roots : Entries} {root : String} {tree w : Value} {parts : List String}

theorem says_later (c : Clock) (roots : Entries) (later : List String) :
    Says c roots (later.map fun q => .map (Level.bare .null (.text q))) (later.map .text) := by
  induction later with
  | nil => exact .nil
  | cons q later ih => exact .cons (Level.said_bare_null c roots q) ih

theorem result_resolve_splitLevels (hroot : roots.get? root = some tree)
    (h : Continues tree parts w) (hw : w.isObject ∨ w.truthy) (c : Clock) {v u : Value}
    (hu : v.wire = .ok u) (hv : u.items? = some (splitLevels root parts)) :
    (resolve c roots v).result = .ok w := by
  have hdynamic := isDynamic_of_splitLevels (ne_nil_of_continues h) hv
  cases h with
  | last hp =>
    have hsays : Says c roots (splitLevels root [_]) [w] :=
      .cons (Level.said_bare_root hroot hp hw c) .nil
    have hresolve := resolve_of_says hu hdynamic hv hsays
    rw [hresolve, Accumulator.finish_run_singleton hw]
  | @more _ x _ p later _ hp ho hlater =>
    have hsays : Says c roots (splitLevels root (p :: later)) (x :: later.map .text) :=
      .cons (Level.said_bare_root hroot hp (.inl ho) c) (says_later c roots later)
    have hresolve := resolve_of_says hu hdynamic hv hsays
    rw [hresolve, Accumulator.run_cons, Accumulator.step_object ho, ok_bind]
    exact Accumulator.finish_run_of_continues hlater hw

/-- Levels with the parts of a path resolve to what the path as a whole resolves to, in one
level. -/
theorem resolve_split (hroot : roots.get? root = some tree) (h : Continues tree parts w)
    (hw : w.isObject ∨ w.truthy) (c : Clock) :
    (∀ v u, v.wire = .ok u → u.items? = some (splitLevels root parts) →
      (resolve c roots v).result = .ok w) ∧
    (∀ v u, v.wire = .ok u → u.items? = some (splitLevels root [".".intercalate parts]) →
      (resolve c roots v).result = .ok w) := by
  refine ⟨fun v u hu hv => ?_, fun v u hu hv => ?_⟩
  · exact result_resolve_splitLevels hroot h hw c hu hv
  · exact result_resolve_splitLevels hroot (.last (finds_of_continues h)) hw c hu hv

/-- Three parts, with an empty one that names an entry and a last one that ends at a number. -/
theorem resolve_split_rows :
    let c : Clock := ⟨0, ⟨.first, none⟩, false⟩
    let row : Value := .map [(.text "", .list [.int 0, .int 7])]
    let tree : Value := .map [(.text "rows", .tuple [.null, row])]
    let roots : Entries := [(.text "@state", tree)]
    let parts := ["rows[1]", "", "1"]
    Continues tree parts (.int 7) ∧ ".".intercalate parts = "rows[1]..1" ∧
      (resolve c roots (.list (splitLevels "@state" parts))).result = .ok (.int 7) ∧
      (resolve c roots (.list [.map (Level.bare (.text "@state") (.text "rows[1]..1"))])).result =
        .ok (.int 7) := by
  intro c row tree roots parts
  have hclosed : IsClosed "rows[1]".toList := by simp [isClosed_cons_iff, isClosed_nil]
  have hrows : Finds tree (segments "rows[1]") row := by
    have hsegments : segments "rows[1]" = ["rows", "1"] := by decide
    rw [hsegments]
    exact .found rfl (.found rfl (.here row))
  have hempty : Finds row (segments "") (.list [.int 0, .int 7]) := .found rfl (.here _)
  have hlast : Finds (.list [.int 0, .int 7]) (segments "1") (.int 7) := .found rfl (.here _)
  have h : Continues tree parts (.int 7) :=
    .more hclosed hrows rfl (.more isClosed_nil hempty rfl (.last hlast))
  have hjoined : ".".intercalate parts = "rows[1]..1" := by decide
  have hroot : roots.get? "@state" = some tree := rfl
  obtain ⟨hsplit, hwhole⟩ := resolve_split hroot h (.inr rfl) c
  rw [hjoined] at hwhole
  exact ⟨h, hjoined, hsplit _ _ rfl rfl, hwhole _ _ rfl rfl⟩

end Variable
end ViewDoc
