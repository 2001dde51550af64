import ViewDoc.Proofs.Results
import ViewDoc.Proofs.Writes
import ViewDoc.Workspace

/-!
What merging leaves in the four tables, whether it succeeds or not.

Data comes first, then actions, and components are checked last. So what fails at a component has
already written everything else, and only the table of components is as it was.
-/

namespace ViewDoc

namespace Entries

/-- The key and the value that a pair holds. -/
def pair? (v : Value) : Option (Value × Value) :=
  match v.parts? with
  | some [key, x] => some (key, x)
  | _ => none

/-- The entries that a value gives: those of a map, or the pairs in it. -/
def given : Value → Entries
  | .map entries => entries
  | v => (v.parts?.getD []).filterMap pair?

theorem given_of_not_truthy {v : Value} (h : v.truthy = false) : given v = [] := by
  cases v with
  | text s =>
    obtain rfl : s = "" := by simpa [Value.truthy] using h
    rfl
  | markup s =>
    obtain rfl : s = "" := by simpa [Value.truthy] using h
    rfl
  | list items =>
    obtain rfl : items = [] := by simpa [Value.truthy] using h
    rfl
  | tuple items =>
    obtain rfl : items = [] := by simpa [Value.truthy] using h
    rfl
  | map entries =>
    obtain rfl : entries = [] := by simpa [Value.truthy] using h
    rfl
  | null => rfl
  | bool b => rfl
  | int n => rfl
  | float x => rfl
  | _ => cases h

theorem addPairs_of_ok {t : Entries} {pairs : List Value} (h : (addPairs t pairs).2 = .ok ()) :
    (addPairs t pairs).1 = t.update (pairs.filterMap pair?) := by
  induction pairs generalizing t with
  | nil => rfl
  | cons p pairs ih =>
    rw [addPairs] at h ⊢
    rw [List.filterMap_cons, pair?]
    cases hp : p.parts? with
    | none =>
      rw [hp] at h
      cases h
    | some parts =>
      rw [hp] at h
      match parts with
      | [key, x] =>
        dsimp only at h ⊢
        cases hk : key.isHashable with
        | false =>
          rw [hk] at h
          cases h
        | true =>
          rw [hk, if_pos rfl] at h
          rw [if_pos rfl, ih h, Table.update_cons]
      | [] => cases h
      | [_] => cases h
      | _ :: _ :: _ :: _ => cases h

theorem given_of_not_map {v : Value} (h : ¬ ∃ entries, v = .map entries) :
    given v = (v.parts?.getD []).filterMap pair? := by
  cases v with
  | map entries => exact absurd ⟨entries, rfl⟩ h
  | _ => rfl

theorem add_of_not_map (t : Entries) {v : Value} (h : ¬ ∃ entries, v = .map entries) :
    add t v = v.parts?.elim (t, .error .notPairs) fun pairs =>
      if v.hasPart "keys" then (t, .error .notPairs) else addPairs t pairs := by
  cases v with
  | map entries => exact absurd ⟨entries, rfl⟩ h
  | _ => rfl

theorem add_of_ok {t : Entries} {v : Value} (h : (add t v).2 = .ok ()) :
    (add t v).1 = t.update (given v) := by
  by_cases hm : ∃ entries, v = .map entries
  · obtain ⟨entries, rfl⟩ := hm
    rfl
  rw [add_of_not_map t hm] at h ⊢
  rw [given_of_not_map hm]
  cases hp : v.parts? with
  | none =>
    rw [hp] at h
    cases h
  | some pairs =>
    rw [hp] at h
    dsimp only [Option.elim] at h ⊢
    cases hk : v.hasPart "keys" with
    | true =>
      rw [hk] at h
      cases h
    | false =>
      rw [hk, if_neg Bool.false_ne_true] at h
      rw [if_neg Bool.false_ne_true]
      exact addPairs_of_ok h

/-- What holds of a table, and still holds after each pair is written, holds after all that are. -/
theorem addPairs_induction {P : Entries → Prop} {pairs : List Value}
    (hw : ∀ e ∈ pairs.filterMap pair?, ∀ t, P t → P (Table.insert t e.1 e.2)) {t : Entries}
    (ht : P t) : P (addPairs t pairs).1 := by
  induction pairs generalizing t with
  | nil => exact ht
  | cons p pairs ih =>
    rw [List.filterMap_cons, pair?] at hw
    rw [addPairs]
    cases hp : p.parts? with
    | none => exact ht
    | some parts =>
      rw [hp] at hw
      match parts with
      | [key, x] =>
        dsimp only at hw ⊢
        split
        · have hrest := fun e he => hw e (List.mem_cons_of_mem (key, x) he)
          exact ih hrest (hw (key, x) List.mem_cons_self t ht)
        · exact ht
      | [] => exact ht
      | [_] => exact ht
      | _ :: _ :: _ :: _ => exact ht

theorem add_induction {P : Entries → Prop} {v : Value}
    (hw : ∀ e ∈ given v, ∀ t, P t → P (Table.insert t e.1 e.2)) {t : Entries} (ht : P t) :
    P (add t v).1 := by
  by_cases hm : ∃ entries, v = .map entries
  · obtain ⟨entries, rfl⟩ := hm
    exact Table.update_induction hw ht
  rw [given_of_not_map hm] at hw
  rw [add_of_not_map t hm]
  cases hp : v.parts? with
  | none => exact ht
  | some pairs =>
    rw [hp] at hw
    dsimp only [Option.elim]
    split
    · exact ht
    · exact addPairs_induction hw ht

end Entries

namespace Registries

theorem addData_of_ok {t : Entries} {v : Value} (h : (addData t v).2 = .ok ()) :
    (addData t v).1 = t.update (Entries.given v) := by
  rw [addData] at h ⊢
  cases hv : v.truthy with
  | false =>
    rw [Entries.given_of_not_truthy hv]
    rfl
  | true =>
    rw [hv, if_pos rfl] at h
    rw [if_pos rfl]
    exact Entries.add_of_ok h

theorem addData_induction {P : Entries → Prop} {v : Value}
    (hw : ∀ e ∈ Entries.given v, ∀ t, P t → P (Table.insert t e.1 e.2)) {t : Entries} (ht : P t) :
    P (addData t v).1 := by
  rw [addData]
  split
  · exact Entries.add_induction hw ht
  · exact ht

/-- Data as it is meant to be given: a map, or nothing. -/
def IsData (v : Value) : Prop := v = .null ∨ ∃ entries, v = .map entries

theorem addData_of_isData (t : Entries) {v : Value} (h : IsData v) : (addData t v).2 = .ok () := by
  rcases h with rfl | ⟨entries, rfl⟩
  · rfl
  · cases entries <;> rfl

variable (asTransform : Value → Transform) (r : Registries)

/-- Whether an entry is one, or can be made into one. -/
def IsAccepted (spec : ComponentSpec) : Prop :=
  ∃ entry, ComponentEntry.coerce asTransform spec = .ok entry

/-- How a table keeps an entry that is not refused. -/
def kept (spec : ComponentSpec) : ComponentSpec :=
  match ComponentEntry.coerce asTransform spec with
  | .ok entry => .entry entry
  | .error _ => spec

theorem coerceAll_eq_mapM (components : ComponentTable) :
    coerceAll asTransform components = components.mapM fun c =>
      (ComponentEntry.coerce asTransform c.2).map fun entry => (c.1, .entry entry) := by
  induction components with
  | nil => rfl
  | cons c components ih =>
    obtain ⟨name, spec⟩ := c
    rw [coerceAll, ih, List.mapM_cons]
    cases ComponentEntry.coerce asTransform spec <;> rfl

variable {asTransform}

theorem coerceAll_eq_ok {components stored : ComponentTable}
    (h : coerceAll asTransform components = .ok stored) :
    stored = components.map fun c => (c.1, kept asTransform c.2) := by
  rw [coerceAll_eq_mapM, mapM_eq_ok_iff] at h
  induction h with
  | nil => rfl
  | cons hc _ ih =>
    obtain ⟨entry, he, rfl⟩ := map_eq_ok_iff.1 hc
    rw [List.map_cons, kept, he, ih]

/-- Checking stops at the first entry that is refused. -/
theorem coerceAll_eq_error_iff {components : ComponentTable} {f : Failure} :
    coerceAll asTransform components = .error f ↔ ∃ before name spec rest,
      components = before ++ (name, spec) :: rest ∧
      (∀ c ∈ before, IsAccepted asTransform c.2) ∧
      ComponentEntry.coerce asTransform spec = .error f := by
  rw [coerceAll_eq_mapM, mapM_eq_error_iff]
  simp only [map_eq_ok_iff, map_eq_error_iff]
  constructor
  · intro h
    obtain ⟨before, ⟨name, spec⟩, rest, hc, hb, hf⟩ := h
    refine ⟨before, name, spec, rest, hc, ?_, hf⟩
    intro c hmem
    obtain ⟨-, entry, he, -⟩ := hb c hmem
    exact ⟨entry, he⟩
  · intro h
    obtain ⟨before, name, spec, rest, hc, hb, hf⟩ := h
    refine ⟨before, (name, spec), rest, hc, ?_, hf⟩
    intro c hmem
    obtain ⟨entry, he⟩ := hb c hmem
    exact ⟨_, entry, he, rfl⟩

/-- What stands in the tables before components are stored. -/
def withData (more : Additions) : Registries :=
  { r with
    roots := r.roots.update (Entries.given more.roots)
    styles := r.styles.update (Entries.given more.styles)
    actions := r.actions.update more.actions }

variable (asTransform)

/-- What stands in the tables after everything is merged. -/
def withAll (more : Additions) : Registries :=
  { r.withData more with
    components :=
      r.components.update (more.components.map fun c => (c.1, kept asTransform c.2)) }

variable {asTransform} {r}

theorem mergeData_of_ok {roots styles : Value} (h : (r.mergeData roots styles).1 = .ok ()) :
    (r.mergeData roots styles).2 = { r with
      roots := r.roots.update (Entries.given roots)
      styles := r.styles.update (Entries.given styles) } := by
  rw [mergeData] at h ⊢
  cases hr : addData r.roots roots with
  | mk t done =>
    cases done with
    | error f =>
      rw [hr] at h
      cases h
    | ok u =>
      rw [hr] at h
      have ht : t = r.roots.update (Entries.given roots) := by
        have := addData_of_ok (t := r.roots) (v := roots) (by rw [hr])
        rwa [hr] at this
      rw [ht, ← addData_of_ok h]

theorem mergeData_of_isData {roots styles : Value} (hr : IsData roots) (hs : IsData styles) :
    (r.mergeData roots styles).1 = .ok () := by
  rw [mergeData]
  cases h : addData r.roots roots with
  | mk t done =>
    have hdone : done = .ok () := by
      have := addData_of_isData r.roots hr
      rwa [h] at this
    rw [hdone]
    exact addData_of_isData r.styles hs

theorem mergeData_keeps (roots styles : Value) :
    (r.mergeData roots styles).2.actions = r.actions ∧
      (r.mergeData roots styles).2.components = r.components := by
  rw [mergeData]
  split <;> exact ⟨rfl, rfl⟩

variable {more : Additions}

/-- Actions and components come into tables of their own. -/
theorem data_merge :
    (r.merge asTransform more).2.roots = (r.mergeData more.roots more.styles).2.roots ∧
      (r.merge asTransform more).2.styles = (r.mergeData more.roots more.styles).2.styles := by
  rw [merge]
  cases r.mergeData more.roots more.styles with
  | mk done r' =>
    cases done with
    | error f => exact ⟨rfl, rfl⟩
    | ok u =>
      dsimp only [mergeHost]
      cases coerceAll asTransform more.components <;> exact ⟨rfl, rfl⟩

theorem roots_merge_induction {P : Entries → Prop} (asTransform : Value → Transform)
    (hw : ∀ e ∈ Entries.given more.roots, ∀ t, P t → P (Table.insert t e.1 e.2)) (hr : P r.roots) :
    P (r.merge asTransform more).2.roots := by
  have hdata := addData_induction hw hr
  rw [data_merge.1, mergeData]
  cases h : addData r.roots more.roots with
  | mk t done =>
    rw [h] at hdata
    cases done <;> exact hdata

theorem styles_merge_induction {P : Entries → Prop} (asTransform : Value → Transform)
    (hw : ∀ e ∈ Entries.given more.styles, ∀ t, P t → P (Table.insert t e.1 e.2))
    (hr : P r.styles) : P (r.merge asTransform more).2.styles := by
  rw [data_merge.2, mergeData]
  cases addData r.roots more.roots with
  | mk t done =>
    cases done with
    | error f => exact hr
    | ok u => exact addData_induction hw hr

/-- Where data is refused, nothing comes after it. -/
theorem merge_of_data_error {f : Failure} (h : (r.mergeData more.roots more.styles).1 = .error f) :
    r.merge asTransform more = (.fail f, (r.mergeData more.roots more.styles).2) := by
  rw [merge]
  cases hd : r.mergeData more.roots more.styles with
  | mk done r' =>
    rw [hd] at h
    dsimp only at h
    rw [h]

theorem merge_of_component_error {f : Failure}
    (hd : (r.mergeData more.roots more.styles).1 = .ok ())
    (hc : coerceAll asTransform more.components = .error f) :
    r.merge asTransform more = (.fail f, r.withData more) := by
  have hr := mergeData_of_ok hd
  rw [merge]
  cases h : r.mergeData more.roots more.styles with
  | mk done r' =>
    rw [h] at hd hr
    dsimp only at hd hr
    rw [hd, hr]
    simp only [mergeHost, hc]
    rfl

theorem merge_of_ok {stored : ComponentTable}
    (hd : (r.mergeData more.roots more.styles).1 = .ok ())
    (hc : coerceAll asTransform more.components = .ok stored) :
    r.merge asTransform more =
      (Outcome.log .registries .debug (r.withAll asTransform more).sizesText,
        r.withAll asTransform more) := by
  have hr := mergeData_of_ok hd
  rw [merge]
  cases h : r.mergeData more.roots more.styles with
  | mk done r' =>
    rw [h] at hd hr
    dsimp only at hd hr
    rw [hd, hr]
    simp only [mergeHost, hc, coerceAll_eq_ok hc]
    rfl

/-- Data alone is always merged. -/
theorem merge_of_isData (asTransform : Value → Transform) (r : Registries) {roots styles : Value}
    (hr : IsData roots) (hs : IsData styles) (actions : ActionTable) :
    (r.merge asTransform ⟨roots, styles, actions, []⟩).1.result = .ok () ∧
      (r.merge asTransform ⟨roots, styles, actions, []⟩).2 =
        r.withData ⟨roots, styles, actions, []⟩ := by
  have h : r.merge asTransform ⟨roots, styles, actions, []⟩ = _ :=
    merge_of_ok (mergeData_of_isData hr hs) rfl
  rw [h]
  exact ⟨rfl, rfl⟩

theorem result_merge_eq_error_iff {f : Failure} :
    (r.merge asTransform more).1.result = .error f ↔
      (r.mergeData more.roots more.styles).1 = .error f ∨
        (r.mergeData more.roots more.styles).1 = .ok () ∧
          coerceAll asTransform more.components = .error f := by
  cases hd : (r.mergeData more.roots more.styles).1 with
  | error g =>
    rw [merge_of_data_error hd]
    simp
  | ok u =>
    cases hc : coerceAll asTransform more.components with
    | error g =>
      rw [merge_of_component_error hd hc]
      simp
    | ok stored =>
      rw [merge_of_ok hd hc]
      simp [Outcome.log]

theorem merge_eq_of_ok (h : (r.merge asTransform more).1.result = .ok ()) :
    (r.merge asTransform more).2 = r.withAll asTransform more := by
  cases hd : (r.mergeData more.roots more.styles).1 with
  | error g =>
    rw [merge_of_data_error hd] at h
    cases h
  | ok u =>
    cases hc : coerceAll asTransform more.components with
    | error g =>
      rw [merge_of_component_error hd hc] at h
      cases h
    | ok stored => rw [merge_of_ok hd hc]

theorem components_merge_of_error {f : Failure}
    (h : (r.merge asTransform more).1.result = .error f) :
    (r.merge asTransform more).2.components = r.components := by
  rcases result_merge_eq_error_iff.1 h with hd | ⟨hd, hc⟩
  · rw [merge_of_data_error hd]
    exact (mergeData_keeps _ _).2
  · rw [merge_of_component_error hd hc]
    rfl

theorem withData_of_nothing (hr : more.roots.truthy = false) (hs : more.styles.truthy = false)
    (ha : more.actions = []) : r.withData more = r := by
  rw [withData, Entries.given_of_not_truthy hr, Entries.given_of_not_truthy hs, ha]
  rfl

theorem mergeData_of_nothing {roots styles : Value} (hr : roots.truthy = false)
    (hs : styles.truthy = false) : (r.mergeData roots styles).1 = .ok () := by
  have hdata (t : Entries) {v : Value} (hv : v.truthy = false) : addData t v = (t, .ok ()) := by
    rw [addData, hv]
    rfl
  rw [mergeData, hdata _ hr]
  exact congrArg Prod.snd (hdata r.styles hs)

end Registries

namespace Workspace

variable (asTransform : Value → Transform) (w : Workspace) (id : Nat) (more : Additions)

theorem result_setup : (w.setup asTransform id more).1.result =
    ((w.engine id).registries.merge asTransform more).1.result := rfl

/-- Setting up an engine merges into the registries that it holds, and into no others. -/
theorem registriesAt_setup {n : Nat} (hn : n < w.registries.length) :
    (w.setup asTransform id more).2.registriesAt n =
      if (w.slot id).registries = n then ((w.registriesAt n).merge asTransform more).2
      else w.registriesAt n := by
  have hset : (w.setup asTransform id more).2.registries = w.registries.set (w.slot id).registries
      ((w.registriesAt (w.slot id).registries).merge asTransform more).2 := rfl
  rw [registriesAt, hset, List.getD_eq_getElem?_getD, List.getElem?_set]
  by_cases h : (w.slot id).registries = n
  · rw [if_pos h, if_pos h, if_pos (h ▸ hn), h]
    rfl
  · rw [if_neg h, if_neg h]
    rfl

theorem registries_engine_setup (hid : (w.slot id).registries < w.registries.length) :
    ((w.setup asTransform id more).2.engine id).registries =
      ((w.engine id).registries.merge asTransform more).2 := by
  have h := registriesAt_setup asTransform w id more hid
  rw [if_pos rfl] at h
  exact h

end Workspace

namespace Registries

open Table (Written)

/-- A merge fails at data that is no data, or else at the first component that is refused. It never
touches the components then; but what comes before them is merged, unless nothing does. -/
theorem merge_refused (asTransform : Value → Transform) (more : Additions) :
    (∀ (r : Registries) (f : Failure), (r.merge asTransform more).1.result = .error f ↔
      (r.mergeData more.roots more.styles).1 = .error f ∨
      (r.mergeData more.roots more.styles).1 = .ok () ∧ ∃ before name spec rest,
        more.components = before ++ (name, spec) :: rest ∧
        (∀ c ∈ before, IsAccepted asTransform c.2) ∧
        ComponentEntry.coerce asTransform spec = .error f) ∧
    (∀ (r : Registries) (f : Failure), (r.merge asTransform more).1.result = .error f →
      let after := (r.merge asTransform more).2
      after.components = r.components ∧
      ((∃ g, (r.mergeData more.roots more.styles).1 = .error g) → after.actions = r.actions) ∧
      ((r.mergeData more.roots more.styles).1 = .ok () →
        Written r.roots (Entries.given more.roots) after.roots ∧
        Written r.styles (Entries.given more.styles) after.styles ∧
        Written r.actions more.actions after.actions) ∧
      (more.roots.truthy = false → more.styles.truthy = false → more.actions = [] → after = r)) ∧
    (∀ (w : Workspace) (id : Nat), (w.slot id).registries < w.registries.length →
      (w.setup asTransform id more).1.result =
        ((w.engine id).registries.merge asTransform more).1.result ∧
      ((w.setup asTransform id more).2.engine id).registries =
        ((w.engine id).registries.merge asTransform more).2) := by
  refine ⟨?_, ?_, ?_⟩
  · intro r f
    rw [result_merge_eq_error_iff, coerceAll_eq_error_iff]
  · intro r f h
    refine ⟨components_merge_of_error h, ?_, ?_, ?_⟩
    · intro hd
      obtain ⟨g, hd⟩ := hd
      rw [merge_of_data_error hd]
      exact (mergeData_keeps _ _).1
    · intro hd
      have hc : coerceAll asTransform more.components = .error f := by
        rcases result_merge_eq_error_iff.1 h with hd' | ⟨-, hc⟩
        · rw [hd] at hd'
          cases hd'
        · exact hc
      rw [merge_of_component_error hd hc]
      exact ⟨Table.written_update _ _, Table.written_update _ _, Table.written_update _ _⟩
    · intro hr hs ha
      have hd : (r.mergeData more.roots more.styles).1 = .ok () := mergeData_of_nothing hr hs
      rcases result_merge_eq_error_iff.1 h with hd' | ⟨-, hc⟩
      · rw [hd] at hd'
        cases hd'
      · rw [merge_of_component_error hd hc]
        exact withData_of_nothing hr hs ha
  · intro w id hid
    exact ⟨rfl, Workspace.registries_engine_setup asTransform w id more hid⟩

/-- The second component is only a name of an element; the data that came with it stays. -/
theorem merge_refused_second :
    let asTransform : Value → Transform := fun _ => Transform.identity
    let box : ComponentSpec := .entry ⟨.text "div", Transform.identity⟩
    let more : Additions := ⟨.map [(.text "@state", .int 1)], .null, [],
      [(.text "Box", box), (.text "Text", .value (.text "span"))]⟩
    let after := (empty.merge asTransform more).2
    (empty.merge asTransform more).1.result = .error (.notComponentEntry (.text "span")) ∧
      after.components = [] ∧ Written [] [(.text "@state", .int 1)] after.roots ∧
      after.roots = [(.text "@state", .int 1)] ∧
      (let w : Workspace := ⟨[empty], [⟨0, .standard, none⟩], none, .int 30⟩
       ((w.setup asTransform 0 more).2.engine 0).registries = after) := by
  intro asTransform box more after
  obtain ⟨hfails, hleaves, hsetup⟩ := merge_refused asTransform more
  have hf : (empty.merge asTransform more).1.result =
      .error (.notComponentEntry (.text "span")) := by
    refine (hfails empty _).2 (.inr ⟨rfl, [(.text "Box", box)], .text "Text", _, [], rfl, ?_, rfl⟩)
    intro c hc
    rw [List.mem_singleton.1 hc]
    exact ⟨_, rfl⟩
  obtain ⟨hc, -, hdata, -⟩ := hleaves empty _ hf
  exact ⟨hf, hc, (hdata rfl).1, rfl, (hsetup _ 0 (by decide)).2⟩

/-- Failing merges do not leave registries as they were. -/
theorem merge_refused_keeps_data :
    ¬ ∀ (asTransform : Value → Transform) (r : Registries) (more : Additions) (f : Failure),
      (r.merge asTransform more).1.result = .error f → (r.merge asTransform more).2 = r := by
  intro h
  let more : Additions := ⟨.map [(.text "@state", .int 1)], .null, [],
    [(.text "Text", .value (.text "span"))]⟩
  have hsame := h (fun _ => Transform.identity) empty more (.notComponentEntry (.text "span")) rfl
  have hroots : [(Value.text "@state", Value.int 1)] = [] := congrArg Registries.roots hsame
  cases hroots

end Registries
end ViewDoc
