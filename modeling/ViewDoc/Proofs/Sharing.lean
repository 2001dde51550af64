import ViewDoc.Proofs.Merging

/-!
Setup calls over whole runs, where several engines can hold the same registries.

A table holds what it held at first and what the calls wrote that went to an engine over these very
registries; all other calls pass it by.
-/

namespace ViewDoc

open Table (Written written_update)

namespace Registries

theorem isInitialized_iff {r : Registries} : r.isInitialized = true ↔ r.components ≠ [] := by
  rw [isInitialized, Bool.not_eq_true', List.isEmpty_eq_false_iff]

theorem isInitialized_eq_false_iff {r : Registries} :
    r.isInitialized = false ↔ r.components = [] := by
  rw [isInitialized, Bool.not_eq_false', List.isEmpty_iff]

variable {asTransform : Value → Transform}

/-- A table that each merge writes to is written to by all of them in turn. -/
theorem table_foldl_withAll {β : Type} (table : Registries → Table β)
    (writes : Additions → List (Value × β))
    (h : ∀ r more, table (withAll asTransform r more) = (table r).update (writes more))
    (r : Registries) (calls : List Additions) :
    table (calls.foldl (withAll asTransform) r) = (table r).update (calls.flatMap writes) := by
  induction calls generalizing r with
  | nil => rfl
  | cons more calls ih => rw [List.foldl_cons, ih, h, List.flatMap_cons, Table.update_append]

theorem kept_eq_entry {spec : ComponentSpec} {entry : ComponentEntry}
    (h : ComponentEntry.coerce asTransform spec = .ok entry) :
    kept asTransform spec = .entry entry := by
  rw [kept, h]

/-- The components of a merge that succeeds are all accepted. -/
theorem exists_entry_of_merge {r : Registries} {more : Additions}
    (h : (r.merge asTransform more).1.result = .ok ()) {c : Value × ComponentSpec}
    (hc : c ∈ more.components) : IsAccepted asTransform c.2 := by
  cases hs : ComponentEntry.coerce asTransform c.2 with
  | ok entry => exact ⟨entry, hs⟩
  | error f =>
    have hall : ∃ g, coerceAll asTransform more.components = .error g := by
      cases hall : coerceAll asTransform more.components with
      | error g => exact ⟨g, rfl⟩
      | ok stored =>
        rw [coerceAll_eq_mapM] at hall
        obtain ⟨e, -, he⟩ := exists_of_mapM_eq_ok hall hc
        rw [hs] at he
        cases he
    obtain ⟨g, hg⟩ := hall
    cases hd : (r.mergeData more.roots more.styles).1 with
    | error e =>
      rw [merge_of_data_error hd] at h
      cases h
    | ok u =>
      rw [merge_of_component_error hd hg] at h
      cases h

end Registries

namespace Workspace

/-- Engines hold registries that are there, and the default is an engine that is there. -/
structure IsSound (w : Workspace) : Prop where
  engines : ∀ s ∈ w.engines, s.registries < w.registries.length
  default : ∀ id, w.default = some id → id < w.engines.length

theorem IsSound.registries_lt {w : Workspace} (h : w.IsSound) {id : Nat}
    (hid : id < w.engines.length) : (w.slot id).registries < w.registries.length := by
  have hslot : w.slot id = w.engines[id] := by
    rw [slot, List.getD_eq_getElem?_getD, List.getElem?_eq_getElem hid, Option.getD_some]
  rw [hslot]
  exact h.engines _ (List.getElem_mem hid)

theorem isSound_setup {w : Workspace} (h : w.IsSound) (asTransform : Value → Transform) (id : Nat)
    (more : Additions) : (w.setup asTransform id more).2.IsSound := by
  have hlength : (w.setup asTransform id more).2.registries.length = w.registries.length :=
    List.length_set
  refine ⟨?_, h.default⟩
  intro s hs
  rw [hlength]
  exact h.engines s hs

/-- Setup calls to engines, one after the other, none of which fails. -/
inductive SetUp (asTransform : Value → Transform) :
    Workspace → List (Nat × Additions) → Workspace → Prop
  | nil (w : Workspace) : SetUp asTransform w [] w
  | cons {w w' : Workspace} {id : Nat} {more : Additions} {calls : List (Nat × Additions)} :
      (w.setup asTransform id more).1.result = .ok () →
      SetUp asTransform (w.setup asTransform id more).2 calls w' →
      SetUp asTransform w ((id, more) :: calls) w'

/-- What calls give to engines that hold the registries of a number. -/
def addressed (w : Workspace) (n : Nat) (calls : List (Nat × Additions)) : List Additions :=
  (calls.filter fun call => (w.slot call.1).registries == n).map (·.2)

variable {asTransform : Value → Transform} {w w' : Workspace} {calls : List (Nat × Additions)}

theorem addressed_cons (w : Workspace) (n id : Nat) (more : Additions)
    (calls : List (Nat × Additions)) : w.addressed n ((id, more) :: calls) =
      if (w.slot id).registries = n then more :: w.addressed n calls else w.addressed n calls := by
  rw [addressed, List.filter_cons]
  by_cases h : (w.slot id).registries = n
  · rw [if_pos h, if_pos (beq_iff_eq.2 h)]
    rfl
  · rw [if_neg h, if_neg (fun hb => h (beq_iff_eq.1 hb))]
    rfl

theorem SetUp.engines (h : SetUp asTransform w calls w') : w'.engines = w.engines := by
  induction h with
  | nil w => rfl
  | cons _ _ ih => exact ih

/-- All that a run does to registries is to merge what is addressed to them. -/
theorem SetUp.registriesAt (h : SetUp asTransform w calls w') {n : Nat}
    (hn : n < w.registries.length) : w'.registriesAt n =
      (w.addressed n calls).foldl (Registries.withAll asTransform) (w.registriesAt n) := by
  induction h with
  | nil w => rfl
  | @cons w w' id more calls hok _ ih =>
    have hlength : n < (w.setup asTransform id more).2.registries.length := by
      rw [setup, List.length_set]
      exact hn
    have haddressed : (w.setup asTransform id more).2.addressed n calls = w.addressed n calls := rfl
    rw [ih hlength, haddressed, registriesAt_setup asTransform w id more hn, addressed_cons]
    by_cases hid : (w.slot id).registries = n
    · have hmerge : ((w.registriesAt n).merge asTransform more).2 =
          Registries.withAll asTransform (w.registriesAt n) more := by
        rw [← hid]
        exact Registries.merge_eq_of_ok hok
      rw [if_pos hid, if_pos hid, hmerge, List.foldl_cons]
    · rw [if_neg hid, if_neg hid]

theorem SetUp.exists_entry (h : SetUp asTransform w calls w') {call : Nat × Additions}
    (hcall : call ∈ calls) {c : Value × ComponentSpec} (hc : c ∈ call.2.components) :
    Registries.IsAccepted asTransform c.2 := by
  induction h with
  | nil w => cases hcall
  | @cons w w' id more calls hok _ ih =>
    rcases List.mem_cons.1 hcall with rfl | hcall
    · exact Registries.exists_entry_of_merge hok hc
    · exact ih hcall

theorem SetUp.registries_engine (h : SetUp asTransform w calls w') (hw : w.IsSound) {id : Nat}
    (hid : id < w.engines.length) : (w'.engine id).registries =
      (w.addressed (w.slot id).registries calls).foldl (Registries.withAll asTransform)
        (w.engine id).registries := by
  have hslot : w'.slot id = w.slot id := by rw [slot, slot, h.engines]
  change w'.registriesAt (w'.slot id).registries = _
  rw [hslot]
  exact h.registriesAt (hw.registries_lt hid)

theorem mem_of_lookup? {β : Type} {t : Table β} {key : Value} {x : β}
    (h : t.lookup? key = some x) : ∃ k, (k, x) ∈ t := by
  rw [Table.lookup?] at h
  split at h
  · obtain ⟨e, he, rfl⟩ := Option.map_eq_some_iff.1 h
    exact ⟨e.1, List.mem_of_find?_eq_some he⟩
  · cases h

/-- Where no entry of the table is refused, rendering refuses none. -/
theorem entryOf?_of_accepted {r : Renderer}
    (h : ∀ c ∈ r.components, Registries.IsAccepted r.asTransform c.2)
    (type : Value) : ∃ entry, r.entryOf? type = .ok entry := by
  rw [Renderer.entryOf?]
  split
  · exact ⟨none, rfl⟩
  · exact ⟨none, rfl⟩
  · rename_i spec _ hl
    obtain ⟨k, hk⟩ := mem_of_lookup? hl
    obtain ⟨entry, he⟩ := h (k, spec) hk
    exact ⟨some entry, by rw [he]; rfl⟩

/-- After any run of setup calls the tables of an engine are what was written to its registries:
old keys first, new ones as they came, each with what it was last given. Calls to engines over other
registries make no difference. -/
theorem setUp_writes (host : Host) {w w' : Workspace} {calls : List (Nat × Additions)}
    (h : SetUp host.asTransform w calls w') (hw : w.IsSound) {id : Nat}
    (hid : id < w.engines.length) :
    let r := (w.engine id).registries
    let r' := (w'.engine id).registries
    let mine := w.addressed (w.slot id).registries calls
    (Written r.roots (mine.flatMap fun more => Entries.given more.roots) r'.roots ∧
      Written r.styles (mine.flatMap fun more => Entries.given more.styles) r'.styles ∧
      Written r.actions (mine.flatMap fun more => more.actions) r'.actions ∧
      Written r.components (mine.flatMap fun more =>
        more.components.map fun c => (c.1, Registries.kept host.asTransform c.2)) r'.components) ∧
    (∀ more ∈ mine, ∀ c ∈ more.components, ∃ entry,
      ComponentEntry.coerce host.asTransform c.2 = .ok entry ∧
        Registries.kept host.asTransform c.2 = .entry entry) ∧
    (r.roots.keys <+: r'.roots.keys ∧ r.styles.keys <+: r'.styles.keys ∧
      r.actions.keys <+: r'.actions.keys ∧ r.components.keys <+: r'.components.keys) ∧
    (r'.isInitialized = true ↔ r'.components ≠ []) ∧
    (r.isInitialized = true → r'.isInitialized = true) ∧
    ((∀ c ∈ r.components, Registries.IsAccepted host.asTransform c.2) →
      ∀ type, ∃ entry, ((w'.engine id).renderer host).entryOf? type = .ok entry) ∧
    (∀ others w'', SetUp host.asTransform w others w'' →
      w.addressed (w.slot id).registries others = mine → (w''.engine id).registries = r') := by
  intro r r' mine
  have hr' : r' = mine.foldl (Registries.withAll host.asTransform) r := h.registries_engine hw hid
  have htable {β : Type} (table : Registries → Table β) (writes : Additions → List (Value × β))
      (ht : ∀ r more, table (Registries.withAll host.asTransform r more) =
        (table r).update (writes more)) :
      table r' = (table r).update (mine.flatMap writes) := by
    rw [hr']
    exact Registries.table_foldl_withAll table writes ht r mine
  have hroots := htable Registries.roots (fun more => Entries.given more.roots) fun _ _ => rfl
  have hstyles := htable Registries.styles (fun more => Entries.given more.styles) fun _ _ => rfl
  have hactions := htable Registries.actions (fun more => more.actions) fun _ _ => rfl
  have hcomponents := htable Registries.components (fun more =>
    more.components.map fun c => (c.1, Registries.kept host.asTransform c.2)) fun _ _ => rfl
  have haccepted : ∀ more ∈ mine, ∀ c ∈ more.components,
      Registries.IsAccepted host.asTransform c.2 := by
    intro more hmore c hc
    obtain ⟨call, hcall, rfl⟩ := List.mem_map.1 hmore
    exact h.exists_entry (List.mem_filter.1 hcall).1 hc
  refine ⟨⟨?_, ?_, ?_, ?_⟩, ?_, ⟨?_, ?_, ?_, ?_⟩, Registries.isInitialized_iff, ?_, ?_, ?_⟩
  · exact hroots ▸ written_update _ _
  · exact hstyles ▸ written_update _ _
  · exact hactions ▸ written_update _ _
  · exact hcomponents ▸ written_update _ _
  · intro more hmore c hc
    obtain ⟨entry, he⟩ := haccepted more hmore c hc
    exact ⟨entry, he, Registries.kept_eq_entry he⟩
  · exact hroots ▸ Table.keys_prefix_update _ _
  · exact hstyles ▸ Table.keys_prefix_update _ _
  · exact hactions ▸ Table.keys_prefix_update _ _
  · exact hcomponents ▸ Table.keys_prefix_update _ _
  · intro hinit
    rw [Registries.isInitialized_iff] at hinit ⊢
    rw [hcomponents]
    exact Table.update_ne_nil hinit _
  · intro hall
    apply entryOf?_of_accepted
    change ∀ c ∈ r'.components, Registries.IsAccepted host.asTransform c.2
    rw [hcomponents]
    refine Table.forall_mem_update hall ?_
    intro e he
    obtain ⟨more, hmore, he⟩ := List.mem_flatMap.1 he
    obtain ⟨c, hc, rfl⟩ := List.mem_map.1 he
    obtain ⟨entry, he⟩ := haccepted more hmore c hc
    rw [Registries.kept_eq_entry he]
    exact ⟨entry, rfl⟩
  · intro others w'' hothers hsame
    rw [hothers.registries_engine hw hid, hsame, ← hr']

/-- Two engines share registries. The second one's call gives a root a new value, in its old place,
and a root behind it; the engine apart from them changes nothing. -/
theorem setUp_writes_shared :
    let host : Host :=
      ⟨fun _ _ _ _ => .fail .notCallable, fun _ => .identity, 0, ⟨.first, none⟩, 0⟩
    let w : Workspace := ⟨[.empty, .empty],
      [⟨0, .standard, none⟩, ⟨0, .standard, none⟩, ⟨1, .standard, none⟩], none, .int 30⟩
    let box : ComponentSpec := .mapping (.text "div") none
    let first : Additions := ⟨.map [(.text "@state", .int 1)], .null, [], [(.text "Box", box)]⟩
    let apart : Additions := ⟨.map [(.text "@state", .int 7)], .null, [], []⟩
    let second : Additions := ⟨.map [(.text "@props", .int 3), (.text "@state", .int 2)], .null,
      [], []⟩
    ∃ w' w'', SetUp host.asTransform w [(0, first), (2, apart), (1, second)] w' ∧
      SetUp host.asTransform w [(0, first), (1, second)] w'' ∧ w.IsSound ∧
      Written [] [(.text "@state", .int 1), (.text "@props", .int 3), (.text "@state", .int 2)]
        (w'.engine 0).registries.roots ∧
      (w'.engine 0).registries.roots = [(.text "@state", .int 2), (.text "@props", .int 3)] ∧
      (w'.engine 0).registries.isInitialized = true ∧
      (∃ entry, ((w'.engine 0).renderer host).entryOf? (.text "Box") = .ok entry) ∧
      (w''.engine 0).registries = (w'.engine 0).registries := by
  intro host w box first apart second
  have h : SetUp host.asTransform w [(0, first), (2, apart), (1, second)] _ :=
    .cons rfl (.cons rfl (.cons rfl (.nil _)))
  have hless : SetUp host.asTransform w [(0, first), (1, second)] _ :=
    .cons rfl (.cons rfl (.nil _))
  have hw : w.IsSound := ⟨by decide, by decide⟩
  have hfirst : 0 < w.engines.length := Nat.zero_lt_succ 2
  obtain ⟨⟨hroots, -⟩, -, -, hinit, -, hentry, hsame⟩ := setUp_writes host h hw hfirst
  refine ⟨_, _, h, hless, hw, hroots, rfl, hinit.2 (List.cons_ne_nil _ _), hentry ?_ _,
    hsame _ _ hless rfl⟩
  intro c hc
  cases hc

end Workspace
end ViewDoc
