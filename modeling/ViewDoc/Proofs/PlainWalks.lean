import ViewDoc.Proofs.Walks

/-!
Walks into plain data: maps, lists, tuples and texts.

A value has something under a segment or it has not, and where it has not the walk goes on from the
default. One thing alone stands in the way, a segment that looks like a number and cannot be read as
one. It ends the walk wherever it would be tried as a number.
-/

namespace ViewDoc.Path

/-- Values that are built from maps, lists, tuples and texts only; the keys of maps can be
anything. -/
inductive IsTree : Value → Prop
  | text (t : String) : IsTree (.text t)
  | markup (t : String) : IsTree (.markup t)
  | list {items : List Value} : (∀ v ∈ items, IsTree v) → IsTree (.list items)
  | tuple {items : List Value} : (∀ v ∈ items, IsTree v) → IsTree (.tuple items)
  | map {entries : Entries} : (∀ e ∈ entries, IsTree e.2) → IsTree (.map entries)

/-- The number that a segment says in the decimal digits of any script, at most 4300 of them. -/
def number? (segment : String) : Option Nat :=
  let cs := segment.toList
  if !cs.isEmpty && cs.all Text.isDecimal && cs.length ≤ Text.digitLimit then
    some (Text.decimalValue cs)
  else none

/-- A segment that consists of digits, not all of them decimal or too many of them. -/
def IsUnreadable (segment : String) : Prop :=
  let cs := segment.toList
  (cs ≠ [] ∧ ∀ c ∈ cs, Text.isDigit c) ∧
    ¬ ((∀ c ∈ cs, Text.isDecimal c) ∧ cs.length ≤ Text.digitLimit)

/-- The length, or the item at the position that a segment says. -/
def item? (items : List Value) (segment : String) : Option Value :=
  if segment = "length" then some (.int items.length)
  else (number? segment).bind fun n => items[n]?

/-- What a value has under a segment. Only lengths are numbers in plain data. -/
def member? : Value → String → Option Value
  | .map entries, s =>
    (Table.get? entries s).or ((number? s).bind fun n => Table.find? entries (.int n))
  | .list items, s | .tuple items, s => item? items s
  | .text t, s => item? (t.toList.map fun c => .text (String.singleton c)) s
  | .markup t, s => item? (t.toList.map fun c => .markup (String.singleton c)) s
  | .int n, s =>
    if s = "real" ∨ s = "numerator" then some (.int n)
    else if s = "imag" then some (.int 0)
    else if s = "denominator" then some (.int 1)
    else none
  | _, _ => none

/-- Goes along all segments from left to right, from the default where one is absent. -/
def plainWalk (default v : Value) (segments : List String) : Value :=
  segments.foldl (fun v s => (member? v s).getD default) v

/-- An unreadable segment meets a value that it is tried on as a number: a map without an entry of
that name, or something with positions. -/
def Refuses : Value → String → Prop
  | .map entries, s => Table.get? entries s = none ∧ IsUnreadable s
  | .list _, s | .tuple _, s | .text _, s | .markup _, s => IsUnreadable s
  | _, _ => False

/-- The plain walk comes to a value that refuses the next segment. -/
def Trips (default v : Value) (segments : List String) : Prop :=
  ∃ before s after, segments = before ++ s :: after ∧ Refuses (plainWalk default v before) s

/-- What a walk through plain data can be at: plain data, or a length. -/
def IsReached (v : Value) : Prop := IsTree v ∨ ∃ n, v = .int n

theorem position_cases (s : String) :
    (∃ n, position s = .index n ∧ number? s = some n ∧ ¬ IsUnreadable s) ∨
    (position s = .name ∧ number? s = none ∧ ¬ IsUnreadable s) ∨
    (position s = .unreadable ∧ number? s = none ∧ IsUnreadable s) := by
  unfold position number? IsUnreadable
  generalize s.toList = cs
  have hnumber : (!cs.isEmpty && cs.all Text.isDecimal && cs.length ≤ Text.digitLimit) = true ↔
      cs ≠ [] ∧ (∀ c ∈ cs, Text.isDecimal c = true) ∧ cs.length ≤ Text.digitLimit := by
    simp [and_assoc]
  by_cases hdigits : cs ≠ [] ∧ ∀ c ∈ cs, Text.isDigit c = true
  · have hall : (cs.isEmpty || !cs.all Text.isDigit) = false := by simpa using hdigits
    by_cases hread : (∀ c ∈ cs, Text.isDecimal c = true) ∧ cs.length ≤ Text.digitLimit
    · have hdecimal : (cs.all Text.isDecimal && cs.length ≤ Text.digitLimit) = true := by
        simpa using hread
      refine .inl ⟨Text.decimalValue cs, ?_, if_pos (hnumber.2 ⟨hdigits.1, hread⟩), ?_⟩
      · simp only [hall, hdecimal, Bool.false_eq_true, if_false, if_true]
      · exact fun h => h.2 hread
    · have hdecimal : (cs.all Text.isDecimal && cs.length ≤ Text.digitLimit) = false := by
        simpa using hread
      refine .inr (.inr ⟨?_, if_neg fun h => hread (hnumber.1 h).2, hdigits, hread⟩)
      simp only [hall, hdecimal, Bool.false_eq_true, if_false]
  · have hall : (cs.isEmpty || !cs.all Text.isDigit) = true := by
      rw [← Bool.not_eq_false]
      simpa using hdigits
    refine .inr (.inl ⟨?_, if_neg ?_, fun h => hdigits h.1⟩)
    · simp only [hall, if_true]
    · intro h
      obtain ⟨hne, hdecimal, -⟩ := hnumber.1 h
      exact hdigits ⟨hne, fun c hc => Text.isDigit_of_isDecimal (hdecimal c hc)⟩

theorem stepItems_cases (items : List Value) (s : String) :
    (IsUnreadable s ∧ stepItems items s = .refused) ∨
    (¬ IsUnreadable s ∧ stepItems items s = .ofOption (item? items s)) := by
  unfold stepItems item?
  by_cases hs : s = "length"
  · have hreadable : ¬ IsUnreadable "length" := by
      intro h
      exact absurd (h.1.2 'l' (by decide)) (by decide)
    rw [if_pos hs, if_pos hs, hs]
    exact .inr ⟨hreadable, rfl⟩
  rw [if_neg hs, if_neg hs]
  rcases position_cases s with ⟨n, hp, hn, hu⟩ | ⟨hp, hn, hu⟩ | ⟨hp, hn, hu⟩
  · rw [hp, hn]
    exact .inr ⟨hu, rfl⟩
  · rw [hp, hn]
    exact .inr ⟨hu, rfl⟩
  · rw [hp]
    exact .inl ⟨hu, rfl⟩

theorem stepEntries_cases (entries : Entries) (s : String) :
    (Refuses (.map entries) s ∧ stepEntries entries s = .refused) ∨
    (¬ Refuses (.map entries) s ∧
      stepEntries entries s = .ofOption (member? (.map entries) s)) := by
  have hrefuses : Refuses (.map entries) s ↔ entries.get? s = none ∧ IsUnreadable s := Iff.rfl
  have hmember : member? (.map entries) s =
      (entries.get? s).or ((number? s).bind fun n => entries.find? (.int n)) := rfl
  rw [hrefuses, hmember]
  unfold stepEntries
  cases entries.get? s with
  | some v => exact .inr ⟨fun h => Option.some_ne_none v h.1, rfl⟩
  | none =>
    rcases position_cases s with ⟨n, hp, hn, hu⟩ | ⟨hp, hn, hu⟩ | ⟨hp, hn, hu⟩
    · rw [hp, hn]
      exact .inr ⟨fun h => hu h.2, rfl⟩
    · rw [hp, hn]
      exact .inr ⟨fun h => hu h.2, rfl⟩
    · rw [hp]
      exact .inl ⟨⟨rfl, hu⟩, rfl⟩

theorem numberField_int (n : Int) (s : String) :
    numberField (.int n) (.int 0) (.int n) (.int 1) s = .ofOption (member? (.int n) s) := by
  unfold numberField
  split
  · rfl
  · rfl
  · rfl
  · rfl
  · rename_i hre him hnum hden
    have hfirst : ¬ (s = "real" ∨ s = "numerator") := fun h => h.elim hre hnum
    rw [member?, if_neg hfirst, if_neg him, if_neg hden]
    rfl

/-- A step into plain data is refused, or else finds just what is there. -/
theorem step_cases {v : Value} (h : IsReached v) (s : String) :
    (Refuses v s ∧ step v s = .refused) ∨ (¬ Refuses v s ∧ step v s = .ofOption (member? v s)) := by
  rcases h with h | ⟨n, rfl⟩
  · cases h with
    | text t => exact stepItems_cases _ s
    | markup t => exact stepItems_cases _ s
    | list _ => exact stepItems_cases _ s
    | tuple _ => exact stepItems_cases _ s
    | map _ => exact stepEntries_cases _ s
  · exact .inr ⟨id, numberField_int n s⟩

theorem isReached_of_item? {items : List Value} (h : ∀ v ∈ items, IsTree v) {s : String} {w : Value}
    (hw : item? items s = some w) : IsReached w := by
  rw [item?] at hw
  split at hw
  · exact .inr ⟨_, (Option.some.inj hw).symm⟩
  · obtain ⟨n, -, hn⟩ := Option.bind_eq_some_iff.1 hw
    exact .inl (h w (List.mem_of_getElem? hn))

theorem mem_of_find? {entries : Entries} {key w : Value} (h : entries.find? key = some w) :
    ∃ e ∈ entries, e.2 = w := by
  obtain ⟨e, he, hw⟩ := Option.map_eq_some_iff.1 h
  exact ⟨e, List.mem_of_find?_eq_some he, hw⟩

/-- Everything inside plain data is plain data, and lengths have only numbers in them. -/
theorem isReached_of_member? {v w : Value} {s : String} (h : IsReached v)
    (hw : member? v s = some w) : IsReached w := by
  rcases h with h | ⟨n, rfl⟩
  · cases h with
    | text t =>
      refine isReached_of_item? ?_ hw
      intro v hv
      obtain ⟨c, -, rfl⟩ := List.mem_map.1 hv
      exact .text _
    | markup t =>
      refine isReached_of_item? ?_ hw
      intro v hv
      obtain ⟨c, -, rfl⟩ := List.mem_map.1 hv
      exact .markup _
    | list hitems => exact isReached_of_item? hitems hw
    | tuple hitems => exact isReached_of_item? hitems hw
    | @map entries hentries =>
      have hfind : ∃ key, entries.find? key = some w := by
        rcases Option.or_eq_some_iff.1 hw with hw | ⟨-, hw⟩
        · exact ⟨_, hw⟩
        · obtain ⟨n, -, hn⟩ := Option.bind_eq_some_iff.1 hw
          exact ⟨_, hn⟩
      obtain ⟨key, hkey⟩ := hfind
      obtain ⟨e, he, rfl⟩ := mem_of_find? hkey
      exact .inl (hentries e he)
  · rw [member?] at hw
    split at hw
    · exact .inr ⟨_, (Option.some.inj hw).symm⟩
    split at hw
    · exact .inr ⟨_, (Option.some.inj hw).symm⟩
    split at hw
    · exact .inr ⟨_, (Option.some.inj hw).symm⟩
    · cases hw

variable {default v : Value}

theorem not_trips_nil : ¬ Trips default v [] := by
  intro h
  obtain ⟨before, s, after, hsegments, -⟩ := h
  cases before <;> cases hsegments

theorem trips_cons_iff {s : String} {rest : List String} : Trips default v (s :: rest) ↔
    Refuses v s ∨ Trips default ((member? v s).getD default) rest := by
  constructor
  · intro h
    obtain ⟨before, t, after, hsegments, ht⟩ := h
    cases before with
    | nil =>
      obtain ⟨rfl, -⟩ := List.cons.inj hsegments
      exact .inl ht
    | cons u before =>
      obtain ⟨rfl, rfl⟩ := List.cons.inj hsegments
      exact .inr ⟨before, t, after, rfl, ht⟩
  · intro h
    rcases h with h | ⟨before, t, after, rfl, ht⟩
    · exact ⟨[], s, rest, rfl, h⟩
    · exact ⟨s :: before, t, after, rfl, ht⟩

/-- A walk into plain data stops just where the plain walk trips, and is the plain walk
otherwise. -/
theorem stops_or_plain (hd : IsTree default) (hv : IsReached v) (segments : List String) :
    (Stops default v segments ↔ Trips default v segments) ∧
    (¬ Trips default v segments → walk default v segments = plainWalk default v segments) := by
  induction segments generalizing v with
  | nil => exact ⟨iff_of_false not_stops_nil not_trips_nil, fun _ => rfl⟩
  | cons s rest ih =>
    rw [trips_cons_iff]
    rcases step_cases hv s with ⟨hr, hs⟩ | ⟨hr, hs⟩
    · exact ⟨iff_of_true (.here rest hs) (.inl hr), fun h => absurd (.inl hr) h⟩
    have hplain : plainWalk default v (s :: rest) =
        plainWalk default ((member? v s).getD default) rest := rfl
    rw [or_iff_right hr, hplain]
    cases hw : member? v s with
    | some w =>
      rw [hw] at hs
      rw [stops_cons_of_found hs, walk_cons_of_found hs]
      exact ih (isReached_of_member? hv hw)
    | none =>
      rw [hw] at hs
      rw [stops_cons_of_absent hs, walk_cons_of_absent hs]
      exact ih (.inl hd)

/-- In plain data an absent segment sends the walk on from the default, and never ends it. Only an
unreadable one does that, where it is tried as a number; then the default is all there is. -/
theorem at_plain_or_tripped {container default : Value} (hc : IsTree container)
    (hd : IsTree default) (path : String) :
    (Stops default container (segments path) ↔ Trips default container (segments path)) ∧
    (¬ Trips default container (segments path) →
      container.at (.text path) default = .ok (plainWalk default container (segments path))) ∧
    (Trips default container (segments path) →
      container.at (.text path) default = .ok default) := by
  obtain ⟨hstops, hplain⟩ := stops_or_plain hd (.inl hc) (segments path)
  refine ⟨hstops, ?_, ?_⟩
  · intro h
    rw [at_text, hplain h]
  · intro h
    rw [at_text, walk_of_stops (hstops.2 h)]

/-- A superscript is a name in a map that has it, and cannot be read in a list; a position too high
leads through the default. -/
theorem at_plain_or_tripped_superscript :
    let container : Value := .map [(.text "a", .list [.text "x", .map [(.text "²", .text "y")]])]
    let default : Value := .map [(.text "b", .tuple [.text "z"])]
    IsTree container ∧ IsTree default ∧
      ¬ Trips default container (segments "a.1.²") ∧
      container.at (.text "a.1.²") default = .ok (.text "y") ∧
      ¬ Trips default container (segments "a[7].b[0]") ∧
      container.at (.text "a[7].b[0]") default = .ok (.text "z") ∧
      Trips default container (segments "a.².1") ∧
      container.at (.text "a.².1") default = .ok default := by
  intro container default
  have hinner : IsTree (.map [(.text "²", .text "y")]) :=
    .map fun e he => List.mem_singleton.1 he ▸ .text "y"
  have hitems : IsTree (.list [.text "x", .map [(.text "²", .text "y")]]) :=
    .list (List.forall_mem_cons.2 ⟨.text "x", fun v hv => List.mem_singleton.1 hv ▸ hinner⟩)
  have hcontainer : IsTree container := .map fun e he => List.mem_singleton.1 he ▸ hitems
  have htuple : IsTree (.tuple [.text "z"]) :=
    .tuple fun v hv => List.mem_singleton.1 hv ▸ .text "z"
  have hdefault : IsTree default := .map fun e he => List.mem_singleton.1 he ▸ htuple
  obtain ⟨hnamed, hy, -⟩ := at_plain_or_tripped hcontainer hdefault "a.1.²"
  obtain ⟨habsent, hz, -⟩ := at_plain_or_tripped hcontainer hdefault "a[7].b[0]"
  obtain ⟨htried, -, hdef⟩ := at_plain_or_tripped hcontainer hdefault "a.².1"
  have hfirst : ¬ Trips default container (segments "a.1.²") := by
    have hsegments : segments "a.1.²" = ["a", "1", "²"] := by decide
    rw [← hnamed, hsegments, stops_cons_of_found rfl, stops_cons_of_found rfl,
      stops_cons_of_found rfl]
    exact not_stops_nil
  have hsecond : ¬ Trips default container (segments "a[7].b[0]") := by
    have hsegments : segments "a[7].b[0]" = ["a", "7", "b", "0"] := by decide
    rw [← habsent, hsegments, stops_cons_of_found rfl, stops_cons_of_absent rfl,
      stops_cons_of_found rfl, stops_cons_of_found rfl]
    exact not_stops_nil
  have hthird : Trips default container (segments "a.².1") := by
    have hsegments : segments "a.².1" = ["a", "²", "1"] := by decide
    rw [← htried, hsegments]
    exact .found rfl (.here ["1"] rfl)
  exact ⟨hcontainer, hdefault, hfirst, hy hfirst, hsecond, hz hsecond, hthird, hdef hthird⟩

/-- The superscript is absent from the map, and yet the walk does not go on from the default. -/
theorem not_at_eq_plainWalk :
    ¬ ∀ {container default : Value}, IsTree container → IsTree default → ∀ path,
      container.at (.text path) default = .ok (plainWalk default container (segments path)) := by
  intro h
  have hcontainer : IsTree (.map [(.text "a", .text "x")]) :=
    .map fun e he => List.mem_singleton.1 he ▸ .text "x"
  have hdefault : IsTree (.map [(.text "a", .text "y")]) :=
    .map fun e he => List.mem_singleton.1 he ▸ .text "y"
  have hsegments : segments "².a" = ["²", "a"] := by decide
  have hgoes := h hcontainer hdefault "².a"
  rw [at_text, hsegments, walk_cons_of_refused rfl] at hgoes
  have hy : plainWalk (.map [(.text "a", .text "y")]) (.map [(.text "a", .text "x")])
      ["²", "a"] = .text "y" := rfl
  rw [hy] at hgoes
  cases hgoes

end ViewDoc.Path
