import Mathlib.Data.List.DropRight
import ViewDoc.Proofs.CalendarDays
import ViewDoc.Proofs.Numerals

/-!
Times that are told a second time.

What is told of a time is no time again, whatever number it may begin with. Only the date of an old
time is one, the midnight of its day, and that is told by the same date.
-/

namespace ViewDoc

open Calendar

theorem Text.isBlank_of_isDigit {c : Char} (h : c.isDigit = true) : isBlank c = false := by
  rw [Char.isDigit, Bool.and_eq_true, decide_eq_true_eq, decide_eq_true_eq] at h
  have hlow : 48 ≤ c.toNat := h.1
  have hhigh : c.toNat ≤ 57 := h.2
  simp [isBlank, blankRanges]
  omega

/-- A text without white space at its ends is left as it is. -/
theorem Text.strip_eq_self {cs : List Char} (hhead : ∀ c ∈ cs.head?, isBlank c = false)
    (hlast : ∀ c ∈ cs.getLast?, isBlank c = false) : strip cs = cs := by
  have hfront : cs.dropWhile isBlank = cs := by
    refine List.dropWhile_eq_self_iff.2 fun hlength => ?_
    rw [hhead cs[0] (by rw [List.head?_eq_getElem?, List.getElem?_eq_getElem hlength]; rfl)]
    decide
  have hback : cs.rdropWhile isBlank = cs := by
    refine List.rdropWhile_eq_self_iff.2 fun hne => ?_
    rw [hlast _ (List.getLast?_eq_some_getLast hne)]
    decide
  rw [strip, hfront]
  exact hback

theorem Text.exists_strip_cons {c : Char} (h : isBlank c = false) (cs : List Char) :
    ∃ front, strip (c :: cs) = c :: front := by
  have hc : ¬ isBlank c = true := by simp [h]
  refine ⟨cs.rdropWhile isBlank, ?_⟩
  rw [strip, List.dropWhile_cons_of_neg hc, List.reverse_cons, List.dropWhile_append]
  split
  · rename_i hnil
    rw [List.dropWhile_cons_of_neg hc, List.rdropWhile, List.isEmpty_iff.1 hnil]
    rfl
  · rw [List.reverse_append]
    rfl

theorem mem_take_append_cons {xs ys : List Char} {c : Char} {count : Nat} (h : xs.length < count) :
    c ∈ (xs ++ c :: ys).take count := by
  obtain ⟨k, hk⟩ := Nat.exists_eq_succ_of_ne_zero (Nat.sub_ne_zero_of_lt h)
  rw [List.take_append, hk, List.take_succ_cons]
  exact List.mem_append_right _ List.mem_cons_self

namespace Iso

theorem digits?_eq_some {count n : Nat} {cs rest : List Char}
    (h : digits? count cs = some (n, rest)) :
    count ≤ cs.length ∧ (∀ c ∈ cs.take count, c.isDigit = true) ∧ rest = cs.drop count := by
  rw [digits?] at h
  split at h
  · rename_i hfront
    obtain ⟨-, rfl⟩ := Prod.mk.inj (Option.some.inj h)
    rw [List.length_take, List.all_eq_true] at hfront
    exact ⟨by omega, hfront.2, rfl⟩
  · cases h

theorem date?_eq_some {cs : List Char} {d : Date} (h : date? cs = some d) :
    (∀ c ∈ cs.take 4, c.isDigit = true) ∧
      (cs[4]? ≠ some '-' → cs[4]? ≠ some 'W' → ∀ c ∈ cs.take 8, c.isDigit = true) := by
  rw [date?, Option.bind_eq_bind, Option.bind_eq_some_iff] at h
  obtain ⟨⟨year, rest⟩, hyear, h⟩ := h
  obtain ⟨-, hfront, rfl⟩ := digits?_eq_some hyear
  refine ⟨hfront, fun hhyphen hweek => ?_⟩
  have hplain : (cs.drop 4).head? ≠ some '-' := by rwa [List.head?_drop]
  simp only [hplain, decide_false, if_false] at h
  split at h
  · rename_i rest hrest
    exact absurd (by rw [← List.head?_drop, hrest]; rfl) hweek
  · rw [Option.bind_eq_bind, Option.bind_eq_some_iff] at h
    obtain ⟨⟨month, rest⟩, hmonth, h⟩ := h
    obtain ⟨-, hmonths, rfl⟩ := digits?_eq_some hmonth
    simp only [skipHyphen?, Bool.false_eq_true, if_false, Option.bind_some,
      Option.bind_eq_some_iff] at h
    obtain ⟨⟨day, rest⟩, hday, -⟩ := h
    obtain ⟨-, hdays, -⟩ := digits?_eq_some hday
    intro c hc
    have hsplit : cs.take 8 = cs.take 4 ++ ((cs.drop 4).take 2 ++ ((cs.drop 4).drop 2).take 2) := by
      rw [← List.take_add, ← List.take_add]
    rw [hsplit, List.mem_append, List.mem_append] at hc
    rcases hc with hc | hc | hc
    · exact hfront c hc
    · exact hmonths c hc
    · exact hdays c hc

theorem le_dateLength? {cs : List Char} {n : Nat} (h : dateLength? cs = some n) : 7 ≤ n := by
  grind [dateLength?]

theorem dateTime?_eq_some {cs : List Char} {t : DateTime} (h : dateTime? cs = some t) :
    ∃ length date, dateLength? cs = some length ∧ date? (cs.take length) = some date ∧
      ∀ separator time, cs.drop length = separator :: time →
        ∃ r, clock? (time.takeWhile (!startsOffset ·)) = some r ∧
          (r.excess = true → time.dropWhile (!startsOffset ·) ≠ []) := by
  simp only [dateTime?, Option.bind_eq_bind, Option.bind_eq_some_iff] at h
  obtain ⟨length, hlength, date, hdate, h⟩ := h
  refine ⟨length, date, hlength, hdate, ?_⟩
  intro separator time htime
  simp only [htime, Option.bind_eq_some_iff] at h
  obtain ⟨r, hr, h⟩ := h
  refine ⟨r, hr, fun hexcess hnil => ?_⟩
  simp [hnil, hexcess] at h

/-- A text that does not begin with the four digits of a year is no date. -/
theorem dateTime?_eq_none_of_mem {cs : List Char} {c : Char} (h : c ∈ cs.take 4)
    (hc : c.isDigit = false) : dateTime? cs = none := by
  refine Option.eq_none_iff_forall_ne_some.2 fun t ht => ?_
  obtain ⟨length, date, hlength, hdate, -⟩ := dateTime?_eq_some ht
  obtain ⟨hyear, -⟩ := date?_eq_some hdate
  have hle := le_dateLength? hlength
  rw [List.take_take, Nat.min_eq_left (by omega)] at hyear
  rw [hyear c h] at hc
  cases hc

/-! ### Numbers in front of words -/

/-- Digits, a blank and words behind it. -/
def Counts (words cs : List Char) : Prop :=
  ∃ ds, (∀ c ∈ ds, c.isDigit = true) ∧ cs = ds ++ ' ' :: words

section
variable {words cs ds : List Char}

theorem counts_drop (hds : ∀ c ∈ ds, c.isDigit = true) {count : Nat} (h : count ≤ ds.length) :
    Counts words ((ds ++ ' ' :: words).drop count) :=
  ⟨ds.drop count, fun c hc => hds c (List.mem_of_mem_drop hc), List.drop_append_of_le_length h⟩

/-- Where digits are read off, digits, a blank and the words are left. -/
theorem Counts.digits? (h : Counts words cs) {count n : Nat} {rest : List Char}
    (hread : digits? count cs = some (n, rest)) : Counts words rest := by
  obtain ⟨ds, hds, rfl⟩ := h
  obtain ⟨-, hdigits, rfl⟩ := digits?_eq_some hread
  refine counts_drop hds (Nat.le_of_not_lt fun hlt => ?_)
  exact absurd (hdigits _ (mem_take_append_cons hlt)) (by decide)

theorem Counts.exists_eq_cons (h : Counts words cs) :
    ∃ c rest, cs = c :: rest ∧ (c = ' ' ∨ c.isDigit = true) ∧ (words ≠ [] → rest ≠ []) := by
  obtain ⟨ds, hds, rfl⟩ := h
  cases ds with
  | nil => exact ⟨' ', words, rfl, .inl rfl, id⟩
  | cons d ds =>
    exact ⟨d, ds ++ ' ' :: words, rfl, .inr (hds d List.mem_cons_self), fun _ => by simp⟩

/-- Neither a blank nor a digit is a mark. -/
theorem Counts.head?_ne (h : Counts words cs) {mark : Char} (hblank : mark ≠ ' ')
    (hdigit : mark.isDigit = false) : cs.head? ≠ some mark := by
  obtain ⟨c, rest, rfl, hc, -⟩ := h.exists_eq_cons
  rintro ⟨⟩
  rcases hc with hc | hc
  · exact hblank hc
  · rw [hdigit] at hc
    cases hc

theorem Counts.follow? (h : Counts words cs) (hwords : words ≠ []) :
    follow? false cs = some (.field cs) := by
  have hpoint : cs.head? ≠ some '.' := h.head?_ne (by decide) (by decide)
  have hcomma : cs.head? ≠ some ',' := h.head?_ne (by decide) (by decide)
  obtain ⟨c, rest, rfl, -, hrest⟩ := h.exists_eq_cons
  rw [List.head?_cons, ne_eq, Option.some_inj] at hpoint hcomma
  simp [Iso.follow?, hrest hwords, hpoint, hcomma]

theorem Counts.fraction? (h : Counts words cs) {n : Nat} {excess : Bool}
    (hread : fraction? cs = some (n, excess)) : excess = true := by
  simp only [Iso.fraction?, Option.bind_eq_bind, Option.bind_eq_some_iff] at hread
  obtain ⟨⟨n, rest⟩, hrest, hexcess⟩ := hread
  obtain ⟨ds, hds, rfl⟩ := h.digits? hrest
  have hdrop : (ds ++ ' ' :: words).dropWhile Char.isDigit = ' ' :: words := by
    rw [List.dropWhile_append_of_pos hds]
    rfl
  rw [hdrop] at hexcess
  obtain ⟨-, rfl⟩ := Prod.mk.inj (Option.some.inj hexcess)
  rfl

/-- No time is read that the words do not exceed. -/
theorem Counts.clock? (h : Counts words cs) (hwords : words ≠ []) {r : ClockReading}
    (hread : clock? cs = some r) : r.excess = true := by
  simp only [Iso.clock?, Option.bind_eq_bind, Option.bind_eq_some_iff] at hread
  obtain ⟨⟨hours, rest⟩, hhours, hread⟩ := hread
  have hminutes := h.digits? hhours
  have hcolon : rest.head? ≠ some ':' := hminutes.head?_ne (by decide) (by decide)
  simp only [hcolon, decide_false, hminutes.follow? hwords,
    Option.some.injEq, exists_eq_left', Option.bind_eq_some_iff] at hread
  obtain ⟨⟨minutes, rest⟩, hread_minutes, hread⟩ := hread
  have hseconds := hminutes.digits? hread_minutes
  simp only [hseconds.follow? hwords, Option.some.injEq, exists_eq_left',
    Option.bind_eq_some_iff] at hread
  obtain ⟨⟨seconds, rest⟩, hread_seconds, hread⟩ := hread
  have hfraction := hseconds.digits? hread_seconds
  simp only [hfraction.follow? hwords, Option.some.injEq, exists_eq_left',
    Option.bind_eq_some_iff] at hread
  obtain ⟨⟨micros, excess⟩, hread_micros, hread⟩ := hread
  obtain rfl := Option.some.inj hread
  exact hfraction.fraction? hread_micros

theorem startsOffset_of_isDigit {c : Char} (h : c.isDigit = true) : startsOffset c = false := by
  have hplus : c ≠ '+' := by
    rintro rfl
    cases h
  have hminus : c ≠ '-' := by
    rintro rfl
    cases h
  have hzero : c ≠ 'Z' := by
    rintro rfl
    cases h
  simp [startsOffset, hplus, hminus, hzero]

theorem takeWhile_startsOffset (h : cs.any startsOffset = false) :
    cs.takeWhile (!startsOffset ·) = cs := by
  rw [List.any_eq_false] at h
  exact List.takeWhile_eq_self_iff.2 fun c hc => by simp [h c hc]

theorem dropWhile_startsOffset (h : cs.any startsOffset = false) :
    cs.dropWhile (!startsOffset ·) = [] := by
  rw [List.any_eq_false] at h
  exact List.dropWhile_eq_nil_iff.2 fun c hc => by simp [h c hc]

theorem clock?_eq_none_of_head? (h : cs.head?.any Char.isDigit = false) : clock? cs = none := by
  refine Option.eq_none_iff_forall_ne_some.2 fun r hr => ?_
  rw [Iso.clock?, Option.bind_eq_bind, Option.bind_eq_some_iff] at hr
  obtain ⟨⟨hours, rest⟩, hhours, -⟩ := hr
  obtain ⟨hlength, hdigits, -⟩ := digits?_eq_some hhours
  cases cs with
  | nil => exact absurd hlength (by decide)
  | cons c cs =>
    have hc : c.isDigit = false := h
    rw [hdigits c List.mem_cons_self] at hc
    cases hc

/-- Words that a time cannot go on with. -/
structure IsWords (words : List Char) : Prop where
  long : 4 ≤ words.length
  head : words.head?.any Char.isDigit = false
  plain : words.any startsOffset = false

instance (words : List Char) : Decidable (IsWords words) :=
  decidable_of_iff (4 ≤ words.length ∧ words.head?.any Char.isDigit = false ∧
    words.any startsOffset = false)
    ⟨fun ⟨long, head, plain⟩ => ⟨long, head, plain⟩, fun h => ⟨h.long, h.head, h.plain⟩⟩

theorem IsWords.ne_nil (h : IsWords words) : words ≠ [] :=
  List.ne_nil_of_length_pos (Nat.lt_of_lt_of_le (by decide) h.long)

/-- Behind any separator the words exceed the time, and they hold no offset. -/
theorem Counts.exceeds {separator : Char} {time : List Char}
    (h : Counts words (separator :: time)) (hwords : IsWords words) {r : ClockReading}
    (hread : Iso.clock? (time.takeWhile (!startsOffset ·)) = some r) :
    r.excess = true ∧ time.dropWhile (!startsOffset ·) = [] := by
  obtain ⟨ds, hds, hcs⟩ := h
  cases ds with
  | nil =>
    -- the blank is the separator
    obtain ⟨-, rfl⟩ := List.cons.inj hcs
    rw [takeWhile_startsOffset hwords.plain, clock?_eq_none_of_head? hwords.head] at hread
    cases hread
  | cons d ds =>
    have htime : time = ds ++ ' ' :: words := (List.cons.inj hcs).2
    have hrest : ∀ c ∈ ds, c.isDigit = true := fun c hc => hds c (List.mem_cons_of_mem d hc)
    have hcounts : Counts words (ds ++ ' ' :: words) := ⟨ds, hrest, rfl⟩
    have hdigits : ds.any startsOffset = false :=
      List.any_eq_false.2 fun c hc => by simp [startsOffset_of_isDigit (hrest c hc)]
    have hplain : (ds ++ ' ' :: words).any startsOffset = false := by
      rw [List.any_append, List.any_cons, hdigits, hwords.plain]
      decide
    rw [htime, takeWhile_startsOffset hplain] at hread
    rw [htime]
    exact ⟨hcounts.clock? hwords.ne_nil hread, dropWhile_startsOffset hplain⟩

theorem dateLength?_of_counts (hds : ∀ c ∈ ds, c.isDigit = true) (hyear : 4 ≤ ds.length)
    (hlong : 4 ≤ words.length) : dateLength? (ds ++ ' ' :: words) = some 8 ∧
      (ds ++ ' ' :: words)[4]? ≠ some '-' ∧ (ds ++ ' ' :: words)[4]? ≠ some 'W' := by
  have hcounts : Counts words ((ds ++ ' ' :: words).drop 4) := counts_drop hds hyear
  have hhyphen := hcounts.head?_ne (by decide : '-' ≠ ' ') (by decide)
  have hweek := hcounts.head?_ne (by decide : 'W' ≠ ' ') (by decide)
  rw [List.head?_drop] at hhyphen hweek
  have hlength : 8 < (ds ++ ' ' :: words).length := by
    rw [List.length_append, List.length_cons]
    omega
  refine ⟨?_, hhyphen, hweek⟩
  simp only [dateLength?, hhyphen, hweek, if_false]
  rw [if_neg (by omega), if_neg (by omega)]

/-- A number in front of words is no date, however many digits it has. -/
theorem dateTime?_eq_none_of_counts (h : Counts words cs) (hwords : IsWords words) :
    dateTime? cs = none := by
  obtain ⟨ds, hds, rfl⟩ := h
  have hblank : ' '.isDigit = false := by decide
  rcases Nat.lt_or_ge ds.length 4 with hyear | hyear
  · exact dateTime?_eq_none_of_mem (mem_take_append_cons hyear) hblank
  obtain ⟨hlength, hhyphen, hweek⟩ := dateLength?_of_counts hds hyear hwords.long
  refine Option.eq_none_iff_forall_ne_some.2 fun t ht => ?_
  obtain ⟨length, date, hread, hdate, htime⟩ := dateTime?_eq_some ht
  obtain rfl : length = 8 := Option.some.inj (hread.symm.trans hlength)
  have hday : 8 ≤ ds.length := by
    refine Nat.le_of_not_lt fun hlt => ?_
    obtain ⟨-, hdigits⟩ := date?_eq_some hdate
    rw [List.getElem?_take_of_lt (by decide), List.take_take] at hdigits
    rw [hdigits hhyphen hweek ' ' (mem_take_append_cons hlt)] at hblank
    cases hblank
  have hcounts : Counts words ((ds ++ ' ' :: words).drop 8) := counts_drop hds hday
  obtain ⟨separator, time, hcons, -⟩ := hcounts.exists_eq_cons
  obtain ⟨r, hr, hexcess⟩ := htime separator time hcons
  rw [hcons] at hcounts
  obtain ⟨hmore, hnone⟩ := hcounts.exceeds hwords hr
  exact hexcess hmore hnone

end

end Iso
/-! ### What is told of a time -/

namespace Moment

/-- A text that begins with anything but white space or a digit is no time. -/
theorem spelled?_eq_none_of_head? {s : String} {c : Char} (h : s.toList.head? = some c)
    (hblank : Text.isBlank c = false) (hdigit : c.isDigit = false) :
    spelled? (.text s) = none := by
  obtain ⟨cs, hcs⟩ := List.head?_eq_some_iff.1 h
  obtain ⟨front, hfront⟩ := Text.exists_strip_cons hblank cs
  rw [spelled?, hcs, hfront]
  exact Iso.dateTime?_eq_none_of_mem List.mem_cons_self hdigit

theorem read_of_spelled?_eq_none {zone : Int} {s : String} (h : spelled? (.text s) = none) :
    read zone (.text s) = .ok none := by
  rw [spelled?] at h
  rw [read, h]

end Moment

namespace Clock

theorem strip_timeOfDay (twentyFour : Bool) (t : LocalTime) :
    Text.strip (timeOfDay twentyFour t).toList = (timeOfDay twentyFour t).toList := by
  obtain ⟨width, h, half, -, -, hhalf, heq⟩ := timeOfDay_eq twentyFour t
  rw [heq, String.toList_append, String.toList_ofList]
  refine Text.strip_eq_self ?head ?last
  case head =>
    obtain ⟨c, rest, hcons, hc⟩ := exists_padded_eq_cons width h
    rw [hcons]
    rintro _ ⟨⟩
    exact Text.isBlank_of_isDigit hc
  case last =>
    intro c hc
    simp only [List.mem_cons, List.not_mem_nil, or_false] at hhalf
    rcases hhalf with rfl | rfl | rfl
    · rw [String.toList_empty, List.append_nil, List.append_cons,
        List.getLast?_append_of_ne_nil _ (by simp [padded])] at hc
      exact Text.isBlank_of_isDigit (isDigit_of_mem_padded (List.mem_of_getLast? hc))
    · rw [List.getLast?_append_of_ne_nil _ (by decide)] at hc
      obtain ⟨⟩ := hc
      decide
    · rw [List.getLast?_append_of_ne_nil _ (by decide)] at hc
      obtain ⟨⟩ := hc
      decide

/-- The colon stands where a year would have its last digits. -/
theorem colon_mem_timeOfDay (twentyFour : Bool) (t : LocalTime) :
    ':' ∈ (timeOfDay twentyFour t).toList.take 4 := by
  obtain ⟨width, h, half, hwidth, hhour, -, heq⟩ := timeOfDay_eq twentyFour t
  have hdigits : (Nat.toDigits 10 h).length ≤ 2 :=
    (Nat.length_toDigits_le_iff (by decide) (by decide)).2 (by omega)
  have hlength : (padded width h).length ≤ 2 := by
    rw [padded, List.length_append, List.length_replicate]
    omega
  rw [heq, String.toList_append, String.toList_ofList, List.append_assoc, List.cons_append]
  exact mem_take_append_cons (by omega)

theorem spelled?_timeOfDay (twentyFour : Bool) (t : LocalTime) :
    Moment.spelled? (.text (timeOfDay twentyFour t)) = none := by
  rw [Moment.spelled?, strip_timeOfDay]
  exact Iso.dateTime?_eq_none_of_mem (colon_mem_timeOfDay twentyFour t) (by decide)

theorem spelled?_yesterday (s : String) : Moment.spelled? (.text ("yesterday\n" ++ s)) = none := by
  have hhead : ("yesterday\n" ++ s).toList.head? = some 'y' := by
    rw [String.toList_append]
    rfl
  exact Moment.spelled?_eq_none_of_head? hhead (by decide) (by decide)

theorem spelled?_weekdayName (d : Date) : Moment.spelled? (.text d.weekdayName) = none := by
  have hall : ∀ name ∈ weekdayNames, Moment.spelled? (.text name) = none := by decide +kernel
  exact hall _ (weekdayName_mem d)

end Clock

theorem Date.spelled?_text (d : Date) :
    Moment.spelled? (.text d.text) = some ⟨LocalTime.ofDate d, none⟩ := by
  have hplain : ∀ c ∈ d.chars, Text.isBlank c = false := by
    intro c hc
    rcases Date.mem_chars hc with rfl | hdigit
    · decide
    · exact Text.isBlank_of_isDigit hdigit
  have hstrip : Text.strip d.chars = d.chars := Text.strip_eq_self
    (fun c hc => hplain c (List.mem_of_head? hc)) fun c hc => hplain c (List.mem_of_getLast? hc)
  rw [Moment.spelled?, Date.text, String.toList_ofList, hstrip, Iso.dateTime?_chars]

namespace Ago

theorem unitName_mem (unit : Nat) : unitNames.getD unit "" ∈ "" :: unitNames := by
  rw [List.getD_eq_getElem?_getD]
  cases h : unitNames[unit]? with
  | none => exact List.mem_cons_self
  | some name => exact List.mem_cons_of_mem _ (List.mem_of_getElem? h)

/-- A number of years is no year: the words behind it cannot stand in a time. -/
theorem spelled?_ago (s : Span) : Moment.spelled? (.text (s.text ++ " ago")) = none := by
  have hall : ∀ unit ∈ "" :: unitNames, ∀ plural ∈ ["s", ""],
      Iso.IsWords (unit.toList ++ (plural.toList ++ " ago".toList)) := by decide
  have hplural : (if 1 < s.count then "s" else "") ∈ ["s", ""] := by
    split <;> decide
  have hwords := hall _ (unitName_mem s.unit) _ hplural
  have hchars : (s.text ++ " ago").toList = Nat.toDigits 10 s.count ++ ' ' ::
      ((unitNames.getD s.unit "").toList ++
        ((if 1 < s.count then "s" else "").toList ++ " ago".toList)) := by
    simp only [Span.text, String.toList_append, Text.toList_whole, List.append_assoc]
    rfl
  have hdigits : ∀ c ∈ Nat.toDigits 10 s.count, c.isDigit = true := fun c hc =>
    Nat.isDigit_of_mem_toDigits (by decide) (by decide) hc
  have hcounts : Iso.Counts _ (s.text ++ " ago").toList := ⟨_, hdigits, hchars⟩
  have hfront : ∀ c ∈ (s.text ++ " ago").toList.head?, Text.isBlank c = false := by
    intro c hc
    rw [hchars, List.head?_append_of_ne_nil _ Nat.toDigits_ne_nil] at hc
    exact Text.isBlank_of_isDigit (hdigits c (List.mem_of_head? hc))
  have hback : ∀ c ∈ (s.text ++ " ago").toList.getLast?, Text.isBlank c = false := by
    rw [String.toList_append, List.getLast?_append_of_ne_nil _ (by decide)]
    rintro _ ⟨⟩
    decide
  rw [Moment.spelled?, Text.strip_eq_self hfront hback]
  exact Iso.dateTime?_eq_none_of_counts hcounts hwords

theorem spelled?_in (s : String) : Moment.spelled? (.text ("in " ++ s)) = none := by
  have hhead : ("in " ++ s).toList.head? = some 'i' := by
    rw [String.toList_append]
    rfl
  exact Moment.spelled?_eq_none_of_head? hhead (by decide) (by decide)

theorem spelled?_phrase (now t : LocalTime) : Moment.spelled? (.text (phrase now t)) = none := by
  rw [phrase]
  split
  · split
    · decide +kernel
    · decide +kernel
  · split
    · exact spelled?_in _
    · exact spelled?_ago _

end Ago

/-! ### What is told again -/

namespace Clock

theorem timeOfDay_ne_empty (twentyFour : Bool) (t : LocalTime) : timeOfDay twentyFour t ≠ "" := by
  obtain ⟨width, h, half, -, -, -, heq⟩ := timeOfDay_eq twentyFour t
  rw [heq]
  simp

theorem wording_ne_empty (twentyFour : Bool) (now t : LocalTime) :
    wording twentyFour now t ≠ "" := by
  rw [wording]
  split
  · exact timeOfDay_ne_empty twentyFour t
  split
  · simp
  split
  · have hall : ∀ name ∈ weekdayNames, name ≠ "" := by decide
    exact hall _ (weekdayName_mem t.date)
  · intro h
    have hlength := t.date.length_chars
    rw [Date.text, String.ofList_eq_empty_iff] at h
    rw [h] at hlength
    cases hlength

/-- What is told of a time is no time, but for the date of an old one. -/
theorem spelled?_wording (twentyFour : Bool) (now t : LocalTime) :
    Moment.spelled? (.text (wording twentyFour now t)) = none ∨
      t.countedDay + 7 < now.date.day ∧ wording twentyFour now t = t.date.text := by
  rw [wording]
  split
  · exact .inl (spelled?_timeOfDay twentyFour t)
  split
  · exact .inl (spelled?_yesterday _)
  split
  · exact .inl (spelled?_weekdayName t.date)
  · rename_i hweek
    exact .inr ⟨by omega, rfl⟩

/-- The midnight of an old day is as old. -/
theorem wording_ofDate {now t : LocalTime} (h : t.countedDay + 7 < now.date.day)
    (twentyFour : Bool) : wording twentyFour now (.ofDate t.date) = t.date.text := by
  have hmidnight : (LocalTime.ofDate t.date).IsMidnight := Nat.mul_mod_left ..
  have hcounted := LocalTime.countedDay_of_midnight hmidnight
  have hle : t.date.day - 1 ≤ t.countedDay := by
    rw [LocalTime.countedDay]
    split <;> omega
  rw [LocalTime.date_ofDate] at hcounted
  rw [wording, if_neg (by omega), if_neg (by omega), if_neg (by omega), LocalTime.date_ofDate]

/-- The date of a time is told of old times only, and of the midnight that begins it. -/
theorem phrase_ofDate {twentyFour : Bool} {now t : LocalTime}
    (h : phrase twentyFour now t = .ok t.date.text) :
    phrase twentyFour now (.ofDate t.date) = .ok t.date.text := by
  rcases Nat.lt_or_ge now.date.day 7 with hfirst | hweek
  · rw [phrase_of_lt hfirst] at h
    cases h
  · rw [phrase_of_le hweek] at h
    have htext : wording twentyFour now t = t.date.text := Except.ok.inj h
    rcases spelled?_wording twentyFour now t with hunread | ⟨hold, -⟩
    · rw [htext, Date.spelled?_text] at hunread
      cases hunread
    · rw [phrase_of_le hweek, wording_ofDate hold]

variable {c : Clock} {v w : Value}

theorem exists_wording (h : (c.display v).result = .ok w) (hv : v.truthy = true) :
    Moment.read c.zone v = .ok none ∨
      ∃ t now, Moment.read c.zone v = .ok (some t) ∧ c.now.toLocal? c.zone = some now ∧
        7 ≤ now.date.day ∧ w = .text (wording c.twentyFour now t) := by
  by_cases htime : Moment.read c.zone v = .ok none
  · exact .inl htime
  have hinside : ¬ (Moment.IsOutside c.zone v ∨ c.IsEarly) := by
    intro hfails
    rw [result_display_eq_error_iff.2 ⟨rfl, hv, htime, hfails⟩] at h
    cases h
  rw [not_or] at hinside
  obtain ⟨t, ht⟩ : ∃ t, Moment.read c.zone v = .ok (some t) := by
    cases hread : Moment.read c.zone v with
    | error f => exact absurd (Moment.read_eq_error_iff.1 hread).2 hinside.1
    | ok out =>
      cases out with
      | none => exact absurd hread htime
      | some t => exact ⟨t, rfl⟩
  obtain ⟨now, hnow⟩ : ∃ now, c.now.toLocal? c.zone = some now :=
    Option.ne_none_iff_exists'.1 fun hnone =>
      hinside.2 (.inl (DateTime.toLocal?_eq_none_iff.1 hnone))
  have hweek : 7 ≤ now.date.day := by
    refine Nat.le_of_not_lt fun hlt => hinside.2 (.inr ⟨now, hnow, ?_⟩)
    exact (phrase_eq_error_iff.1 (phrase_of_lt hlt c.twentyFour t)).2
  rw [display_of_read hv ht hnow, phrase_of_le hweek] at h
  exact .inr ⟨t, now, ht, hnow, hweek, (Except.ok.inj h).symm⟩

theorem display_again (h : (c.display v).result = .ok w) : (c.display w).result = .ok w := by
  cases hv : v.truthy with
  | false =>
    rw [display_of_not_truthy hv] at h
    obtain rfl := Except.ok.inj h
    exact display_of_not_truthy rfl
  | true =>
    rcases exists_wording h hv with hread | ⟨t, now, -, hnow, hweek, rfl⟩
    · rw [display_of_unread hv hread] at h
      obtain rfl := Except.ok.inj h
      exact display_of_unread hv hread
    have htruthy : (Value.text (wording c.twentyFour now t)).truthy = true := by
      simpa [Value.truthy] using wording_ne_empty c.twentyFour now t
    rcases spelled?_wording c.twentyFour now t with hunread | ⟨hold, htext⟩
    · exact display_of_unread htruthy (Moment.read_of_spelled?_eq_none hunread)
    · have hread : Moment.read c.zone (.text (wording c.twentyFour now t)) =
          .ok (some (.ofDate t.date)) := by
        have hspelled := t.date.spelled?_text
        rw [Moment.spelled?] at hspelled
        rw [htext, Moment.read, hspelled]
        rfl
      rw [display_of_read htruthy hread hnow, phrase_of_le hweek, wording_ofDate hold, htext]
      rfl

end Clock

namespace Ago

variable {c : Clock} {v w : Value}

theorem display_of_unread (h : Moment.read c.zone v = .ok none) :
    (display c v).result = .ok v := by
  simp [display, h, Clock.result_unparsed]

theorem exists_phrase (h : (display c v).result = .ok w) :
    Moment.read c.zone v = .ok none ∨ ∃ now t, w = .text (phrase now t) := by
  simp only [display, Outcome.result_bind, Outcome.result_liftM] at h
  cases hread : Moment.read c.zone v with
  | error f =>
    rw [hread] at h
    cases h
  | ok out =>
    cases out with
    | none => exact .inl rfl
    | some t =>
      rw [hread] at h
      cases hnow : Moment.toLocal c.zone c.now with
      | error f =>
        rw [hnow] at h
        cases h
      | ok now =>
        rw [hnow] at h
        exact .inr ⟨now, t, (Except.ok.inj h).symm⟩

theorem display_again (h : (display c v).result = .ok w) : (display c w).result = .ok w := by
  rcases exists_phrase h with hread | ⟨now, t, rfl⟩
  · rw [display_of_unread hread] at h
    obtain rfl := Except.ok.inj h
    exact display_of_unread hread
  · exact display_of_unread (Moment.read_of_spelled?_eq_none (spelled?_phrase now t))

end Ago

namespace Format

/-- Both ways of telling a time leave what they told as it is, at the same now. No time of day, not
behind `yesterday` either, no weekday and no distance from now, however large, reads as a time; the
date of an old time reads as the midnight of its day, and that is told by its date. -/
theorem display_display (c : Clock) :
    (∀ v w, (c.display v).result = .ok w → (c.display w).result = .ok w) ∧
    (∀ v w, (Ago.display c v).result = .ok w → (Ago.display c w).result = .ok w) ∧
    (∀ t, Moment.spelled? (.text (Clock.timeOfDay c.twentyFour t)) = none ∧
      Moment.spelled? (.text ("yesterday\n" ++ Clock.timeOfDay c.twentyFour t)) = none ∧
      Moment.spelled? (.text t.date.weekdayName) = none) ∧
    (∀ now t, Moment.spelled? (.text (Ago.phrase now t)) = none) ∧
    (∀ s : Ago.Span, Moment.spelled? (.text (s.text ++ " ago")) = none ∧
      Moment.spelled? (.text ("in " ++ s.text)) = none) ∧
    ∀ now t, Clock.phrase c.twentyFour now t = .ok t.date.text →
      Moment.spelled? (.text t.date.text) = some ⟨.ofDate t.date, none⟩ ∧
      Clock.phrase c.twentyFour now (.ofDate t.date) = .ok t.date.text := by
  refine ⟨fun v w => Clock.display_again, fun v w => Ago.display_again, ?_, Ago.spelled?_phrase,
    ?_, ?_⟩
  · exact fun t => ⟨Clock.spelled?_timeOfDay _ t, Clock.spelled?_yesterday _,
      Clock.spelled?_weekdayName t.date⟩
  · exact fun s => ⟨Ago.spelled?_ago s, Ago.spelled?_in s.text⟩
  · exact fun now t h => ⟨t.date.spelled?_text, Clock.phrase_ofDate h⟩

/-- On 15 March 2024 a time of the year 1000 is told by its date, and as a number of years that has
four digits like a year. -/
theorem display_display_old :
    let now : LocalTime := ⟨738959 * dayLength + 12 * hour, by decide⟩
    let t : LocalTime := ⟨365000 * dayLength + 10 * hour, by decide⟩
    let c : Clock := ⟨0, ⟨now, none⟩, false⟩
    let v : Value := .dateTime ⟨t, none⟩
    (c.display v).result = .ok (.text "1000-05-04") ∧
    (c.display (.text "1000-05-04")).result = .ok (.text "1000-05-04") ∧
    (Ago.display c v).result = .ok (.text "1024 years ago") ∧
    (Ago.display c (.text "1024 years ago")).result = .ok (.text "1024 years ago") ∧
    Clock.phrase false now t = .ok t.date.text ∧
    Clock.phrase false now (.ofDate t.date) = .ok t.date.text := by
  intro now t c v
  have hwording : Clock.wording false now t = t.date.text := by decide +kernel
  have hphrase : Clock.phrase false now t = .ok t.date.text := by
    rw [Clock.phrase_of_le (by decide), hwording]
  have htext : t.date.text = "1000-05-04" := by decide +kernel
  have hago : Ago.phrase now t = "1024 years ago" := by decide +kernel
  have hdate : (c.display v).result = .ok (.text "1000-05-04") := by
    rw [Clock.display_of_read rfl rfl rfl, hphrase, htext]
    rfl
  have hyears : (Ago.display c v).result = .ok (.text "1024 years ago") := by
    rw [← hago]
    rfl
  obtain ⟨hclock, hdistance, -, -, -, hmidnight⟩ := display_display c
  exact ⟨hdate, hclock _ _ hdate, hyears, hdistance _ _ hyears, hphrase,
    (hmidnight now t hphrase).2⟩

end Format
end ViewDoc
