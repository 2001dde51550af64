import Mathlib.Algebra.Ring.Nat
import Mathlib.Data.List.GetD
import ViewDoc.Calendar.Iso

/-!
Dates by year, month and day, and their texts.

Counting days and reading off year, month and day are inverse to each other, and the text of a date
reads back as the midnight that begins it.
-/

namespace ViewDoc

/-! ### Digits -/

theorem isDigit_of_mem_padded {width n : Nat} {c : Char} (h : c ∈ padded width n) :
    c.isDigit = true := by
  rcases List.mem_append.1 h with h | h
  · rw [List.eq_of_mem_replicate h]
    decide
  · exact Nat.isDigit_of_mem_toDigits (by decide) (by decide) h

theorem length_padded {width n : Nat} (hwidth : 0 < width) (h : n < 10 ^ width) :
    (padded width n).length = width := by
  have hdigits := (Nat.length_toDigits_le_iff (by decide) hwidth).2 h
  have hlength : (padded width n).length =
      width - (Nat.toDigits 10 n).length + (Nat.toDigits 10 n).length := by
    rw [padded, List.length_append, List.length_replicate]
  omega

theorem exists_padded_eq_cons (width n : Nat) :
    ∃ c rest, padded width n = c :: rest ∧ c.isDigit = true := by
  cases h : padded width n with
  | nil => exact absurd (List.append_eq_nil_iff.1 h).2 Nat.toDigits_ne_nil
  | cons c rest => exact ⟨c, rest, rfl, isDigit_of_mem_padded (h ▸ List.mem_cons_self)⟩

theorem ofDigitChars_replicate_zero (count : Nat) :
    Nat.ofDigitChars 10 (List.replicate count '0') 0 = 0 := by
  induction count with
  | zero => rfl
  | succ count ih => rwa [List.replicate_succ, Nat.ofDigitChars_cons]

theorem ofDigitChars_padded (width n : Nat) : Nat.ofDigitChars 10 (padded width n) 0 = n := by
  rw [padded, Nat.ofDigitChars_append, ofDigitChars_replicate_zero, Nat.ofDigitChars_ten_toDigits]

/-- A number of fixed width reads back, whatever stands behind it. -/
theorem Iso.digits?_padded {width n : Nat} (hwidth : 0 < width) (h : n < 10 ^ width)
    (rest : List Char) : digits? width (padded width n ++ rest) = some (n, rest) := by
  have hlength := length_padded hwidth h
  have hdigits : (padded width n).all Char.isDigit = true :=
    List.all_eq_true.2 fun c hc => isDigit_of_mem_padded hc
  rw [digits?, List.take_left' hlength, List.drop_left' hlength, ofDigitChars_padded]
  exact if_pos ⟨hlength, hdigits⟩

/-! ### Years -/

namespace Calendar

/-- The estimate of the year is off by one at most. -/
theorem yearOf_bounds (day : Nat) :
    1 ≤ yearOf day ∧ daysBeforeYear (yearOf day) ≤ day ∧ day < daysBeforeYear (yearOf day + 1) := by
  unfold yearOf
  extract_lets y
  have hy : y = 400 * day / 146097 + 1 := rfl
  clear_value y
  split
  · simp only [daysBeforeYear] at *
    omega
  split
  · simp only [daysBeforeYear] at *
    omega
  · simp only [daysBeforeYear] at *
    omega

theorem div_eq_div_pred {y : Nat} (hy : 1 ≤ y) (k : Nat) :
    y / k = (y - 1) / k + if y % k = 0 then 1 else 0 := by
  obtain ⟨n, rfl⟩ := Nat.exists_eq_add_of_le' hy
  rw [Nat.add_sub_cancel, Nat.succ_div]
  simp only [Nat.dvd_iff_mod_eq_zero]

theorem sum_monthLengths (y : Nat) :
    (monthLengths y).sum = 365 + if isLeap y then 1 else 0 := by
  rw [monthLengths]
  split <;> rfl

/-- The months of a year fill it. -/
theorem daysBeforeYear_succ {y : Nat} (hy : 1 ≤ y) :
    daysBeforeYear (y + 1) = daysBeforeYear y + (monthLengths y).sum := by
  have hcentury : (if y % 100 = 0 then 1 else 0) ≤ 1 := by split <;> decide
  have hleap : (if isLeap y then 1 else 0) + (if y % 100 = 0 then 1 else 0) =
      (if y % 4 = 0 then 1 else 0) + if y % 400 = 0 then 1 else 0 := by
    rw [isLeap]
    by_cases h4 : y % 4 = 0
    · by_cases h100 : y % 100 = 0
      · by_cases h400 : y % 400 = 0 <;> simp [h4, h100, h400]
      · have h400 : y % 400 ≠ 0 := by omega
        simp [h4, h100, h400]
    · have h100 : y % 100 ≠ 0 := by omega
      have h400 : y % 400 ≠ 0 := by omega
      simp [h4, h100, h400]
  rw [sum_monthLengths, daysBeforeYear, daysBeforeYear, Nat.add_sub_cancel,
    div_eq_div_pred hy 4, div_eq_div_pred hy 100, div_eq_div_pred hy 400]
  omega

theorem year_le_of_lt {y day : Nat} (h : daysBeforeYear y ≤ day) (hday : day < dayCount) :
    y ≤ 9999 := by
  simp only [daysBeforeYear, dayCount] at *
  omega

/-! ### Months -/

/-- Counting days off finds the month that holds a day, and the place of the day in it. -/
theorem splitMonths_eq {lengths : List Nat} {day : Nat} (h : day < lengths.sum) (month : Nat) :
    ∃ i place, splitMonths month lengths day = (month + i, place + 1) ∧ i < lengths.length ∧
      place < lengths.getD i 0 ∧ (lengths.take i).sum + place = day := by
  induction lengths generalizing month day with
  | nil => exact absurd h (Nat.not_lt_zero day)
  | cons length rest ih =>
    rw [splitMonths]
    split
    · rename_i hday
      exact ⟨0, day, rfl, Nat.succ_pos _, hday, by simp⟩
    · rename_i hday
      have hrest : day - length < rest.sum := by
        rw [List.sum_cons] at h
        omega
      obtain ⟨i, place, hsplit, hi, hplace, hsum⟩ := ih hrest (month + 1)
      refine ⟨i + 1, place, ?_, Nat.succ_lt_succ hi, hplace, ?_⟩
      · rw [hsplit, Nat.add_assoc, Nat.add_comm 1 i]
      · rw [List.take_succ_cons, List.sum_cons]
        omega

theorem daysBeforeMonth_eq (year month : Nat) :
    daysBeforeMonth year month = ((monthLengths year).take (month - 1)).sum :=
  List.sum_eq_foldl.symm

theorem length_monthLengths (year : Nat) : (monthLengths year).length = 12 := rfl

end Calendar

open Calendar

namespace Date

theorem ofDay?_day (d : Date) : ofDay? d.day = some d := by
  have hrange := d.inRange
  rw [ofDay?, dif_pos ⟨Int.natCast_nonneg _, by omega⟩]
  rfl

/-- Year, month and day of a date are those of the calendar, and they lead back to it. -/
theorem civil_bounds (d : Date) :
    1 ≤ d.year ∧ d.year ≤ 9999 ∧ 1 ≤ d.month ∧ d.month ≤ 12 ∧ 1 ≤ d.dayOfMonth ∧
    d.dayOfMonth ≤ monthLength d.year d.month ∧
    daysBeforeYear d.year + daysBeforeMonth d.year d.month + (d.dayOfMonth - 1) = d.day := by
  obtain ⟨hyear, hlow, hhigh⟩ := yearOf_bounds d.day
  have hlimit := year_le_of_lt hlow d.inRange
  have hin : d.day - daysBeforeYear d.year < (monthLengths d.year).sum := by
    have hsucc := daysBeforeYear_succ hyear
    rw [Date.year]
    omega
  obtain ⟨i, place, hsplit, hi, hplace, hsum⟩ := splitMonths_eq hin 1
  rw [length_monthLengths] at hi
  have hmonth : d.month = i + 1 := by
    rw [month, monthDay, hsplit, Nat.add_comm]
  have hday : d.dayOfMonth = place + 1 := by
    rw [dayOfMonth, monthDay, hsplit]
  rw [daysBeforeMonth_eq, monthLength, hmonth, hday, Nat.add_sub_cancel, Nat.add_sub_cancel]
  change daysBeforeYear d.year ≤ d.day at hlow
  exact ⟨hyear, hlimit, by omega, by omega, by omega, hplace, by omega⟩

theorem ofCivil?_civil (d : Date) : ofCivil? d.year d.month d.dayOfMonth = some d := by
  obtain ⟨hyear, hyears, hmonth, hmonths, hday, hdays, hsum⟩ := d.civil_bounds
  rw [ofCivil?, if_pos ⟨hyear, hyears, hmonth, hmonths, hday, hdays⟩, hsum, ofDay?_day]

theorem monthLength_le (year month : Nat) : monthLength year month ≤ 31 := by
  have hall : ∀ n ∈ monthLengths year, n ≤ 31 := by
    rw [monthLengths]
    split <;> decide
  rw [monthLength, List.getD_eq_getElem?_getD]
  cases h : (monthLengths year)[month - 1]? with
  | none => exact Nat.zero_le 31
  | some n => exact hall n (List.mem_of_getElem? h)

/-- Four digits are enough for a year, and two for a month and for a day. -/
theorem civil_lt (d : Date) : d.year < 10 ^ 4 ∧ d.month < 10 ^ 2 ∧ d.dayOfMonth < 10 ^ 2 := by
  obtain ⟨-, hyear, -, hmonth, -, hday, -⟩ := d.civil_bounds
  have hlength := monthLength_le d.year d.month
  omega

end Date

/-! ### Texts of dates -/

theorem Date.length_chars (d : Date) : d.chars.length = 10 := by
  obtain ⟨hyear, hmonth, hday⟩ := d.civil_lt
  simp [chars, length_padded (by decide) hyear, length_padded (by decide) hmonth,
    length_padded (by decide) hday]

theorem Date.mem_chars {d : Date} {c : Char} (h : c ∈ d.chars) : c = '-' ∨ c.isDigit = true := by
  simp only [chars, List.mem_append, List.mem_cons] at h
  rcases h with h | h | h | h | h
  · exact .inr (isDigit_of_mem_padded h)
  · exact .inl h
  · exact .inr (isDigit_of_mem_padded h)
  · exact .inl h
  · exact .inr (isDigit_of_mem_padded h)

namespace Iso

theorem date?_chars (d : Date) : date? d.chars = some d := by
  obtain ⟨hyear, hmonth, hday⟩ := d.civil_lt
  have hlast := digits?_padded (by decide) hday []
  rw [List.append_nil] at hlast
  rw [date?, Date.chars, digits?_padded (by decide) hyear]
  simp only [Option.bind_eq_bind, Option.bind_some, List.head?_cons, decide_true, if_true,
    List.tail_cons]
  split
  · rename_i hweek
    obtain ⟨c, rest, hcons, hc⟩ := exists_padded_eq_cons 2 d.month
    rw [hcons] at hweek
    obtain ⟨rfl, -⟩ := List.cons.inj hweek
    cases hc
  · simp only [digits?_padded (by decide) hmonth, hlast, skipHyphen?, if_true, Option.bind_some,
      Date.ofCivil?_civil]

theorem dateLength?_chars (d : Date) : dateLength? d.chars = some 10 := by
  have hlength := length_padded (by decide) d.civil_lt.1
  have hhyphen : d.chars[4]? = some '-' := by
    rw [Date.chars, List.getElem?_append_right (by omega), hlength]
    rfl
  have hdigit : d.chars[5]? ≠ some 'W' := by
    obtain ⟨c, rest, hcons, hc⟩ := exists_padded_eq_cons 2 d.month
    have hfifth : d.chars[5]? = some c := by
      rw [Date.chars, List.getElem?_append_right (by omega), hlength, hcons]
      rfl
    rw [hfifth]
    rintro ⟨⟩
    cases hc
  simp only [dateLength?, d.length_chars, if_pos hhyphen, if_neg hdigit]
  rfl

/-- The text of a date reads back as the midnight that begins it. -/
theorem dateTime?_chars (d : Date) : dateTime? d.chars = some ⟨LocalTime.ofDate d, none⟩ := by
  have hlength := Nat.le_of_eq d.length_chars
  rw [dateTime?, dateLength?_chars]
  simp only [Option.bind_eq_bind, Option.bind_some, List.take_of_length_le hlength,
    List.drop_of_length_le hlength, date?_chars]
  rfl

end Iso
end ViewDoc
