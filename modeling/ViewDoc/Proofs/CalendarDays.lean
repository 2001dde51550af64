import ViewDoc.Proofs.CivilDates
import ViewDoc.Proofs.Formats

/-!
Times seen from now, by the days of the calendar.

A time is told by the day that it is counted to. That is the day it lies on, but for a midnight,
which is counted to the day before; and days to come are told like today.
-/

namespace ViewDoc

open Calendar

namespace LocalTime

theorem micros_eq (t : LocalTime) :
    t.micros = t.date.day * dayLength + t.micros % dayLength :=
  (Nat.div_add_mod' t.micros dayLength).symm

theorem micros_startOfDay (t : LocalTime) : t.startOfDay.micros = t.date.day * dayLength := by
  have hmicros := t.micros_eq
  have hstart : t.startOfDay.micros = t.micros - t.micros % dayLength := rfl
  omega

/-- The first moment of a day. -/
def IsMidnight (t : LocalTime) : Prop := t.micros % dayLength = 0

instance (t : LocalTime) : Decidable t.IsMidnight := inferInstanceAs (Decidable (_ = _))

/-- The day that a time is counted to. -/
def countedDay (t : LocalTime) : Int := if t.IsMidnight then t.date.day - 1 else t.date.day

theorem countedDay_of_midnight {t : LocalTime} (h : t.IsMidnight) :
    t.countedDay = t.date.day - 1 := if_pos h

theorem countedDay_of_not_midnight {t : LocalTime} (h : ¬ t.IsMidnight) :
    t.countedDay = t.date.day := if_neg h

/-- A time lies behind the midnights that begin the day it is counted to and the days before. -/
theorem lt_micros_iff (t : LocalTime) (day days : Nat) :
    day * dayLength < t.micros + days * dayLength ↔ day ≤ t.countedDay + days := by
  have hpos : 0 < dayLength := by decide
  have hmod : t.micros % dayLength < dayLength := Nat.mod_lt _ hpos
  have hsum : t.micros + days * dayLength =
      (t.date.day + days) * dayLength + t.micros % dayLength := by
    have hmicros := t.micros_eq
    rw [Nat.add_mul]
    omega
  rw [hsum]
  by_cases hmidnight : t.IsMidnight
  · have hzero : t.micros % dayLength = 0 := hmidnight
    rw [countedDay_of_midnight hmidnight, hzero, Nat.add_zero, Nat.mul_lt_mul_right hpos]
    omega
  · have hrest : t.micros % dayLength ≠ 0 := hmidnight
    rw [countedDay_of_not_midnight hmidnight]
    constructor
    · intro h
      have hlt : day * dayLength < (t.date.day + days + 1) * dayLength := by
        rw [Nat.succ_mul]
        omega
      have hday := (Nat.mul_lt_mul_right hpos).1 hlt
      omega
    · intro h
      have hle : day ≤ t.date.day + days := by omega
      have hday := Nat.mul_le_mul_right dayLength hle
      omega

end LocalTime

namespace Clock

/-- How a time is told by the day it is counted to. -/
def wording (twentyFour : Bool) (now t : LocalTime) : String :=
  if now.date.day ≤ t.countedDay then timeOfDay twentyFour t
  else if now.date.day ≤ t.countedDay + 1 then "yesterday\n" ++ timeOfDay twentyFour t
  else if now.date.day ≤ t.countedDay + 7 then t.date.weekdayName
  else t.date.text

theorem midnightBefore_of_le {t : LocalTime} {days : Nat} (h : days ≤ t.date.day) :
    ∃ m, midnightBefore t days = .ok m ∧ m.micros + days * dayLength = t.date.day * dayLength := by
  cases hm : midnightBefore t days with
  | error f =>
    obtain ⟨-, hearly⟩ := midnightBefore_eq_error_iff.1 hm
    have hday := Nat.mul_le_mul_right dayLength h
    have hmicros := t.micros_eq
    rw [Nat.mul_comm dayLength days] at hearly
    omega
  | ok m =>
    refine ⟨m, rfl, ?_⟩
    rw [midnightBefore] at hm
    split at hm
    · rename_i l hl
      obtain rfl := Except.ok.inj hm
      have hmicros := LocalTime.micros_of_ofMicros? hl
      rw [LocalTime.micros_startOfDay, Nat.mul_comm dayLength days] at hmicros
      omega
    · cases hm

theorem phrase_of_midnights {now yesterday week : LocalTime}
    (hyesterday : midnightBefore now 1 = .ok yesterday) (hweek : midnightBefore now 7 = .ok week)
    (twentyFour : Bool) (t : LocalTime) :
    phrase twentyFour now t = .ok (
      if now.startOfDay.micros < t.micros then timeOfDay twentyFour t
      else if yesterday.micros < t.micros then "yesterday\n" ++ timeOfDay twentyFour t
      else if week.micros < t.micros then t.date.weekdayName
      else t.date.text) := by
  simp only [phrase, hyesterday, hweek, bind, ok_bind]
  split
  · rfl
  split
  · rfl
  split
  · rfl
  · rfl

theorem phrase_of_le {now : LocalTime} (h : 7 ≤ now.date.day) (twentyFour : Bool)
    (t : LocalTime) : phrase twentyFour now t = .ok (wording twentyFour now t) := by
  have hone : 1 ≤ now.date.day := by omega
  obtain ⟨yesterday, hyesterday, hdistance⟩ := midnightBefore_of_le hone
  obtain ⟨week, hweek, hdistances⟩ := midnightBefore_of_le h
  have htoday : now.date.day * dayLength < t.micros ↔ now.date.day ≤ t.countedDay := by
    have hiff := t.lt_micros_iff now.date.day 0
    omega
  have hday : yesterday.micros < t.micros ↔ now.date.day ≤ t.countedDay + 1 := by
    have hiff := t.lt_micros_iff now.date.day 1
    omega
  have hdays : week.micros < t.micros ↔ now.date.day ≤ t.countedDay + 7 := by
    have hiff := t.lt_micros_iff now.date.day 7
    omega
  rw [phrase_of_midnights hyesterday hweek, wording, now.micros_startOfDay]
  simp only [htoday, hday, hdays]

/-- In the first week of the calendar no time can be told. -/
theorem phrase_of_lt {now : LocalTime} (h : now.date.day < 7) (twentyFour : Bool)
    (t : LocalTime) : phrase twentyFour now t = .error .outsideCalendar := by
  have hmicros := now.micros_eq
  have hmod : now.micros % dayLength < dayLength := Nat.mod_lt _ (by decide)
  have hday := Nat.mul_le_mul_right dayLength (Nat.succ_le_of_lt h)
  rw [Nat.succ_mul, Nat.mul_comm 7] at hday
  exact phrase_eq_error_iff.2 ⟨rfl, by omega⟩

/-- A time told by the day it lies on: the time of day for today, the same behind `yesterday` for
the day before, the weekday for earlier days behind the midnight seven days ago, and the date for
all others. -/
def byDay (twentyFour : Bool) (now t : LocalTime) : String :=
  if t.date.day = now.date.day then timeOfDay twentyFour t
  else if t.date.day + 1 = now.date.day then "yesterday\n" ++ timeOfDay twentyFour t
  else if t.date.day < now.date.day ∧ now.date.day * dayLength < t.micros + 7 * dayLength then
    t.date.weekdayName
  else t.date.text

theorem byDay_of_earlier {now t : LocalTime} (h : t.date.day + 1 < now.date.day)
    (twentyFour : Bool) : byDay twentyFour now t =
      if now.date.day ≤ t.countedDay + 7 then t.date.weekdayName else t.date.text := by
  have hweek : now.date.day * dayLength < t.micros + 7 * dayLength ↔
      now.date.day ≤ t.countedDay + 7 := t.lt_micros_iff now.date.day 7
  have hlt : t.date.day < now.date.day := by omega
  rw [byDay, if_neg (by omega), if_neg (by omega)]
  simp only [hweek, hlt, true_and]

theorem byDay_of_later {now t : LocalTime} (h : now.date.day < t.date.day) (twentyFour : Bool) :
    byDay twentyFour now t = t.date.text := by
  rw [byDay, if_neg (by omega), if_neg (by omega), if_neg (by omega)]

/-- A midnight of today or yesterday, or a time on a day to come. -/
def IsAstray (now t : LocalTime) : Prop :=
  now.date.day < t.date.day ∨
    t.IsMidnight ∧ (t.date.day = now.date.day ∨ t.date.day + 1 = now.date.day)

theorem wording_eq_byDay {now t : LocalTime} (h : ¬ IsAstray now t) (twentyFour : Bool) :
    wording twentyFour now t = byDay twentyFour now t := by
  rw [IsAstray, not_or, not_and, Nat.not_lt, not_or] at h
  obtain ⟨hnow, hmidnight⟩ := h
  rcases Nat.lt_trichotomy (t.date.day + 1) now.date.day with hday | hday | hday
  · have hcounted : t.countedDay ≤ t.date.day := by
      rw [LocalTime.countedDay]
      split <;> omega
    rw [byDay_of_earlier hday, wording, if_neg (by omega), if_neg (by omega)]
  · have hcounted := LocalTime.countedDay_of_not_midnight fun hm => (hmidnight hm).2 hday
    rw [wording, if_neg (by omega), if_pos (by omega), byDay, if_neg (by omega), if_pos hday]
  · have hsame : t.date.day = now.date.day := by omega
    have hcounted := LocalTime.countedDay_of_not_midnight fun hm => (hmidnight hm).1 hsame
    rw [wording, if_pos (by omega), byDay, if_pos hsame]

theorem wording_of_later {now t : LocalTime} (h : now.date.day < t.date.day) (twentyFour : Bool) :
    wording twentyFour now t = timeOfDay twentyFour t := by
  rw [wording, if_pos]
  rw [LocalTime.countedDay]
  split <;> omega

theorem wording_of_midnight_today {now t : LocalTime} (hm : t.IsMidnight)
    (h : t.date.day = now.date.day) (twentyFour : Bool) :
    wording twentyFour now t = "yesterday\n" ++ timeOfDay twentyFour t := by
  have hcounted := LocalTime.countedDay_of_midnight hm
  rw [wording, if_neg (by omega), if_pos (by omega)]

theorem wording_of_midnight_yesterday {now t : LocalTime} (hm : t.IsMidnight)
    (h : t.date.day + 1 = now.date.day) (twentyFour : Bool) :
    wording twentyFour now t = t.date.weekdayName := by
  have hcounted := LocalTime.countedDay_of_midnight hm
  rw [wording, if_neg (by omega), if_neg (by omega), if_pos (by omega)]

/-- A time of day is an hour and a minute behind a colon, with or without the half of the day. -/
theorem timeOfDay_eq (twentyFour : Bool) (t : LocalTime) : ∃ width h half,
    width ≤ 2 ∧ h < 24 ∧ half ∈ ["", " AM", " PM"] ∧
    timeOfDay twentyFour t =
      String.ofList (padded width h ++ ':' :: padded 2 t.minuteOfHour) ++ half := by
  have hhour : t.hourOfDay < 24 := by
    have hmod : t.micros % dayLength < dayLength := Nat.mod_lt _ (by decide)
    exact Nat.div_lt_of_lt_mul (by rwa [Nat.mul_comm])
  rw [timeOfDay]
  split
  · exact ⟨2, _, "", by decide, hhour, by decide, rfl⟩
  split
  · exact ⟨1, _, " PM", by decide, by omega, by decide, rfl⟩
  split
  · exact ⟨1, _, " PM", by decide, hhour, by decide, rfl⟩
  split
  · exact ⟨1, 12, " AM", by decide, by decide, by decide, rfl⟩
  · exact ⟨1, _, " AM", by decide, hhour, by decide, rfl⟩

theorem timeOfDay_ne_text (twentyFour : Bool) (t : LocalTime) (d : Date) :
    timeOfDay twentyFour t ≠ d.text := by
  obtain ⟨width, h, half, -, -, -, heq⟩ := timeOfDay_eq twentyFour t
  intro hne
  have hcolon : ':' ∈ d.chars := by
    have hchars : d.chars = (timeOfDay twentyFour t).toList := by
      rw [hne, Date.text, String.toList_ofList]
    simp [hchars, heq]
  rcases Date.mem_chars hcolon with hc | hc <;> cases hc

theorem weekdayName_mem (d : Date) : d.weekdayName ∈ weekdayNames := by
  have hweekday : d.weekday < weekdayNames.length := Nat.mod_lt _ (by decide)
  rw [Date.weekdayName, List.getD_eq_getElem _ _ hweekday]
  exact List.getElem_mem hweekday

theorem weekdayName_ne_yesterday (d : Date) (s : String) : d.weekdayName ≠ "yesterday\n" ++ s := by
  have hhead : ∀ name ∈ weekdayNames, name.toList.head? ≠ some 'y' := by decide
  intro h
  apply hhead _ (weekdayName_mem d)
  rw [h, String.toList_append]
  rfl

/-- Only what is astray is not told by the day it lies on. -/
theorem wording_eq_byDay_iff (twentyFour : Bool) (now t : LocalTime) :
    wording twentyFour now t = byDay twentyFour now t ↔ ¬ IsAstray now t := by
  refine ⟨?_, fun h => wording_eq_byDay h twentyFour⟩
  intro h hastray
  rcases hastray with hlater | ⟨hm, htoday | hyesterday⟩
  · rw [wording_of_later hlater, byDay_of_later hlater] at h
    exact timeOfDay_ne_text _ _ _ h
  · rw [wording_of_midnight_today hm htoday, byDay, if_pos htoday] at h
    simp at h
  · rw [wording_of_midnight_yesterday hm hyesterday, byDay, if_neg (by omega), if_pos hyesterday]
      at h
    exact weekdayName_ne_yesterday _ _ h

variable {c : Clock} {v : Value}

theorem display_of_not_truthy (h : v.truthy = false) : (c.display v).result = .ok .null := by
  simp [display, h]

theorem display_of_unread (hv : v.truthy = true) (h : Moment.read c.zone v = .ok none) :
    (c.display v).result = .ok v := by
  simp [display, hv, h, result_unparsed]

theorem display_of_read (hv : v.truthy = true) {t now : LocalTime}
    (ht : Moment.read c.zone v = .ok (some t)) (hnow : c.now.toLocal? c.zone = some now) :
    (c.display v).result = (phrase c.twentyFour now t).map .text := by
  have hlocal : Moment.toLocal c.zone c.now = .ok now := toLocal_eq_ok_iff.2 hnow
  simp only [display, hv, Bool.not_true, Bool.false_eq_true, if_false, Outcome.result_bind,
    Outcome.result_liftM, ht, ok_bind, hlocal]
  cases phrase c.twentyFour now t <;> rfl

/-- A time is told by the day it lies on, unless it is a midnight that begins today or yesterday or
lies on a day to come: then it reads as a time of yesterday, as the weekday and as a time of today.
Now must not be in the first week of the calendar, nor any time outside of it. -/
theorem display_by_day (c : Clock) (v : Value) :
    (∀ f, (c.display v).result = .error f ↔ f = .outsideCalendar ∧ v.truthy = true ∧
      Moment.IsTime c.zone v ∧ (Moment.IsOutside c.zone v ∨ c.IsEarly)) ∧
    (v.truthy = false → (c.display v).result = .ok .null) ∧
    ∀ t now, v.truthy = true → Moment.read c.zone v = .ok (some t) →
      c.now.toLocal? c.zone = some now → 7 ≤ now.date.day →
      ∃ s, (c.display v).result = .ok (.text s) ∧
        (s = byDay c.twentyFour now t ↔ ¬ IsAstray now t) ∧
        (now.date.day < t.date.day → s = timeOfDay c.twentyFour t) ∧
        (t.IsMidnight → t.date.day = now.date.day →
          s = "yesterday\n" ++ timeOfDay c.twentyFour t) ∧
        (t.IsMidnight → t.date.day + 1 = now.date.day → s = t.date.weekdayName) := by
  refine ⟨fun f => result_display_eq_error_iff, display_of_not_truthy, ?_⟩
  intro t now hv ht hnow hweek
  refine ⟨wording c.twentyFour now t, ?_, wording_eq_byDay_iff c.twentyFour now t, ?_, ?_, ?_⟩
  · rw [display_of_read hv ht hnow, phrase_of_le hweek]
    rfl
  · exact fun hlater => wording_of_later hlater c.twentyFour
  · exact fun hm htoday => wording_of_midnight_today hm htoday c.twentyFour
  · exact fun hm hyesterday => wording_of_midnight_yesterday hm hyesterday c.twentyFour

/-- On clocks two hours ahead, half past ten in the evening of 14 March 2024 is a time of the
15th. -/
theorem display_by_day_ahead :
    let evening : LocalTime := ⟨738958 * dayLength + 22 * hour + 30 * minute, by decide⟩
    let noon : LocalTime := ⟨738959 * dayLength + 12 * hour, by decide⟩
    let c : Clock := ⟨2 * hour, ⟨noon, some 0⟩, false⟩
    let v : Value := .dateTime ⟨evening, some 0⟩
    let t : LocalTime := ⟨738959 * dayLength + 30 * minute, by decide⟩
    let now : LocalTime := ⟨738959 * dayLength + 14 * hour, by decide⟩
    v.truthy = true ∧ Moment.read c.zone v = .ok (some t) ∧ c.now.toLocal? c.zone = some now ∧
      7 ≤ now.date.day ∧ ¬ IsAstray now t ∧ byDay false now t = "12:30 AM" ∧
      (c.display v).result = .ok (.text "12:30 AM") := by
  intro evening noon c v t now
  have hday : 7 ≤ now.date.day := by decide
  have hastray : ¬ IsAstray now t := by
    rintro (hlater | ⟨hm, -⟩)
    · exact absurd hlater (by decide)
    · exact absurd hm (by decide)
  have htoday : t.date.day = now.date.day := by decide
  have htext : byDay false now t = "12:30 AM" := by
    rw [byDay, if_pos htoday]
    decide +kernel
  have hlocal : (DateTime.mk evening (some 0)).toLocal? c.zone = some t := by decide +kernel
  have hnow : c.now.toLocal? c.zone = some now := by decide +kernel
  have hread : Moment.read c.zone v = .ok (some t) := by
    rw [Moment.read, toLocal_eq_ok_iff.2 hlocal, ok_map]
  obtain ⟨-, -, htold⟩ := display_by_day c v
  obtain ⟨s, hs, hiff, -⟩ := htold t now rfl hread hnow hday
  obtain rfl : s = "12:30 AM" := (hiff.2 hastray).trans htext
  exact ⟨rfl, hread, hnow, hday, hastray, htext, hs⟩

/-- The date of today is its midnight, and reads as a time of yesterday. -/
theorem not_display_byDay :
    ¬ ∀ (c : Clock) (v : Value) (t now : LocalTime), v.truthy = true →
      Moment.read c.zone v = .ok (some t) → c.now.toLocal? c.zone = some now →
      7 ≤ now.date.day → (c.display v).result = .ok (.text (byDay c.twentyFour now t)) := by
  intro h
  let today : Date := ⟨738959, by decide⟩
  let noon : LocalTime := ⟨738959 * dayLength + 12 * hour, by decide⟩
  let c : Clock := ⟨0, ⟨noon, none⟩, false⟩
  have hmidnight : (LocalTime.ofDate today).IsMidnight := by decide
  have htoday : (LocalTime.ofDate today).date.day = noon.date.day := by decide
  have hclaim := h c (.date today) (.ofDate today) noon rfl rfl rfl (by decide)
  rw [display_of_read rfl rfl rfl, phrase_of_le (by decide), byDay, if_pos htoday,
    wording_of_midnight_today hmidnight htoday] at hclaim
  simp [Except.map] at hclaim

end Clock
end ViewDoc
