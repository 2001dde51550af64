import ViewDoc.Calendar.Date

/-!
Times of day on a date, to the microsecond, without a zone.

A local time is the number of microseconds since the start of year 1; it stays inside the calendar.
-/

namespace ViewDoc

namespace Calendar

def second : Nat := 1000000
def minute : Nat := 60 * second
def hour : Nat := 60 * minute
def dayLength : Nat := 24 * hour

/-- The first microsecond past the calendar. -/
def microCount : Nat := dayCount * dayLength

end Calendar

open Calendar

structure LocalTime where
  micros : Nat
  inRange : micros < microCount
deriving DecidableEq

namespace LocalTime

def first : LocalTime := ⟨0, by decide⟩
def last : LocalTime := ⟨microCount - 1, by decide⟩

/-- Leaves the calendar at either end with `none`. -/
def ofMicros? (n : Int) : Option LocalTime :=
  if h : 0 ≤ n ∧ n < microCount then some ⟨n.toNat, by omega⟩ else none

def shift? (t : LocalTime) (distance : Int) : Option LocalTime := ofMicros? (t.micros + distance)

def date (t : LocalTime) : Date :=
  ⟨t.micros / dayLength, Nat.div_lt_of_lt_mul (by
    have := t.inRange
    rwa [microCount, Nat.mul_comm] at this)⟩

def hourOfDay (t : LocalTime) : Nat := t.micros % dayLength / hour
def minuteOfHour (t : LocalTime) : Nat := t.micros % hour / minute
def secondOfMinute (t : LocalTime) : Nat := t.micros % minute / second
def microOfSecond (t : LocalTime) : Nat := t.micros % second

def startOfDay (t : LocalTime) : LocalTime :=
  ⟨t.micros - t.micros % dayLength, Nat.lt_of_le_of_lt (Nat.sub_le ..) t.inRange⟩

def ofDate (d : Date) : LocalTime :=
  ⟨d.day * dayLength, Nat.mul_lt_mul_of_pos_right d.inRange (by decide)⟩

theorem date_ofDate (d : Date) : (ofDate d).date = d := by
  cases d
  simp [ofDate, date, Nat.mul_div_cancel _ (show 0 < dayLength by decide)]

/-- A time of day on a date; hours, minutes and seconds must be in range. -/
def at? (d : Date) (hours minutes seconds micros : Nat) : Option LocalTime :=
  if hours < 24 ∧ minutes < 60 ∧ seconds < 60 ∧ micros < second then
    (ofDate d).shift? (hours * hour + minutes * minute + seconds * Calendar.second + micros : Nat)
  else none

/-- `HH:MM:SS`, with six digits of fraction if it is not zero. -/
def clockChars (t : LocalTime) : List Char :=
  padded 2 t.hourOfDay ++ ':' :: (padded 2 t.minuteOfHour ++ ':' :: (padded 2 t.secondOfMinute ++
    if t.microOfSecond = 0 then [] else '.' :: padded 6 t.microOfSecond))

end LocalTime

/-- A time of day on no particular date. -/
structure TimeOfDay where
  micros : Nat
  inRange : micros < dayLength
deriving DecidableEq

namespace TimeOfDay

def first : TimeOfDay := ⟨0, by decide⟩
def last : TimeOfDay := ⟨dayLength - 1, by decide⟩

def onFirstDay (t : TimeOfDay) : LocalTime :=
  ⟨t.micros, Nat.lt_of_lt_of_le t.inRange (by decide)⟩

def text (t : TimeOfDay) : String := String.ofList t.onFirstDay.clockChars

end TimeOfDay
end ViewDoc
