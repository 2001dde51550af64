/-!
Days of the Gregorian calendar, from 1 January of year 1 to 31 December of year 9999.

A date is kept as the number of days since the first one, so that going back and forth is addition;
year, month and day are read off that number.
-/

namespace ViewDoc

namespace Calendar

def isLeap (year : Nat) : Bool := year % 4 == 0 && (year % 100 != 0 || year % 400 == 0)

/-- Days before 1 January of a year from year 1 on. -/
def daysBeforeYear (year : Nat) : Nat :=
  365 * (year - 1) + (year - 1) / 4 - (year - 1) / 100 + (year - 1) / 400

/-- The year that holds a day, found from the mean length of a year. -/
def yearOf (day : Nat) : Nat :=
  let y := 400 * day / 146097 + 1
  if day < daysBeforeYear y then y - 1
  else if daysBeforeYear (y + 1) ≤ day then y + 1
  else y

def monthLengths (year : Nat) : List Nat :=
  [31, if isLeap year then 29 else 28, 31, 30, 31, 30, 31, 31, 30, 31, 30, 31]

def monthLength (year month : Nat) : Nat := (monthLengths year).getD (month - 1) 0

def daysBeforeMonth (year month : Nat) : Nat :=
  ((monthLengths year).take (month - 1)).foldl (· + ·) 0

/-- Counts days off month by month: the month, from `month` on, and the day in it from 1 on. -/
def splitMonths (month : Nat) : List Nat → Nat → Nat × Nat
  | [], day => (month, day + 1)
  | length :: rest, day =>
    if day < length then (month, day + 1) else splitMonths (month + 1) rest (day - length)

/-- The number of days in the years 1 to 9999. -/
def dayCount : Nat := 3652059

def weekdayNames : List String :=
  ["Monday", "Tuesday", "Wednesday", "Thursday", "Friday", "Saturday", "Sunday"]

end Calendar

open Calendar

structure Date where
  day : Nat
  inRange : day < dayCount
deriving DecidableEq

namespace Date

def first : Date := ⟨0, by decide⟩
def last : Date := ⟨dayCount - 1, by decide⟩

def ofDay? (n : Int) : Option Date :=
  if h : 0 ≤ n ∧ n < dayCount then some ⟨n.toNat, by omega⟩ else none

def ofCivil? (year month day : Nat) : Option Date :=
  if 1 ≤ year ∧ year ≤ 9999 ∧ 1 ≤ month ∧ month ≤ 12 ∧ 1 ≤ day ∧ day ≤ monthLength year month then
    ofDay? (daysBeforeYear year + daysBeforeMonth year month + (day - 1) : Nat)
  else none

def year (d : Date) : Nat := yearOf d.day

def monthDay (d : Date) : Nat × Nat :=
  splitMonths 1 (monthLengths d.year) (d.day - daysBeforeYear d.year)

def month (d : Date) : Nat := d.monthDay.1
def dayOfMonth (d : Date) : Nat := d.monthDay.2

/-- Monday is 0. -/
def weekday (d : Date) : Nat := d.day % 7

def weekdayName (d : Date) : String := weekdayNames.getD d.weekday ""

/-- The first day of the week that holds the first Thursday of a year, possibly before year 1. -/
def firstWeek (year : Nat) : Int :=
  let first := daysBeforeYear year
  let monday := first - first % 7
  if first % 7 ≤ 3 then monday else monday + 7

/-- Whether a year counts a fifty-third week. -/
def hasLongWeekYear (year : Nat) : Bool :=
  let weekday := daysBeforeYear year % 7
  weekday == 3 || weekday == 2 && isLeap year

/-- The date of a year, week and day of the week, Monday being 1. -/
def ofWeek? (year week day : Nat) : Option Date :=
  if 1 ≤ year ∧ year ≤ 9999 ∧ 1 ≤ week ∧ (week ≤ 52 ∨ week = 53 ∧ hasLongWeekYear year) ∧
      1 ≤ day ∧ day ≤ 7 then
    ofDay? (firstWeek year + ((week - 1) * 7 + (day - 1) : Nat))
  else none

end Date

def padded (width n : Nat) : List Char :=
  let digits := Nat.toDigits 10 n
  List.replicate (width - digits.length) '0' ++ digits

/-- `YYYY-MM-DD`. -/
def Date.chars (d : Date) : List Char :=
  padded 4 d.year ++ '-' :: (padded 2 d.month ++ '-' :: padded 2 d.dayOfMonth)

def Date.text (d : Date) : String := String.ofList d.chars

end ViewDoc
