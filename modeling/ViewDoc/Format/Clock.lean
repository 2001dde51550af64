import ViewDoc.Format.Moment
import ViewDoc.Outcome

/-!
Points in time as a reader sees them from now: the time of day for today, the same behind
`yesterday`, the weekday within a week, and else the date.
-/

namespace ViewDoc

open Calendar

/-- Where and when values are looked at. -/
structure Clock where
  /-- Microseconds by which local clocks are ahead of universal time. -/
  zone : Int
  now : DateTime
  twentyFour : Bool

namespace Clock

/-- `H:MM AM`, `H:MM PM` or, on a clock of 24 hours, `HH:MM`. -/
def timeOfDay (twentyFour : Bool) (t : LocalTime) : String :=
  let h := t.hourOfDay
  let minutes := padded 2 t.minuteOfHour
  let shown (hours : List Char) (half : String) : String :=
    String.ofList (hours ++ ':' :: minutes) ++ half
  if twentyFour then shown (padded 2 h) ""
  else if 12 < h then shown (padded 1 (h - 12)) " PM"
  else if h = 12 then shown (padded 1 h) " PM"
  else if h = 0 then shown (padded 1 12) " AM"
  else shown (padded 1 h) " AM"

/-- Midnight so many days before the day of a time; fails before the calendar begins. -/
def midnightBefore (t : LocalTime) (days : Nat) : Except Failure LocalTime :=
  match t.startOfDay.shift? (-(dayLength * days : Nat)) with
  | some m => .ok m
  | none => .error .outsideCalendar

/-- A time as seen from a local time. A midnight counts with the day before it. -/
def phrase (twentyFour : Bool) (now t : LocalTime) : Except Failure String := do
  let today := now.startOfDay
  let yesterday ← midnightBefore now 1
  let week ← midnightBefore now 7
  if today.micros < t.micros then return timeOfDay twentyFour t
  else if yesterday.micros < t.micros then return "yesterday\n" ++ timeOfDay twentyFour t
  else if week.micros < t.micros then return t.date.weekdayName
  else return t.date.text

def unparsed (v : Value) : Outcome Value := do
  Outcome.log .formatting .debug ("Could not parse " ++ v.quoted ++ " as a timestamp")
  return v

/-- A value as a time; what is empty gives null, and what is no time stays as it is. -/
def display (c : Clock) (v : Value) : Outcome Value := do
  if !v.truthy then return .null
  match ← Moment.read c.zone v with
  | none => unparsed v
  | some t =>
    let now ← Moment.toLocal c.zone c.now
    return .text (← phrase c.twentyFour now t)

end Clock
end ViewDoc
