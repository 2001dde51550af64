import ViewDoc.Calendar.Iso
import ViewDoc.Failure

/-!
Values as points in time.

Dates stand for their midnight, numbers for milliseconds since 1970 and texts are read as ISO 8601.
All of them are taken to local clocks, which a fixed zone sets ahead of universal time.
-/

namespace ViewDoc.Moment

open Calendar

def epoch : Nat := daysBeforeYear 1970 * dayLength

/-- A number of seconds in microseconds: the fraction is scaled first and then rounded. -/
def microsOfSeconds? : Binary64 → Option Int
  | .finite negative n =>
    let fraction := Binary64.quotient (n % Binary64.unit * second) Binary64.unit
    let micros : Nat := n / Binary64.unit * second + Binary64.nearest fraction Binary64.unit
    some (if negative then -micros else micros)
  | _ => none

/-- The local time so many seconds after the start of 1970, if it is not on the first day of the
calendar. -/
def ofSeconds? (zone : Int) (seconds : Binary64) : Option LocalTime := do
  let micros ← microsOfSeconds? seconds
  let t ← LocalTime.ofMicros? (epoch + micros + zone)
  if t.micros < dayLength then none else some t

/-- Milliseconds as seconds. -/
def secondsOfNumber? : Value → Option Binary64
  | .int n => some (Binary64.ofRatio (n < 0) n.natAbs 1000)
  | .float x => some (x.divide 1000)
  | _ => none

/-- The local time of a date and time; fails when it lies outside the calendar. -/
def toLocal (zone : Int) (t : DateTime) : Except Failure LocalTime :=
  match t.toLocal? zone with
  | some l => .ok l
  | none => .error .outsideCalendar

/-- The local time that a value denotes, if it denotes one. -/
def read (zone : Int) : Value → Except Failure (Option LocalTime)
  | .dateTime t => (toLocal zone t).map some
  | .date d => .ok (some (LocalTime.ofDate d))
  | .text s | .markup s =>
    match Iso.dateTime? (Text.strip s.toList) with
    | some t => (toLocal zone t).map some
    | none => .ok none
  | v => .ok ((secondsOfNumber? v).bind (ofSeconds? zone))

end ViewDoc.Moment
