import ViewDoc.Format.Clock

/-!
Points in time as a distance from now, such as `3 hours ago` or `in 2 days`.

The distance in seconds is divided by the length of the next larger unit as long as it reaches it;
each quotient is a rounded floating-point number, counted in steps.
-/

namespace ViewDoc.Ago

/-- How many of a unit make one of the next, as floating-point numbers: seconds to years. -/
def factors : List Nat :=
  let whole (n : Nat) := Binary64.quotient n 1
  let weeks := Binary64.quotient (Binary64.quotient 365 7) (12 * Binary64.unit)
  [whole 60, whole 60, whole 24, whole 7, weeks, whole 12]

def unitNames : List String := ["second", "minute", "hour", "day", "week", "month", "year"]

/-- Goes to larger units while the distance reaches the factor; the unit reached and the distance in
it. -/
def descend (unit distance : Nat) : List Nat → Nat × Nat
  | [] => (unit, distance)
  | factor :: rest =>
    if factor ≤ distance then descend (unit + 1) (Binary64.quotient distance factor) rest
    else (unit, distance)

/-- A count of a unit; seconds count from ten on. -/
structure Span where
  count : Nat
  unit : Nat
deriving DecidableEq

def Span.ofMicros (micros : Nat) : Span :=
  let reached := descend 0 (Binary64.quotient micros Calendar.second) factors
  ⟨reached.2 / Binary64.unit, reached.1⟩

def Span.isMoment (s : Span) : Bool := s.unit = 0 ∧ s.count ≤ 9

def Span.text (s : Span) : String :=
  Text.whole s.count ++ " " ++ unitNames.getD s.unit "" ++ (if 1 < s.count then "s" else "")

def phrase (now t : LocalTime) : String :=
  let future := now.micros < t.micros
  let span := Span.ofMicros ((now.micros : Int) - t.micros).natAbs
  if span.isMoment then (if future then "right now" else "just now")
  else if future then "in " ++ span.text
  else span.text ++ " ago"

/-- A value as a distance from now; what is no time stays as it is. -/
def display (c : Clock) (v : Value) : Outcome Value := do
  match ← Moment.read c.zone v with
  | none => Clock.unparsed v
  | some t =>
    let now ← Moment.toLocal c.zone c.now
    return .text (phrase now t)

end ViewDoc.Ago
