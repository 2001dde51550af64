import ViewDoc.Calendar.LocalTime

/-!
Local times with or without a distance from universal time.
-/

namespace ViewDoc

open Calendar

/-- The offset is in microseconds, east of universal time. -/
structure DateTime where
  clock : LocalTime
  offset : Option Int
deriving DecidableEq

namespace DateTime

/-- The largest offset, either way, in whole minutes. -/
def offsetLimit : Nat := 23 * hour + 59 * minute

/-- Microseconds of universal time, for a time with an offset. -/
def instant? (t : DateTime) : Option Int := t.offset.map (t.clock.micros - ·)

/-- The time on clocks that are `zone` microseconds ahead of universal time. A time without offset
is taken to be read off such a clock. Both universal and local time have to stay in the calendar. -/
def toLocal? (zone : Int) (t : DateTime) : Option LocalTime :=
  match t.offset with
  | none => some t.clock
  | some offset => (t.clock.shift? (-offset)).bind (·.shift? zone)

/-- Times are equal if both lack an offset and read the same, or both have one and mean the same
instant. -/
def equal (a b : DateTime) : Bool :=
  match a.instant?, b.instant? with
  | none, none => a.clock.micros == b.clock.micros
  | some m, some n => m == n
  | _, _ => false

/-- `+HH:MM`, then seconds and their fraction if they are not zero. -/
def offsetChars (offset : Int) : List Char :=
  let n := offset.natAbs
  let seconds := n % minute / second
  let micros := n % second
  let sign := if offset < 0 then '-' else '+'
  sign :: (padded 2 (n / hour) ++ ':' :: (padded 2 (n % hour / minute) ++
    if seconds = 0 ∧ micros = 0 then []
    else ':' :: (padded 2 seconds ++ if micros = 0 then [] else '.' :: padded 6 micros)))

def chars (separator : Char) (t : DateTime) : List Char :=
  t.clock.date.chars ++ separator :: (t.clock.clockChars ++ (t.offset.map offsetChars).getD [])

def text (t : DateTime) : String := String.ofList (t.chars ' ')

/-- The name of the zone: `UTC` with the offset, if that is not zero. -/
def zoneName (offset : Int) : String :=
  if offset = 0 then "UTC" else "UTC" ++ String.ofList (offsetChars offset)

end DateTime
end ViewDoc
