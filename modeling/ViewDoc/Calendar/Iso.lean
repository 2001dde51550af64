import ViewDoc.Calendar.DateTime

/-!
Reading ISO 8601 texts: a date (`YYYY-MM-DD`, `YYYYMMDD`, `YYYY-Www[-D]` or `YYYYWww[D]`), then any
single separator and a time (`HH[:MM[:SS[.f]]]`, or the same without colons), then `Z` or an offset
in the form of a time behind a sign.

Digits are ASCII. Fractions count to six digits. One ASCII character between the time and the
offset, and anything there behind six digits of fraction, is passed over; a NUL ends the text.
-/

namespace ViewDoc.Iso

open Calendar

/-- A number of exactly so many ASCII digits, and the rest. -/
def digits? (count : Nat) (cs : List Char) : Option (Nat × List Char) :=
  let front := cs.take count
  if front.length = count ∧ front.all Char.isDigit then
    some (Nat.ofDigitChars 10 front 0, cs.drop count)
  else none

def isDigitAt (cs : List Char) (i : Nat) : Bool := cs[i]?.any Char.isDigit

/-- Where the date ends. A week with four more characters can be read in two ways: a hyphen followed
by two digits is a separator, and the digits behind a week without hyphens hold a day of the week if
their number is odd. -/
def dateLength? (cs : List Char) : Option Nat :=
  let n := cs.length
  if n < 7 then none
  else if n = 7 then some 7
  else if cs[4]? = some '-' then
    if cs[5]? = some 'W' then
      if cs[8]? = some '-' then
        if n = 9 then none
        else if isDigitAt cs 10 then some 8 else some 10
      else some 8
    else some 10
  else if cs[4]? = some 'W' then
    let run := 7 + ((cs.drop 7).takeWhile Char.isDigit).length
    if run < 9 then some run
    else if run % 2 = 0 then some 7 else some 8
  else some 8

def skipHyphen? (hyphens : Bool) (cs : List Char) : Option (List Char) :=
  if hyphens then
    match cs with
    | '-' :: rest => some rest
    | _ => none
  else some cs

/-- The week behind `W`, and its day unless the date ends with the week. -/
def week? (year : Nat) (hyphens : Bool) (cs : List Char) : Option Date := do
  let (week, rest) ← digits? 2 cs
  if rest.isEmpty then Date.ofWeek? year week 1
  else
    let rest ← skipHyphen? hyphens rest
    let (day, _) ← digits? 1 rest
    Date.ofWeek? year week day

def date? (cs : List Char) : Option Date := do
  let (year, rest) ← digits? 4 cs
  let hyphens := rest.head? = some '-'
  let rest := if hyphens then rest.tail else rest
  match rest with
  | 'W' :: rest => week? year hyphens rest
  | _ =>
    let (month, rest) ← digits? 2 rest
    let rest ← skipHyphen? hyphens rest
    let (day, _) ← digits? 2 rest
    Date.ofCivil? year month day

/-- Hours, minutes, seconds and microseconds, and whether something that was not read follows. -/
structure ClockReading where
  hours : Nat
  minutes : Nat
  seconds : Nat
  micros : Nat
  excess : Bool

def hasExcess (rest : List Char) : Bool := rest.head?.any (· ≠ '\x00')

/-- A fraction of at most six digits that count and others that do not. -/
def fraction? (cs : List Char) : Option (Nat × Bool) := do
  let count := min 6 cs.length
  let (n, rest) ← digits? count cs
  return (n * Nat.pow 10 (6 - count), hasExcess (rest.dropWhile Char.isDigit))

inductive Follow where
  | stop (excess : Bool)
  | fraction (cs : List Char)
  /-- The next field of two digits. -/
  | field (cs : List Char)

/-- Goes on behind a field; `colons` tells whether colons stand between the fields. -/
def follow? (colons : Bool) : List Char → Option Follow
  | [] => some (.stop false)
  | c :: rest =>
    if rest.isEmpty && c.toNat < 128 then some (.stop (c ≠ '\x00'))
    else if colons && c = ':' then some (.field rest)
    else if c = '.' || c = ',' then some (.fraction rest)
    else if colons then none
    else some (.field (c :: rest))

def clock? (cs : List Char) : Option ClockReading := do
  let (hours, rest) ← digits? 2 cs
  let colons := rest.head? = some ':'
  match ← follow? colons rest with
  | .stop excess => return ⟨hours, 0, 0, 0, excess⟩
  | .fraction rest =>
    let (micros, excess) ← fraction? rest
    return ⟨hours, 0, 0, micros, excess⟩
  | .field rest =>
    let (minutes, rest) ← digits? 2 rest
    match ← follow? colons rest with
    | .stop excess => return ⟨hours, minutes, 0, 0, excess⟩
    | .fraction rest =>
      let (micros, excess) ← fraction? rest
      return ⟨hours, minutes, 0, micros, excess⟩
    | .field rest =>
      let (seconds, rest) ← digits? 2 rest
      match ← follow? colons rest with
      | .stop excess => return ⟨hours, minutes, seconds, 0, excess⟩
      | .fraction rest | .field rest =>
        let (micros, excess) ← fraction? rest
        return ⟨hours, minutes, seconds, micros, excess⟩

def startsOffset (c : Char) : Bool := c = '+' || c = '-' || c = 'Z'

/-- An offset behind its sign; less than a second counts as none, a day or more is refused. -/
def offset? (negative : Bool) (cs : List Char) : Option Int := do
  let r ← clock? cs
  let seconds := r.hours * 3600 + r.minutes * 60 + r.seconds
  if r.excess then none
  else if seconds = 0 then some 0
  else if 86400 ≤ seconds then none
  else
    let n : Int := (seconds * second + r.micros : Nat)
    some (if negative then -n else n)

/-- The offset at the end of a time, `none` inside if there is none. -/
def zone? : List Char → Option (Option Int)
  | [] => some none
  | 'Z' :: rest => if hasExcess rest then none else some (some 0)
  | c :: rest => (offset? (c = '-') rest).map some

def dateTime? (cs : List Char) : Option DateTime := do
  let length ← dateLength? cs
  let date ← date? (cs.take length)
  match cs.drop length with
  | [] => return ⟨LocalTime.ofDate date, none⟩
  | _ :: time =>
    let body := time.takeWhile (!startsOffset ·)
    let tail := time.dropWhile (!startsOffset ·)
    let r ← clock? body
    if tail.isEmpty && r.excess then none
    else
      let offset ← zone? tail
      let clock ← LocalTime.at? date r.hours r.minutes r.seconds r.micros
      return ⟨clock, offset⟩

end ViewDoc.Iso
