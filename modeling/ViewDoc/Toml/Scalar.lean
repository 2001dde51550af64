import ViewDoc.Binary64.Decimal
import ViewDoc.Text.Whole
import ViewDoc.Toml.Lexical
import ViewDoc.Value

/-!
Dates, times and numbers in TOML texts.

Each form takes as much of the text as it can; what follows is for others to judge.
-/

namespace ViewDoc.Toml

open Calendar

/-- A number of exactly two digits in a range. -/
def twoDigits? (low high : Nat) : List Char → Option (Nat × List Char)
  | a :: b :: rest =>
    if a.isDigit && b.isDigit then
      let n := Nat.ofDigitChars 10 [a, b] 0
      if low ≤ n ∧ n ≤ high then some (n, rest) else none
    else none
  | _ => none

def skip? (c : Char) : List Char → Option (List Char)
  | d :: rest => if d = c then some rest else none
  | [] => none

/-- A fraction in microseconds, cut to six digits; without digits there is none. -/
def fraction (cs : List Char) : Nat × List Char :=
  match cs with
  | '.' :: rest =>
    let digits := rest.takeWhile Char.isDigit
    if digits.isEmpty then (0, cs)
    else
      let kept := digits.take 6
      (Nat.ofDigitChars 10 kept 0 * Nat.pow 10 (6 - kept.length), rest.dropWhile Char.isDigit)
  | _ => (0, cs)

/-- `HH:MM:SS[.f]` in microseconds. -/
def clock? (cs : List Char) : Option (Nat × List Char) := do
  let (h, rest) ← twoDigits? 0 23 cs
  let (m, rest) ← twoDigits? 0 59 (← skip? ':' rest)
  let (s, rest) ← twoDigits? 0 59 (← skip? ':' rest)
  let (micros, rest) := fraction rest
  return (h * hour + m * minute + s * second + micros, rest)

/-- `Z` or `+HH:MM` in microseconds, if it stands there. -/
def offset? : List Char → Option (Int × List Char)
  | 'Z' :: rest | 'z' :: rest => some (0, rest)
  | c :: rest =>
    if c = '+' || c = '-' then do
      let (h, rest) ← twoDigits? 0 23 rest
      let (m, rest) ← twoDigits? 0 59 (← skip? ':' rest)
      let n : Int := (h * hour + m * minute : Nat)
      return (if c = '-' then -n else n, rest)
    else none
  | [] => none

/-- The digits of a date; months and days are in range, but not every such day exists. -/
def dateDigits? (cs : List Char) : Option (Option Date × List Char) := do
  let (century, rest) ← twoDigits? 0 99 cs
  let (year, rest) ← twoDigits? 0 99 rest
  let (month, rest) ← twoDigits? 1 12 (← skip? '-' rest)
  let (day, rest) ← twoDigits? 1 31 (← skip? '-' rest)
  return (Date.ofCivil? (century * 100 + year) month day, rest)

/-- A time of day behind a date, with its offset. -/
def clockBehindDate? : List Char → Option (Nat × Option Int × List Char)
  | c :: rest =>
    if c = 'T' || c = 't' || c = ' ' then do
      let (micros, rest) ← clock? rest
      match offset? rest with
      | some (offset, rest) => return (micros, some offset, rest)
      | none => return (micros, none, rest)
    else none
  | [] => none

/-- A date and a time of day, if the calendar holds them. -/
def moment (clock : Option LocalTime) (offset : Option Int) : Except Fault Value :=
  match clock with
  | some clock => .ok (.dateTime ⟨clock, offset⟩)
  | none => .error .invalid

/-- A date, with a time of day and an offset if they follow. -/
def dateTime? (cs : List Char) : Option (Except Fault (Value × List Char)) := do
  let (date, rest) ← dateDigits? cs
  match date with
  | none => return .error .invalid
  | some date =>
    match clockBehindDate? rest with
    | none => return .ok (.date date, rest)
    | some (micros, offset, rest) =>
      return (moment ((LocalTime.ofDate date).shift? micros) offset).map fun v => (v, rest)

def timeOfDay? (cs : List Char) : Option (Except Fault (Value × List Char)) := do
  let (micros, rest) ← clock? cs
  if h : micros < dayLength then return .ok (.time ⟨micros, h⟩, rest)
  else return .error .invalid

/-- The longest run of digits with single underscores inside it, without these. -/
def digitRun (isDigit : Char → Bool) : List Char → List Char × List Char
  | [] => ([], [])
  | c :: rest =>
    if isDigit c then
      let (digits, after) := digitRun isDigit rest
      (c :: digits, after)
    else
      match rest with
      | d :: more =>
        if c = '_' && isDigit d then
          let (digits, after) := digitRun isDigit more
          (d :: digits, after)
        else ([], c :: rest)
      | [] => ([], [c])

def digits? (isDigit : Char → Bool) (cs : List Char) : Option (List Char × List Char) :=
  if cs.head?.any isDigit then some (digitRun isDigit cs) else none

def radixValue (radix : Nat) (digits : List Char) : Nat :=
  digits.foldl (fun n c => radix * n + (hexValue? c).getD 0) 0

/-- A whole number in the base that a letter behind its zero names. -/
def radix? : List Char → Option (Value × List Char)
  | '0' :: letter :: rest => do
    let radix ← match letter with
      | 'x' => some 16
      | 'o' => some 8
      | 'b' => some 2
      | _ => none
    let (digits, rest) ← digits? (fun c => (hexValue? c).any (· < radix)) rest
    return (.int (radixValue radix digits), rest)
  | _ => none

def fractionDigits (cs : List Char) : List Char × List Char :=
  match cs with
  | '.' :: rest => (digits? Char.isDigit rest).getD ([], cs)
  | _ => ([], cs)

def exponent? (cs : List Char) : Option (Int × List Char) :=
  match cs with
  | e :: rest =>
    if e = 'e' || e = 'E' then do
      let (negative, body) := Binary64.signed rest
      let (digits, rest) ← digits? Char.isDigit body
      let n := Nat.ofDigitChars 10 digits 0
      return (if negative then -↑n else ↑n, rest)
    else none
  | [] => none

/-- The digits before the point: a zero alone, or a run that begins with another digit. -/
def leadingDigits? : List Char → Option (List Char × List Char)
  | '0' :: rest => some (['0'], rest)
  | cs => digits? Char.isDigit cs

/-- A decimal number; it is a whole one without a point and an exponent. -/
def decimal? (cs : List Char) : Option (Except Fault (Value × List Char)) := do
  let (negative, body) := Binary64.signed cs
  let (whole, rest) ← leadingDigits? body
  let (fraction, rest) := fractionDigits rest
  let power := exponent? rest
  if fraction.isEmpty && power.isNone then
    if whole.length ≤ Text.digitLimit then
      let n := Nat.ofDigitChars 10 whole 0
      return .ok (.int (if negative then -↑n else ↑n), rest)
    else return .error .tooManyDigits
  else
    let (power, rest) := power.getD (0, rest)
    let x := Binary64.ofDecimal negative (Nat.ofDigitChars 10 (whole ++ fraction) 0)
      (power - fraction.length)
    return .ok (.float x, rest)

/-- Infinity and what is not a number, with a sign or without. -/
def special? (cs : List Char) : Option (Value × List Char) :=
  let (negative, body) := Binary64.signed cs
  match body with
  | 'i' :: 'n' :: 'f' :: rest => some (.float (.infinite negative), rest)
  | 'n' :: 'a' :: 'n' :: rest => some (.float .nan, rest)
  | _ => none

def scalar (cs : List Char) : Except Fault (Value × List Char) :=
  match cs with
  | 't' :: 'r' :: 'u' :: 'e' :: rest => .ok (.bool true, rest)
  | 'f' :: 'a' :: 'l' :: 's' :: 'e' :: rest => .ok (.bool false, rest)
  | _ =>
    let forms := (dateTime? cs).or <| (timeOfDay? cs).or <| ((radix? cs).map .ok).or <|
      (decimal? cs).or <| (special? cs).map .ok
    forms.getD (.error .invalid)

end ViewDoc.Toml
