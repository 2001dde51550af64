import ViewDoc.Binary64

/-!
Decimal text of floating-point numbers.

A number is written with the fewest significant digits that read back as the same number. The
digits stand in positional notation from `0.0001` up to below `10 ^ 16`, and with an exponent of at
least two digits elsewhere.
-/

namespace ViewDoc.Binary64

/-- The numbers `digits * 10 ^ power` that round to a given one lie between two bounds, given in
quarters of a step; the bounds themselves count when the significand is even. -/
structure Interval where
  low : Nat
  high : Nat
  closed : Bool

def Interval.around (n : Nat) : Interval :=
  let s := spacing n
  { low := 4 * n - (if n = Nat.pow 2 n.log2 ∧ 1 < s then s else 2 * s)
    high := 4 * n + 2 * s
    closed := n / s % 2 = 0 }

def Interval.contains (i : Interval) (num den : Nat) : Bool :=
  if i.closed then i.low * den ≤ num && num ≤ i.high * den
  else i.low * den < num && num < i.high * den

/-- How often `n` can be multiplied by ten before it reaches `bound`. -/
def shiftsTo (bound : Nat) : Nat → Nat → Nat
  | 0, _ => 0
  | fuel + 1, n => if bound ≤ n then 0 else shiftsTo bound fuel (n * 10) + 1

/-- The `k` with `10 ^ (k - 1) ≤ x < 10 ^ k` for a number of `n > 0` steps. -/
def magnitude (n : Nat) : Int :=
  if unit ≤ n then (Nat.toDigits 10 (n / unit)).length else 1 - shiftsTo unit 400 n

/-- The decimals with the last digit at `10 ^ power` next to `n` steps, if they read back as it. -/
def candidate? (n : Nat) (power : Int) : Option Nat :=
  let up := Nat.pow 10 (-power).toNat
  let down := unit * Nat.pow 10 power.toNat
  let i := Interval.around n
  let d := n * up / down
  let fits (d : Nat) : Bool := i.contains (4 * d * down) up
  let r := n * up % down
  if fits d && (!fits (d + 1) || 2 * r < down || 2 * r = down && d % 2 = 0) then some d
  else if fits (d + 1) then some (d + 1)
  else none

/-- Tries `count` more digits, starting with the last digit at `10 ^ power`. -/
def search (n : Nat) : Nat → Int → Nat × Int
  | 0, power => (0, power)
  | count + 1, power =>
    match candidate? n power with
    | some d => (d, power)
    | none => search n count (power - 1)

/-- The fewest digits that read back as `n > 0` steps, and the power of ten they count. -/
def shortest (n : Nat) : Nat × Int := search n 17 (magnitude n - 1)

def dropZeros : List Char → List Char := fun cs =>
  (cs.reverse.dropWhile (· == '0')).reverse

def zeros (n : Nat) : List Char := List.replicate n '0'

/-- The exponent with its sign and at least two digits. -/
def exponentText (e : Int) : List Char :=
  let digits := Nat.toDigits 10 e.natAbs
  'e' :: (if e < 0 then '-' else '+') :: (if digits.length < 2 then '0' :: digits else digits)

/-- Lays out significant digits whose decimal point stands after `point` of them. -/
def layout (digits : List Char) (point : Int) : List Char :=
  if point ≤ -4 ∨ 16 < point then
    match digits with
    | [] => []
    | [d] => d :: exponentText (point - 1)
    | d :: rest => d :: '.' :: (rest ++ exponentText (point - 1))
  else if point ≤ 0 then '0' :: '.' :: (zeros (-point).toNat ++ digits)
  else if digits.length ≤ point.toNat then
    digits ++ zeros (point.toNat - digits.length) ++ ['.', '0']
  else digits.take point.toNat ++ '.' :: digits.drop point.toNat

def finiteText (n : Nat) : List Char :=
  if n = 0 then ['0', '.', '0']
  else
    let (d, power) := shortest n
    let digits := Nat.toDigits 10 d
    layout (dropZeros digits) (digits.length + power)

/-- The text of a number: always with a point or an exponent. -/
def text : Binary64 → String
  | .nan => "nan"
  | .infinite negative => if negative then "-inf" else "inf"
  | .finite negative n =>
    String.ofList (if negative then '-' :: finiteText n else finiteText n)

/-- The number nearest to `digits * 10 ^ power`. -/
def ofDecimal (negative : Bool) (digits : Nat) (power : Int) : Binary64 :=
  if digits = 0 then .finite negative 0
  else if 400 < power then .infinite negative
  else if (Nat.toDigits 10 digits).length + power < -400 then .finite negative 0
  else ofRatio negative (digits * Nat.pow 10 power.toNat) (Nat.pow 10 (-power).toNat)

def signed : List Char → Bool × List Char
  | '-' :: cs => (true, cs)
  | '+' :: cs => (false, cs)
  | cs => (false, cs)

def exponent? : List Char → Option Int
  | [] => some 0
  | e :: cs =>
    if e == 'e' || e == 'E' then
      let (negative, digits) := signed cs
      if digits.isEmpty || !digits.all Char.isDigit then none
      else
        let n := Nat.ofDigitChars 10 digits 0
        some (if negative then -↑n else ↑n)
    else none

/-- Reads `digits[.digits][e[sign]digits]`, where either run of digits before the exponent may be
empty but not both. -/
def decimal? (negative : Bool) (cs : List Char) : Option Binary64 :=
  let whole := cs.takeWhile Char.isDigit
  let rest := cs.dropWhile Char.isDigit
  let (fraction, rest) :=
    match rest with
    | '.' :: more => (more.takeWhile Char.isDigit, more.dropWhile Char.isDigit)
    | other => ([], other)
  if whole.isEmpty && fraction.isEmpty then none
  else
    (exponent? rest).map fun e =>
      ofDecimal negative (Nat.ofDigitChars 10 (whole ++ fraction) 0) (e - fraction.length)

/-- Reads a signed decimal, `inf` or `nan`. -/
def read? (cs : List Char) : Option Binary64 :=
  let (negative, body) := signed cs
  if body == ['n', 'a', 'n'] then some .nan
  else if body == ['i', 'n', 'f'] then some (.infinite negative)
  else decimal? negative body

end ViewDoc.Binary64
