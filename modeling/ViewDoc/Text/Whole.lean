import ViewDoc.Text.Blank
import ViewDoc.Text.Digit

/-!
Whole numbers as text.

They are written in ASCII digits and read in the decimal digits of any script. Neither is done for
numbers of more than 4300 digits.
-/

namespace ViewDoc.Text

def digitLimit : Nat := 4300

/-- Whether a number has few enough digits to be written. -/
def isWritable (n : Int) : Bool := n.natAbs < Nat.pow 10 digitLimit

def wholeChars (n : Int) : List Char :=
  if n < 0 then '-' :: Nat.toDigits 10 n.natAbs else Nat.toDigits 10 n.natAbs

def whole (n : Int) : String := String.ofList (wholeChars n)

def decimalValue (cs : List Char) : Nat :=
  cs.foldl (fun n c => 10 * n + (decimalDigit? c).getD 0) 0

/-- A text that begins with a whole number. -/
structure NumberStart where
  negative : Bool
  digits : List Char

/-- White space, an optional sign and decimal digits, then anything. -/
def numberStart? (cs : List Char) : Option NumberStart :=
  let body := cs.dropWhile isBlank
  let (negative, rest) :=
    match body with
    | '-' :: rest => (true, rest)
    | '+' :: rest => (false, rest)
    | rest => (false, rest)
  let digits := rest.takeWhile isDecimal
  if digits.isEmpty then none else some ⟨negative, digits⟩

def NumberStart.value (s : NumberStart) : Int :=
  if s.negative then -↑(decimalValue s.digits) else ↑(decimalValue s.digits)

end ViewDoc.Text
