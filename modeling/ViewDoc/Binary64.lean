/-!
Binary floating-point numbers of 64 bits, kept exactly.

A finite number is a sign and a whole number of steps of `2 ^ -1074`, the distance between the
smallest positive number and zero. Rounding keeps at most 53 significant bits, goes to the nearest
such number and breaks ties towards the even neighbour.
-/

namespace ViewDoc

inductive Binary64 where
  | nan
  | infinite (negative : Bool)
  | finite (negative : Bool) (steps : Nat)
deriving DecidableEq

namespace Binary64

/-- The number of binary places of a step. -/
def places : Nat := 1074

/-- The number of steps in one. -/
def unit : Nat := Nat.pow 2 places

theorem pow_two_pos (n : Nat) : 0 < Nat.pow 2 n := Nat.pow_pos (Nat.succ_pos 1)

theorem unit_pos : 0 < unit := by
  unfold unit
  exact pow_two_pos places

/-- The quotient rounded to the nearest whole number, a half going to the even one. -/
def nearest (num den : Nat) : Nat :=
  let q := num / den
  let r := num % den
  if 2 * r < den ∨ 2 * r = den ∧ q % 2 = 0 then q else q + 1

/-- The spacing of the numbers with 53 significant bits around `n` steps. -/
def spacing (n : Nat) : Nat := Nat.pow 2 (n.log2 - 52)

/-- The quotient in steps, rounded to 53 significant bits. -/
def quotient (num den : Nat) : Nat :=
  let n := num * unit
  let s := spacing (n / den)
  nearest n (den * s) * s

/-- The number nearest to a quotient; past the largest finite one it is infinite. -/
def ofRatio (negative : Bool) (num den : Nat) : Binary64 :=
  let n := quotient num den
  if n < Nat.pow 2 2098 then .finite negative n else .infinite negative

def isZero : Binary64 → Bool
  | .finite _ 0 => true
  | _ => false

/-- The whole number that a finite number is, if it is one. -/
def whole? : Binary64 → Option Int
  | .finite negative n =>
    if n % unit = 0 then some (if negative then -↑(n / unit) else ↑(n / unit)) else none
  | _ => none

/-- The whole part of a finite number, cut towards zero. -/
def truncate? : Binary64 → Option Int
  | .finite negative n => some (if negative then -↑(n / unit) else ↑(n / unit))
  | _ => none

/-- Numeric equality: the zeros are equal, and what is not a number equals nothing. -/
def equal : Binary64 → Binary64 → Bool
  | .finite s m, .finite t n => m == n && (m == 0 || s == t)
  | .infinite s, .infinite t => s == t
  | _, _ => false

def divide (x : Binary64) (den : Nat) : Binary64 :=
  match x with
  | .finite negative n => ofRatio negative n (den * unit)
  | other => other

end Binary64
end ViewDoc
