/-!
# Binary64 numbers

The 64-bit binary floating-point numbers, exactly. The magnitude of a finite one is counted in
units of 2⁻¹⁰⁷⁴, so it is a natural number, the order is the order of those numbers, and sums of
times need no rounding:

* `round` -- the number next to a quotient, a tie going to the even neighbour;
* `ofDecimal`, `ofInt` -- decimal values and integers, rounded.
-/

namespace CodeSession

/-- A binary64 number; the magnitude of a finite one counts units of 2⁻¹⁰⁷⁴. -/
inductive Binary64 where
  | nan
  | infinite (negative : Bool)
  | finite (negative : Bool) (units : Nat)
  deriving DecidableEq, Repr

namespace Binary64

/-! ## 1. The grid -/

/-- The units in one: 2¹⁰⁷⁴. -/
def one : Nat := Nat.pow 2 1074

/-- The first magnitude beyond the finite numbers: 2¹⁰²⁴. -/
def limit : Nat := Nat.pow 2 2098

/-- The distance between neighbours of the binade that a magnitude lies in. -/
def spacing (units : Nat) : Nat :=
  Nat.pow 2 (units.log2 - 52)

/-! ## 2. Rounding -/

/-- The magnitude on the grid next to `num / den` units, a tie going to the even multiple of the
    spacing. -/
def roundUnits (num den : Nat) : Nat :=
  let step := spacing (num / den)
  let below := num / (den * step)
  let rest := num % (den * step)
  let up := den * step < 2 * rest || (2 * rest == den * step && below % 2 == 1)
  (if up then below + 1 else below) * step

/-- The number next to `num / den` units. -/
def round (negative : Bool) (num den : Nat) : Binary64 :=
  let units := roundUnits num den
  if limit ≤ units then .infinite negative else .finite negative units

/-- The number next to an integer. -/
def ofInt (n : Int) : Binary64 :=
  round (n < 0) (n.natAbs * one) 1

/-- How many decimal digits a number has. -/
def digitCount (n : Nat) : Nat :=
  (Nat.toDigits 10 n).length

/-- The number next to `mantissa · 10^exponent`. Far outside the range the powers of ten are not
    computed. -/
def ofDecimal (negative : Bool) (mantissa : Nat) (exponent : Int) : Binary64 :=
  let size := (digitCount mantissa : Int) + exponent
  if mantissa = 0 || size < -400 then .finite negative 0
  else if 400 < size then .infinite negative
  else if 0 ≤ exponent then round negative (mantissa * Nat.pow 10 exponent.toNat * one) 1
  else round negative (mantissa * one) (Nat.pow 10 (-exponent).toNat)

/-! ## 3. Signs and whole numbers -/

/-- Greater than zero. -/
def isPositive : Binary64 → Bool
  | .nan => false
  | .infinite negative => !negative
  | .finite negative units => !negative && units != 0

/-- Zero or greater. -/
def isNonNegative : Binary64 → Bool
  | .nan => false
  | .infinite negative => !negative
  | .finite negative units => !negative || units == 0

/-- Whether a number is a zero. -/
def isZero : Binary64 → Bool
  | .finite _ units => units == 0
  | _ => false

/-- The integer that a number is. -/
def toInt? : Binary64 → Option Int
  | .finite negative units =>
    if units % one == 0 then
      some (if negative then -((units / one : Nat) : Int) else ((units / one : Nat) : Int))
    else none
  | _ => none

end Binary64

end CodeSession
