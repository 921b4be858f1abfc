import CodeSession.Decimal.Binary64

/-!
# Shortest decimal text

The text of a binary64 number with the fewest digits that read back as it: on the coarsest
decimal grid that has a point in the interval of reals rounding to the number, the point next to
it. Magnitudes from 10⁻⁴ to below 10¹⁶ are written positionally with at least one decimal,
others with an exponent of at least two digits.
-/

namespace CodeSession.Binary64

/-! ## 1. Digits -/

/-- The exponent of the first digit of a magnitude: the greatest `e` with `10^e ≤ units / 2¹⁰⁷⁴`. -/
def leadingExponent (units : Nat) : Int :=
  (digitCount (units * Nat.pow 10 400 / one) : Int) - 401

/-- The ends of the interval of reals that round to a magnitude, in quarter units. Just above a
    power of two the neighbour below is half as far. -/
def interval (units : Nat) : Nat × Nat :=
  let step := spacing units
  let below := if units == Nat.pow 2 units.log2 && 1 < step then step else 2 * step
  (4 * units - below, 4 * units + 2 * step)

/-- Whether `candidate · num / den` units lie in an interval, its ends included or not. -/
def inside (closed : Bool) (ends : Nat × Nat) (candidate num den : Nat) : Bool :=
  let x := 4 * candidate * num
  if closed then ends.1 * den ≤ x && x ≤ ends.2 * den
  else ends.1 * den < x && x < ends.2 * den

/-- The point with the fewest digits, at most `count` more than `digits`, that reads back: the
    digits as a number and the exponent of the last one. -/
def searchPoint (units : Nat) (leading : Int) : Nat → Nat → Nat × Int
  | 0, _ => (0, 0)
  | count + 1, digits =>
    let p : Int := leading - (digits : Int) + 1
    let num := if 0 ≤ p then one * Nat.pow 10 p.toNat else one
    let den := if 0 ≤ p then 1 else Nat.pow 10 (-p).toNat
    let ends := interval units
    let closed := units / spacing units % 2 == 0
    let low := units * den / num
    let twice := 2 * (units * den % num)
    let nearest := if num < twice || (twice == num && low % 2 == 1) then low + 1 else low
    if inside closed ends nearest num den then (nearest, p)
    else if inside closed ends low num den then (low, p)
    else if inside closed ends (low + 1) num den then (low + 1, p)
    else searchPoint units leading count (digits + 1)

/-- Digits without the zeros at their end, and how many those were. -/
def dropZeros (ds : List Char) : List Char × Nat :=
  let zeros := (ds.reverse.takeWhile (· == '0')).length
  (ds.take (ds.length - zeros), zeros)

/-- The digits of a magnitude other than zero, and the exponent of the first one. -/
def shortestDigits (units : Nat) : List Char × Int :=
  let point := searchPoint units (leadingExponent units) 17 1
  let ds := Nat.toDigits 10 point.1
  ((dropZeros ds).1, point.2 + (ds.length : Int) - 1)

/-! ## 2. The text -/

/-- Digits with the point after the digit of exponent zero. -/
def positional (ds : List Char) (exponent : Int) : List Char :=
  if exponent < 0 then
    ['0', '.'] ++ List.replicate (-exponent - 1).toNat '0' ++ ds
  else
    let whole := exponent.toNat + 1
    let padded := ds ++ List.replicate (whole - ds.length) '0'
    let fraction := padded.drop whole
    padded.take whole ++ ['.'] ++ (if fraction.isEmpty then ['0'] else fraction)

/-- Digits with the point after the first one, and an exponent. -/
def scientific (ds : List Char) (exponent : Int) : List Char :=
  let power := Nat.toDigits 10 exponent.natAbs
  ds.take 1 ++ (if 1 < ds.length then '.' :: ds.drop 1 else [])
    ++ ['e', if exponent < 0 then '-' else '+']
    ++ (if power.length < 2 then '0' :: power else power)

/-- The shortest text of a number. -/
def toText : Binary64 → String
  | .nan => "nan"
  | .infinite negative => if negative then "-inf" else "inf"
  | .finite negative units =>
    let sign := if negative then ['-'] else []
    if units = 0 then String.ofList (sign ++ ['0', '.', '0'])
    else
      let (ds, e) := shortestDigits units
      String.ofList (sign ++ if -4 ≤ e && e < 16 then positional ds e else scientific ds e)

end CodeSession.Binary64
