import CodeSession.Decimal.Reading
import CodeSession.Validation.Field

/-!
# Checking numbers

Numbers and integers from JSON values. Truth values count as one and zero, and a text counts as
the number it spells; a number counts as an integer if it has no fraction.
-/

namespace CodeSession.Validation

open Json (Value)

/-- A number. -/
def number : Value → Checked Binary64
  | .float x => .ok x
  | .int n =>
    match Binary64.ofInt n with
    | .finite negative units => .ok (.finite negative units)
    | _ => .refuse .notANumber
  | .bool b => .ok (.finite false (if b then Binary64.one else 0))
  | .string s =>
    match Decimal.lax? s with
    | some x => .ok x
    | none => .refuse .unreadableNumber
  | _ => .refuse .notANumber

/-- The first number that is too large to count as an integer: 2⁶³. -/
def wordLimit : Nat := Nat.pow 2 63

/-- An integer. -/
def integer : Value → Checked Int
  | .int n => .ok n
  | .bool b => .ok (if b then 1 else 0)
  | .float (.finite negative units) =>
    match (Binary64.finite negative units).toInt? with
    | none => .refuse .fractional
    | some n => if wordLimit ≤ n.natAbs then .refuse .oversized else .ok n
  | .float _ => .refuse .notFinite
  | .string s =>
    match Decimal.laxInt s with
    | .ok n => .ok n
    | .error .notANumber => .refuse .unreadableInteger
    | .error (.tooLong _) => .refuse .oversized
  | _ => .refuse .notAnInteger

/-- A number above zero. -/
def aboveZero (x : Binary64) : Checked Binary64 :=
  if x.isPositive then .ok x else .refuse (.notAbove 0)

/-- A number not below zero. -/
def notBelowZero (x : Binary64) : Checked Binary64 :=
  if x.isNonNegative then .ok x else .refuse (.below 0)

/-- An integer between two bounds. -/
def between (low high : Nat) (n : Int) : Checked Nat :=
  if n < low then .refuse (.below low)
  else if (high : Int) < n then .refuse (.above high)
  else .ok n.toNat

end CodeSession.Validation
