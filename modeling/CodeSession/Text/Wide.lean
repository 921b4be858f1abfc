import CodeSession.Text.Utf8

/-!
# UTF-16 and UTF-32

Byte sequences read two or four bytes at a time, in either byte order. A rest too short for a
unit, and half a surrogate pair that only the end of the text keeps from its partner, are one
invalid stretch together with all that follows.
-/

namespace CodeSession.Text

/-- The order of the bytes of a unit. -/
inductive ByteOrder where
  | little
  | big
  deriving DecidableEq, Repr

/-! ## 1. Units of two bytes -/

namespace Utf16

/-- The unit of two bytes. -/
def unit (order : ByteOrder) (a b : UInt8) : Nat :=
  match order with
  | .little => a.toNat + 0x100 * b.toNat
  | .big => 0x100 * a.toNat + b.toNat

/-- The character of a surrogate pair. -/
def pair (high low : Nat) : Piece :=
  Piece.ofCodePoint (0x10000 + (high - 0xD800) * 0x400 + (low - 0xDC00))

/-- The pieces of a byte sequence; `high` is a first half that waits for its partner. -/
def decodeFrom (order : ByteOrder) (high : Option Nat) : Bytes → List Piece
  | a :: b :: rest =>
    let u := unit order a b
    if 0xDC00 ≤ u ∧ u ≤ 0xDFFF then
      match high with
      | some h => pair h u :: decodeFrom order none rest
      | none => .surrogate :: decodeFrom order none rest
    else
      let before := if high.isSome then [Piece.surrogate] else []
      if 0xD800 ≤ u ∧ u ≤ 0xDBFF then before ++ decodeFrom order (some u) rest
      else before ++ Piece.ofCodePoint u :: decodeFrom order none rest
  | [_] => [.invalid]
  | [] => if high.isSome then [.invalid] else []

/-- The pieces of a byte sequence. -/
def decode (order : ByteOrder) (bs : Bytes) : List Piece :=
  decodeFrom order none bs

end Utf16

/-! ## 2. Units of four bytes -/

namespace Utf32

/-- The unit of four bytes. -/
def unit (order : ByteOrder) (a b c d : UInt8) : Nat :=
  match order with
  | .little => a.toNat + 0x100 * b.toNat + 0x10000 * c.toNat + 0x1000000 * d.toNat
  | .big => 0x1000000 * a.toNat + 0x10000 * b.toNat + 0x100 * c.toNat + d.toNat

/-- The pieces of a byte sequence. -/
def decode (order : ByteOrder) : Bytes → List Piece
  | a :: b :: c :: d :: rest => Piece.ofCodePoint (unit order a b c d) :: decode order rest
  | [] => []
  | _ => [.invalid]

end Utf32

end CodeSession.Text
