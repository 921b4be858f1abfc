/-!
# UTF-8

Texts as bytes and bytes as texts. The reader is a machine over bytes whose state says what the
character under way still owes (`Owed`); a byte out of bounds ends the stretch, which counts as
one invalid piece, and starts the next one. So every maximal stretch that no character begins
with is one piece:

* `encode` -- the bytes of a text;
* `decode` -- the pieces of a byte sequence: characters, halves of surrogate pairs (where they
  are let through) and invalid stretches;
* `text`, `exactText?` -- the pieces as a text, with U+FFFD for what is no character, and as a
  text only if there is no invalid stretch.
-/

namespace CodeSession.Text

/-- A byte sequence. -/
abbrev Bytes := List UInt8

/-! ## 1. Pieces -/

/-- What a stretch of bytes reads as. -/
inductive Piece where
  | char (c : Char)
  | surrogate
  | invalid
  deriving DecidableEq, Repr

/-- The character that stands for what cannot be read. -/
def replacement : Char := '\uFFFD'

/-- A piece as a character. -/
def Piece.toChar : Piece → Char
  | .char c => c
  | _ => replacement

/-- A code point as a piece. -/
def Piece.ofCodePoint (n : Nat) : Piece :=
  if n.isValidChar then .char (Char.ofNat n)
  else if 0xD800 ≤ n ∧ n ≤ 0xDFFF then .surrogate
  else .invalid

/-- Pieces as a text, with U+FFFD for what is no character. -/
def text (ps : List Piece) : String :=
  String.ofList (ps.map Piece.toChar)

/-- Pieces as a text, if no stretch is invalid. -/
def exactText? (ps : List Piece) : Option String :=
  if ps.contains .invalid then none else some (text ps)

namespace Utf8

/-! ## 2. Writing -/

/-- The bytes of a character. -/
def encodeChar (c : Char) : Bytes :=
  let n := c.toNat
  if n < 0x80 then [.ofNat n]
  else if n < 0x800 then [.ofNat (0xC0 + n / 0x40), .ofNat (0x80 + n % 0x40)]
  else if n < 0x10000 then
    [.ofNat (0xE0 + n / 0x1000), .ofNat (0x80 + n / 0x40 % 0x40), .ofNat (0x80 + n % 0x40)]
  else
    [.ofNat (0xF0 + n / 0x40000), .ofNat (0x80 + n / 0x1000 % 0x40),
      .ofNat (0x80 + n / 0x40 % 0x40), .ofNat (0x80 + n % 0x40)]

/-- The bytes of a text. -/
def encode (s : String) : Bytes :=
  s.toList.flatMap encodeChar

/-! ## 3. Reading -/

/-- A character under way: how many bytes it still owes, the bounds of the next one, and the bits
    so far. -/
structure Owed where
  left : Nat
  low : Nat
  high : Nat
  bits : Nat
  deriving DecidableEq, Repr

/-- A byte between characters: the pieces it completes and what it leaves owed. With `halves`,
    the three bytes of half a surrogate pair are let through. -/
def start (halves : Bool) (b : Nat) : List Piece × Option Owed :=
  if b < 0x80 then ([.char (Char.ofNat b)], none)
  else if b < 0xC2 then ([.invalid], none)
  else if b < 0xE0 then ([], some ⟨1, 0x80, 0xBF, b - 0xC0⟩)
  else if b = 0xE0 then ([], some ⟨2, 0xA0, 0xBF, 0⟩)
  else if b = 0xED then ([], some ⟨2, 0x80, if halves then 0xBF else 0x9F, 0xD⟩)
  else if b < 0xF0 then ([], some ⟨2, 0x80, 0xBF, b - 0xE0⟩)
  else if b = 0xF0 then ([], some ⟨3, 0x90, 0xBF, 0⟩)
  else if b < 0xF4 then ([], some ⟨3, 0x80, 0xBF, b - 0xF0⟩)
  else if b = 0xF4 then ([], some ⟨3, 0x80, 0x8F, 4⟩)
  else ([.invalid], none)

/-- One byte. -/
def step (halves : Bool) : Option Owed → Nat → List Piece × Option Owed
  | none, b => start halves b
  | some o, b =>
    if o.low ≤ b ∧ b ≤ o.high then
      let bits := o.bits * 0x40 + (b - 0x80)
      if o.left ≤ 1 then ([Piece.ofCodePoint bits], none)
      else ([], some ⟨o.left - 1, 0x80, 0xBF, bits⟩)
    else
      (.invalid :: (start halves b).1, (start halves b).2)

/-- The pieces of the bytes that follow a character under way. -/
def decodeFrom (halves : Bool) : Option Owed → Bytes → List Piece
  | none, [] => []
  | some _, [] => [.invalid]
  | o, b :: bs =>
    let next := step halves o b.toNat
    next.1 ++ decodeFrom halves next.2 bs

/-- The pieces of a byte sequence. -/
def decode (bs : Bytes) : List Piece :=
  decodeFrom false none bs

end Utf8

end CodeSession.Text
