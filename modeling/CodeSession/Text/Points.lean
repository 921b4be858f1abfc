import CodeSession.Text.Quoted

/-!
# Code points

A row of code points may hold halves of surrogate pairs, which are no characters and have no bytes
in UTF-8. `CodePoint.text` is the text that such a row makes up, or what is said about the first
stretch of halves in it.
-/

namespace CodeSession.Text

/-- A character, or half of a surrogate pair. -/
inductive CodePoint where
  | char (c : Char)
  | half (n : Fin 0x800)
  deriving DecidableEq, Repr

namespace CodePoint

/-- The character that a code point is. -/
def char? : CodePoint → Option Char
  | char c => some c
  | half _ => none

/-- The number of a code point. -/
def number : CodePoint → Nat
  | char c => c.toNat
  | half n => 0xD800 + n

/-- What is said about halves from a position on. -/
def unencodable (position : Nat) : List CodePoint → String
  | [p] => "'utf-8' codec can't encode character '\\u" ++ String.ofList (hex 4 p.number)
      ++ "' in position " ++ toString position ++ ": surrogates not allowed"
  | ps => "'utf-8' codec can't encode characters in position " ++ toString position ++ "-"
      ++ toString (position + ps.length - 1) ++ ": surrogates not allowed"

/-- The text that code points make up. -/
def text (ps : List CodePoint) : Except String String :=
  let before := ps.takeWhile fun p => p.char?.isSome
  let halves := (ps.drop before.length).takeWhile fun p => p.char?.isNone
  if halves.isEmpty then .ok (String.ofList (ps.filterMap char?))
  else .error (unencodable before.length halves)

/-- The code points of a text. -/
def ofText (s : String) : List CodePoint :=
  s.toList.map char

end CodePoint

end CodeSession.Text
