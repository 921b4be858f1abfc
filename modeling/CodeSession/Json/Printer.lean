import CodeSession.Decimal.Shortest
import CodeSession.Json.Value
import CodeSession.Text.Quoted
import CodeSession.Text.Utf8

/-!
# Printing JSON

A value as indented JSON text in ASCII: two spaces a level, one item or member a line, `{}` and
`[]` for empty ones, numbers in their shortest text, every character outside printable ASCII
escaped by its UTF-16 units.
-/

namespace CodeSession.Json

open Text

/-! ## 1. Strings -/

/-- A UTF-16 unit as an escape. -/
def escapeUnit (u : Nat) : List Char :=
  '\\' :: 'u' :: hex 4 u

/-- A character as it stands in a string. -/
def escapeChar (c : Char) : List Char :=
  if c == '"' then ['\\', '"']
  else if c == '\\' then ['\\', '\\']
  else if c == '\n' then ['\\', 'n']
  else if c == '\r' then ['\\', 'r']
  else if c == '\t' then ['\\', 't']
  else if c == '\x0c' then ['\\', 'f']
  else if c == '\x08' then ['\\', 'b']
  else if 0x20 ≤ c.toNat && c.toNat < 0x7F then [c]
  else if c.toNat < 0x10000 then escapeUnit c.toNat
  else
    escapeUnit (0xD800 + (c.toNat - 0x10000) / 0x400)
      ++ escapeUnit (0xDC00 + (c.toNat - 0x10000) % 0x400)

/-- A string in its quotes. -/
def printString (s : String) : List Char :=
  '"' :: s.toList.flatMap escapeChar ++ ['"']

/-! ## 2. Values -/

/-- The text of a number; a number that is none and the infinities are words. -/
def printFloat : Binary64 → String
  | .nan => "NaN"
  | .infinite negative => if negative then "-Infinity" else "Infinity"
  | x => x.toText

/-- A new line of a level. -/
def newLine (level : Nat) : List Char :=
  '\n' :: List.replicate (2 * level) ' '

mutual

/-- The text of a value at a level. -/
def print (level : Nat) : Value → List Char
  | .null => "null".toList
  | .bool b => if b then "true".toList else "false".toList
  | .int n => (toString n).toList
  | .float x => (printFloat x).toList
  | .string s => printString s
  | .array [] => "[]".toList
  | .array (v :: vs) =>
    '[' :: newLine (level + 1) ++ print (level + 1) v ++ printItems (level + 1) vs
      ++ newLine level ++ [']']
  | .object [] => ['\x7b', '\x7d']
  | .object ((k, v) :: ms) =>
    '\x7b' :: newLine (level + 1) ++ printString k ++ ": ".toList ++ print (level + 1) v
      ++ printMembers (level + 1) ms ++ newLine level ++ ['\x7d']

/-- The items after the first one. -/
def printItems (level : Nat) : List Value → List Char
  | [] => []
  | v :: vs => ',' :: newLine level ++ print level v ++ printItems level vs

/-- The members after the first one. -/
def printMembers (level : Nat) : List (String × Value) → List Char
  | [] => []
  | (k, v) :: ms =>
    ',' :: newLine level ++ printString k ++ ": ".toList ++ print level v
      ++ printMembers level ms

end

/-- The text of a value. -/
def Value.toText (v : Value) : String :=
  String.ofList (print 0 v)

end CodeSession.Json
