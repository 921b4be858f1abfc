import CodeSession.Decimal.Reading
import CodeSession.Json.Value
import CodeSession.Text.Wide

/-!
# Reading JSON

JSON texts as values. Beside the standard grammar the words `NaN`, `Infinity` and `-Infinity`
are numbers; control characters in strings and integers of more than 4300 digits are refused; of
members with one name the last value counts, at the first one's place. A reader goes into so many
arrays and objects within one another and no further: what lies deeper stops it, whatever follows.

* `Json.parse` -- the value of a text, or what stops the reader;
* `Json.parse?` -- the value of a text for a reader that goes as deep as any text;
* `Json.decode` -- the value of a byte sequence in UTF-8, UTF-16 or UTF-32, told apart by the
  byte order mark or the zero bytes among the first four.
-/

namespace CodeSession.Json

open Text

/-! ## 1. Blanks and words -/

/-- What follows the blanks at the start. -/
def skipBlanks (cs : List Char) : List Char :=
  cs.dropWhile fun c => c == ' ' || c == '\t' || c == '\n' || c == '\r'

/-- What follows a word at the start. -/
def afterWord? (word : String) (cs : List Char) : Option (List Char) :=
  if word.toList.isPrefixOf cs then some (cs.drop word.length) else none

/-! ## 2. Strings -/

/-- The value of a hexadecimal digit. -/
def hexValue? (c : Char) : Option Nat :=
  if '0' ≤ c && c ≤ '9' then some (c.toNat - 0x30)
  else if 'a' ≤ c && c ≤ 'f' then some (c.toNat - 0x57)
  else if 'A' ≤ c && c ≤ 'F' then some (c.toNat - 0x37)
  else none

/-- The value of four hexadecimal digits. -/
def hexValue4? (a b c d : Char) : Option Nat := do
  let a ← hexValue? a
  let b ← hexValue? b
  let c ← hexValue? c
  let d ← hexValue? d
  return ((a * 16 + b) * 16 + c) * 16 + d

/-- The character that a one-letter escape stands for. -/
def escaped? : Char → Option Char
  | '"' => some '"'
  | '\\' => some '\\'
  | '/' => some '/'
  | 'b' => some '\x08'
  | 'f' => some '\x0c'
  | 'n' => some '\n'
  | 'r' => some '\r'
  | 't' => some '\t'
  | _ => none

/-- The code points of a string up to its closing quote, halves of surrogate pairs among them,
    and what follows the quote. -/
def stringUnits : List Char → Option (List Nat × List Char)
  | [] => none
  | '"' :: cs => some ([], cs)
  | '\\' :: 'u' :: a :: b :: c :: d :: cs =>
    match hexValue4? a b c d, stringUnits cs with
    | some u, some (us, rest) => some (u :: us, rest)
    | _, _ => none
  | '\\' :: e :: cs =>
    match escaped? e, stringUnits cs with
    | some c, some (us, rest) => some (c.toNat :: us, rest)
    | _, _ => none
  | c :: cs =>
    if c == '\\' || c.toNat < 0x20 then none
    else (stringUnits cs).map fun r => (c.toNat :: r.1, r.2)

/-- Code points as characters: a first and a second half side by side are one character, a half
    on its own is U+FFFD. -/
def joinPairs : List Nat → List Char
  | [] => []
  | [u] => [(Piece.ofCodePoint u).toChar]
  | u :: v :: us =>
    if 0xD800 ≤ u ∧ u ≤ 0xDBFF ∧ 0xDC00 ≤ v ∧ v ≤ 0xDFFF then
      (Utf16.pair u v).toChar :: joinPairs us
    else (Piece.ofCodePoint u).toChar :: joinPairs (v :: us)

/-- The string up to its closing quote, and what follows the quote. -/
def string? (cs : List Char) : Option (String × List Char) :=
  (stringUnits cs).map fun r => (String.ofList (joinPairs r.1), r.2)

/-! ## 3. Numbers -/

/-- The digits at the start and what follows them. -/
def spanDigits (cs : List Char) : List Char × List Char :=
  (cs.takeWhile Decimal.isDigit, cs.dropWhile Decimal.isDigit)

/-- A point with digits at the start, else nothing, and what follows. -/
def spanFraction : List Char → List Char × List Char
  | '.' :: cs =>
    let (ds, rest) := spanDigits cs
    if ds.isEmpty then ([], '.' :: cs) else ('.' :: ds, rest)
  | cs => ([], cs)

/-- An exponent with digits at the start, else nothing, and what follows. -/
def spanExponent : List Char → List Char × List Char
  | e :: cs =>
    if e == 'e' || e == 'E' then
      let sign := match cs with
        | '+' :: _ => ['+']
        | '-' :: _ => ['-']
        | _ => []
      let (ds, rest) := spanDigits (cs.drop sign.length)
      if ds.isEmpty then ([], e :: cs) else (e :: sign ++ ds, rest)
    else ([], e :: cs)
  | [] => ([], [])

/-- The whole part of a number: a zero, or digits that start with another one. -/
def spanWhole : List Char → List Char × List Char
  | '0' :: cs => (['0'], cs)
  | cs => spanDigits cs

/-- The number at the start and what follows it. -/
def number? (cs : List Char) : Option (Value × List Char) :=
  let sign := if cs.head? == some '-' then ['-'] else []
  let (whole, rest) := spanWhole (cs.drop sign.length)
  let (fraction, rest) := spanFraction rest
  let (exponent, rest) := spanExponent rest
  if whole.isEmpty then none
  else if fraction.isEmpty && exponent.isEmpty then
    if Decimal.digitLimit < whole.length then none
    else
      let n := ofDigits (Decimal.splitDigits whole).1
      some (.int (if sign.isEmpty then (n : Int) else -(n : Int)), rest)
  else (Decimal.literal? (sign ++ whole ++ fraction ++ exponent)).map fun x => (.float x, rest)

/-! ## 4. Values -/

/-- The words that are values. -/
def words : List (String × Value) :=
  [("null", .null), ("true", .bool true), ("false", .bool false), ("NaN", .float .nan),
   ("Infinity", .float (.infinite false)), ("-Infinity", .float (.infinite true))]

/-- A word, a string or a number at the start, and what follows it. -/
def scalar? (cs : List Char) : Option (Value × List Char) :=
  match words.findSome? fun w => (afterWord? w.1 cs).map fun rest => (w.2, rest) with
  | some r => some r
  | none =>
    match cs with
    | '"' :: cs => (string? cs).map fun r => (.string r.1, r.2)
    | _ => number? cs

/-- What a value may be nested in. -/
inductive Container where
  | array
  | object
  deriving DecidableEq, Repr

/-- What stops a reader: the text stands for no value, or an array or object lies too deep in it. -/
inductive Stop where
  | malformed
  | tooDeep (container : Container)
  deriving DecidableEq, Repr

/-- What is read, if it stands for something. -/
def orMalformed {α : Type} : Option α → Except Stop α
  | some a => .ok a
  | none => .error .malformed

mutual

/-- The value at the start and what follows it, looking at most `fuel` values and members deep and
    going into at most `depth` arrays and objects within one another. -/
def value : Nat → Nat → List Char → Except Stop (Value × List Char)
  | 0, _, _ => .error .malformed
  | _ + 1, 0, '[' :: _ => .error (.tooDeep .array)
  | fuel + 1, depth + 1, '[' :: cs =>
    match skipBlanks cs with
    | ']' :: rest => .ok (.array [], rest)
    | cs => (items fuel depth cs).map fun r => (.array r.1, r.2)
  | _ + 1, 0, '{' :: _ => .error (.tooDeep .object)
  | fuel + 1, depth + 1, '{' :: cs =>
    match skipBlanks cs with
    | '}' :: rest => .ok (.object [], rest)
    | cs => (members fuel depth [] cs).map fun r => (.object r.1, r.2)
  | _ + 1, _, cs => orMalformed (scalar? cs)

/-- The items up to the closing bracket, and what follows it. -/
def items : Nat → Nat → List Char → Except Stop (List Value × List Char)
  | 0, _, _ => .error .malformed
  | fuel + 1, depth, cs =>
    match value fuel depth cs with
    | .error e => .error e
    | .ok (v, rest) =>
      match skipBlanks rest with
      | ']' :: rest => .ok ([v], rest)
      | ',' :: rest => (items fuel depth (skipBlanks rest)).map fun r => (v :: r.1, r.2)
      | _ => .error .malformed

/-- The members up to the closing brace put into those before, and what follows it. -/
def members : Nat → Nat → Members → List Char → Except Stop (Members × List Char)
  | 0, _, _, _ => .error .malformed
  | fuel + 1, depth, before, '"' :: cs =>
    match string? cs with
    | none => .error .malformed
    | some (key, rest) =>
      match skipBlanks rest with
      | ':' :: rest =>
        match value fuel depth (skipBlanks rest) with
        | .error e => .error e
        | .ok (v, rest) =>
          let all := Members.insert key v before
          match skipBlanks rest with
          | '}' :: rest => .ok (all, rest)
          | ',' :: rest => members fuel depth all (skipBlanks rest)
          | _ => .error .malformed
      | _ => .error .malformed
  | _ + 1, _, _, _ => .error .malformed

end

/-- The value of a text for a reader that goes so deep. Each level of nesting and each item takes a
    character, so there is fuel enough. -/
def parse (depth : Nat) (cs : List Char) : Except Stop Value :=
  match value (2 * cs.length + 2) depth (skipBlanks cs) with
  | .error e => .error e
  | .ok (v, rest) => if (skipBlanks rest).isEmpty then .ok v else .error .malformed

/-- The value of a text. None nests deeper than it is long. -/
def parse? (cs : List Char) : Option Value :=
  (parse cs.length cs).toOption

/-! ## 5. Byte sequences -/

/-- The pieces of a byte sequence in the encoding that its first bytes show. -/
def pieces : Bytes → List Piece
  | 0x00 :: 0x00 :: 0xFE :: 0xFF :: bs => Utf32.decode .big bs
  | 0xFF :: 0xFE :: 0x00 :: 0x00 :: bs => Utf32.decode .little bs
  | 0xFE :: 0xFF :: bs => Utf16.decode .big bs
  | 0xFF :: 0xFE :: bs => Utf16.decode .little bs
  | 0xEF :: 0xBB :: 0xBF :: bs => Utf8.decodeFrom true none bs
  | a :: b :: c :: d :: bs =>
    let all := a :: b :: c :: d :: bs
    if a == 0 then
      if b == 0 then Utf32.decode .big all else Utf16.decode .big all
    else if b == 0 then
      if c == 0 && d == 0 then Utf32.decode .little all else Utf16.decode .little all
    else Utf8.decodeFrom true none all
  | [a, b] =>
    if a == 0 then Utf16.decode .big [a, b]
    else if b == 0 then Utf16.decode .little [a, b]
    else Utf8.decodeFrom true none [a, b]
  | bs => Utf8.decodeFrom true none bs

/-- The value of a byte sequence for a reader that goes so deep. -/
def decode (depth : Nat) (bs : Bytes) : Except Stop Value :=
  match exactText? (pieces bs) with
  | none => .error .malformed
  | some s => parse depth s.toList

end CodeSession.Json
