import CodeSession.Decimal.Shortest
import CodeSession.Json.Value
import CodeSession.Text.Quoted

/-!
# Values in messages

A value on one line, as messages show it: capitalised words, quoted texts, brackets and braces.
-/

namespace CodeSession.Json

open Text

mutual

/-- The characters of a value in a message. -/
def literal : Value → List Char
  | .null => "None".toList
  | .bool b => if b then "True".toList else "False".toList
  | .int n => (toString n).toList
  | .float x => x.toText.toList
  | .string s => (quoted s).toList
  | .array [] => "[]".toList
  | .array (v :: vs) => '[' :: literal v ++ literalItems vs ++ [']']
  | .object [] => ['\x7b', '\x7d']
  | .object ((k, v) :: ms) =>
    '\x7b' :: (quoted k).toList ++ ": ".toList ++ literal v ++ literalMembers ms ++ ['\x7d']

/-- The items after the first one. -/
def literalItems : List Value → List Char
  | [] => []
  | v :: vs => ", ".toList ++ literal v ++ literalItems vs

/-- The members after the first one. -/
def literalMembers : List (String × Value) → List Char
  | [] => []
  | (k, v) :: ms =>
    ", ".toList ++ (quoted k).toList ++ ": ".toList ++ literal v ++ literalMembers ms

end

/-- A value in a message. -/
def Value.toLiteral (v : Value) : String :=
  String.ofList (literal v)

end CodeSession.Json
