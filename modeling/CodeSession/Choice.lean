import CodeSession.Json.Literal

/-!
# Named choices

Types with finitely many members, each with a name of its own: the tabs, the roles, the phases of
an upload. `ofName?` finds a member by its name.
-/

namespace CodeSession

/-- A type whose members are told by their names. -/
class Choice (α : Type) where
  /-- The word for the type in messages. -/
  title : String
  all : List α
  name : α → String

namespace Choice

/-- The member with a name. -/
def ofName? {α : Type} [Choice α] (s : String) : Option α :=
  (all : List α).find? fun a => name a == s

theorem name_of_ofName? {α : Type} [Choice α] {s : String} {a : α} (h : ofName? s = some a) :
    name a = s := by
  have := List.find?_some h
  simpa using this

/-- The member with a text as its name. -/
def ofValue? {α : Type} [Choice α] : Json.Value → Option α
  | .string s => ofName? s
  | _ => none

/-- What is said of a value that names no member. -/
def unknown (α : Type) [Choice α] (v : Json.Value) : String :=
  v.toLiteral ++ " is not a valid " ++ title α

end Choice

end CodeSession
