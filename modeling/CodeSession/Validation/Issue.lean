import CodeSession.Text.Quoted

/-!
# Issues

What is wrong with a value that should become a member of a type: an issue says where (the path
of fields and positions) and why. A check lists all issues in the order of the fields.
-/

namespace CodeSession.Validation

/-! ## 1. Causes -/

/-- A step from a value to a part of it. -/
inductive Step where
  | field (name : String)
  | index (i : Nat)
  deriving DecidableEq, Repr

/-- Why a value does not fit. -/
inductive Cause where
  | missing
  | notText
  | emptyText
  | notBytes
  | notList
  | notDictionary
  | notAChoice (names : List String)
  | notANumber
  | unreadableNumber
  | notAnInteger
  | unreadableInteger
  | fractional
  | oversized
  | notFinite
  | notAbove (bound : Nat)
  | below (bound : Nat)
  | above (bound : Nat)
  | badBaseUrl
  | misaligned (ids documents metadatas : Nat)
  deriving DecidableEq, Repr

/-- The word for a cause. -/
def Cause.code : Cause → String
  | .missing => "missing"
  | .notText => "string_type"
  | .emptyText => "string_too_short"
  | .notBytes => "bytes_type"
  | .notList => "list_type"
  | .notDictionary => "dict_type"
  | .notAChoice _ => "enum"
  | .notANumber => "float_type"
  | .unreadableNumber => "float_parsing"
  | .notAnInteger => "int_type"
  | .unreadableInteger => "int_parsing"
  | .fractional => "int_from_float"
  | .oversized => "int_parsing_size"
  | .notFinite => "finite_number"
  | .notAbove _ => "greater_than"
  | .below _ => "greater_than_equal"
  | .above _ => "less_than_equal"
  | .badBaseUrl => "value_error"
  | .misaligned _ _ _ => "value_error"

/-- Words in single quotes, the last two joined by "or". -/
def alternatives : List String → String
  | [] => ""
  | [a] => "'" ++ a ++ "'"
  | [a, b] => "'" ++ a ++ "' or '" ++ b ++ "'"
  | a :: rest => "'" ++ a ++ "', " ++ alternatives rest

/-- What is said about a cause. -/
def Cause.message : Cause → String
  | .missing => "Field required"
  | .notText => "Input should be a valid string"
  | .emptyText => "String should have at least 1 character"
  | .notBytes => "Input should be a valid bytes"
  | .notList => "Input should be a valid list"
  | .notDictionary => "Input should be a valid dictionary"
  | .notAChoice names => "Input should be " ++ alternatives names
  | .notANumber => "Input should be a valid number"
  | .unreadableNumber => "Input should be a valid number, unable to parse string as a number"
  | .notAnInteger => "Input should be a valid integer"
  | .unreadableInteger => "Input should be a valid integer, unable to parse string as an integer"
  | .fractional => "Input should be a valid integer, got a number with a fractional part"
  | .oversized => "Unable to parse input string as an integer, exceeded maximum size"
  | .notFinite => "Input should be a finite number"
  | .notAbove bound => "Input should be greater than " ++ toString bound
  | .below bound => "Input should be greater than or equal to " ++ toString bound
  | .above bound => "Input should be less than or equal to " ++ toString bound
  | .badBaseUrl => "Value error, API_BASE_URL must start with http:// or https://"
  | .misaligned ids documents metadatas =>
    "Value error, ids, documents and metadatas must have equal length (got " ++ toString ids
      ++ ", " ++ toString documents ++ ", " ++ toString metadatas ++ ")"

/-! ## 2. Issues -/

/-- A cause and where it was found. -/
structure Issue where
  path : List Step
  cause : Cause
  deriving DecidableEq, Repr

/-- The text of a step. -/
def Step.text : Step → String
  | .field name => name
  | .index i => toString i

/-- The text of an issue. -/
def Issue.text (i : Issue) : String :=
  ".".intercalate (i.path.map Step.text) ++ ": " ++ i.cause.message ++ " [" ++ i.cause.code ++ "]"

/-- The text of a list of issues. -/
def report (issues : List Issue) : String :=
  "; ".intercalate (issues.map Issue.text)

end CodeSession.Validation
