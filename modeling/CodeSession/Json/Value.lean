import CodeSession.Decimal.Binary64

/-!
# JSON values

A JSON value as a tree. Integers are unbounded and kept apart from binary64 numbers; the members
of an object keep their order, and a name stands in it once: `insert` puts a member in the place
of one with its name, else at the end (`find?_insert_self`, `find?_insert_of_ne`).
-/

namespace CodeSession.Json

/-- A JSON value. -/
inductive Value where
  | null
  | bool (b : Bool)
  | int (n : Int)
  | float (x : Binary64)
  | string (s : String)
  | array (items : List Value)
  | object (members : List (String × Value))
  deriving Repr

instance : Inhabited Value := ⟨.null⟩

/-- The members of an object, in order. -/
abbrev Members := List (String × Value)

namespace Members

/-- The members with one put in. -/
def insert (key : String) (value : Value) : Members → Members
  | [] => [(key, value)]
  | (k, v) :: rest => if k = key then (k, value) :: rest else (k, v) :: insert key value rest

/-- The value of a name. -/
def find? (key : String) : Members → Option Value
  | [] => none
  | (k, v) :: rest => if k = key then some v else find? key rest

theorem find?_insert_self (key : String) (value : Value) (ms : Members) :
    find? key (insert key value ms) = some value := by
  induction ms with
  | nil => simp [insert, find?]
  | cons m rest ih =>
    obtain ⟨k, v⟩ := m
    by_cases h : k = key <;> simp [insert, find?, h, ih]

theorem find?_insert_of_ne {key other : String} (h : key ≠ other) (value : Value) (ms : Members) :
    find? other (insert key value ms) = find? other ms := by
  induction ms with
  | nil => simp [insert, find?, h]
  | cons m rest ih =>
    obtain ⟨k, v⟩ := m
    by_cases hk : k = key
    · subst hk
      simp [insert, find?, h]
    · by_cases ho : k = other
      · subst ho
        simp [insert, find?, hk]
      · simp [insert, find?, hk, ho, ih]

end Members

/-- The member of an object with a name; none for other values. -/
def Value.member? (key : String) : Value → Option Value
  | .object ms => Members.find? key ms
  | _ => none

/-- Whether a value counts as absent: null, false, zero, or empty. -/
def Value.isEmpty : Value → Bool
  | .null => true
  | .bool b => !b
  | .int n => n == 0
  | .float x => x.isZero
  | .string s => s == ""
  | .array items => items.isEmpty
  | .object members => members.isEmpty

end CodeSession.Json
