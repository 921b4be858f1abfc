import CodeSession.Validation.Field

/-! # Messages of a transcript -/

namespace CodeSession

open Validation Json

/-- Who speaks. -/
inductive Role where
  | user
  | agent
  deriving DecidableEq, Repr

/-- The name of a role. -/
def Role.name : Role → String
  | .user => "user"
  | .agent => "agent"

instance : Choice Role where
  title := "Role"
  all := [.user, .agent]
  name := Role.name

/-- An entry of a transcript, its text kept as it is. -/
structure Message where
  role : Role
  content : String
  deriving DecidableEq, Repr

/-- The message that the fields of an object describe. -/
def Message.ofFields (fields : Members) : Checked Message :=
  (Checked.both (required "role" (choice Role) fields) (required "content" text fields)).map
    fun p => ⟨p.1, p.2⟩

end CodeSession
