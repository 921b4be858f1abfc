import CodeSession.Choice
import CodeSession.Validation.Issue

/-!
# Checking fields

Readers that turn JSON values into members of types or list what is wrong. Readers of several
parts look at all of them before they answer, so no issue hides another:

* `Checked.both` -- two answers at once;
* `listOf`, `nullable` -- the items of a list, a value or null;
* `required`, `withDefault` -- a field of an object.
-/

namespace CodeSession.Validation

open Json (Value Members)

/-- A value, or all that is wrong with it. -/
abbrev Checked (α : Type) := Except (List Issue) α

/-! ## 1. Answers -/

namespace Checked

/-- A refusal for one cause. -/
def refuse {α : Type} (c : Cause) : Checked α :=
  .error [⟨[], c⟩]

/-- The answer about a part, told of the whole. -/
def under {α : Type} (s : Step) : Checked α → Checked α
  | .ok a => .ok a
  | .error is => .error (is.map fun i => { i with path := s :: i.path })

/-- Two answers at once; the issues of both, in order. -/
def both {α β : Type} : Checked α → Checked β → Checked (α × β)
  | .ok a, .ok b => .ok (a, b)
  | .ok _, .error js => .error js
  | .error is, .ok _ => .error is
  | .error is, .error js => .error (is ++ js)

theorem both_eq_ok_iff {α β : Type} {a : Checked α} {b : Checked β} {x : α} {y : β} :
    both a b = .ok (x, y) ↔ a = .ok x ∧ b = .ok y := by
  cases a <;> cases b <;> simp [both]

end Checked

/-! ## 2. Plain values -/

/-- A text. -/
def text : Value → Checked String
  | .string s => .ok s
  | _ => .refuse .notText

/-- A text that is not empty. -/
def someText : Value → Checked String
  | .string s => if s.isEmpty then .refuse .emptyText else .ok s
  | _ => .refuse .notText

/-- An object. -/
def dictionary : Value → Checked Members
  | .object ms => .ok ms
  | _ => .refuse .notDictionary

/-- A member of a named choice. -/
def choice (α : Type) [Choice α] (v : Value) : Checked α :=
  match Choice.ofValue? v with
  | some a => .ok a
  | none => .refuse (.notAChoice ((Choice.all : List α).map Choice.name))

/-- A value or null. -/
def nullable {α : Type} (read : Value → Checked α) : Value → Checked (Option α)
  | .null => .ok none
  | v => (read v).map some

/-- The items from a position on. -/
def itemsFrom {α : Type} (read : Value → Checked α) : Nat → List Value → Checked (List α)
  | _, [] => .ok []
  | i, v :: vs =>
    (Checked.both ((read v).under (.index i)) (itemsFrom read (i + 1) vs)).map fun p => p.1 :: p.2

/-- A list. -/
def listOf {α : Type} (read : Value → Checked α) : Value → Checked (List α)
  | .array vs => itemsFrom read 0 vs
  | _ => .refuse .notList

/-! ## 3. Fields -/

/-- A field that must be there. -/
def required {α : Type} (name : String) (read : Value → Checked α) (fields : Members) :
    Checked α :=
  match Members.find? name fields with
  | some v => (read v).under (.field name)
  | none => (Checked.refuse .missing).under (.field name)

/-- A field with a value for when it is not there. -/
def withDefault {α : Type} (name : String) (default : α) (read : Value → Checked α)
    (fields : Members) : Checked α :=
  match Members.find? name fields with
  | some v => (read v).under (.field name)
  | none => .ok default

end CodeSession.Validation
