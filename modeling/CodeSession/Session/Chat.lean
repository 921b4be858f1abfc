import CodeSession.Backend.Reply
import CodeSession.Model.Message
import CodeSession.Text.Blank

/-!
# The chat

The transcript, the draft, and the one question that may be under way.

* `Chat.ask` -- a question is taken up unless it is blank or another one is under way
  (`ask_eq_none_iff`): it joins the transcript without the blanks at its ends, and the draft is
  emptied;
* `Chat.hear` -- an answer, or what is said about a trouble of the backend, joins the transcript;
  any other fault ends the question without a message.
-/

namespace CodeSession

open Backend Text

/-- The state of the chat. -/
structure Chat where
  messages : List Message
  draft : String
  pending : Bool
  deriving DecidableEq, Repr

namespace Chat

/-- The first message of a transcript. -/
def welcome : String := "Welcome! Load a project to begin."

/-- The chat at the start, with a greeting unless there is none or it is empty. -/
def start (greeting : Option String) : Chat :=
  match greeting with
  | none => ⟨[], "", false⟩
  | some g => ⟨if g.isEmpty then [] else [⟨.agent, g⟩], "", false⟩

/-- Whether a text is blank. -/
def isBlankText (s : String) : Bool :=
  (strip s).isEmpty

/-- Whether the send button is enabled. -/
def canSend (c : Chat) : Bool :=
  !c.pending && !isBlankText c.draft

/-- The draft changed. -/
def write (draft : String) (c : Chat) : Chat :=
  { c with draft := draft }

/-- Take up a question, the draft if no text is given: the query to send and the chat with the
    question under way. -/
def ask (text : Option String) (c : Chat) : Option (String × Chat) :=
  let query := text.getD c.draft
  if isBlankText query || c.pending then none
  else some (query, ⟨c.messages ++ [⟨.user, strip query⟩], "", true⟩)

/-- A question is refused exactly when it is blank or another one is under way. -/
theorem ask_eq_none_iff {text : Option String} {c : Chat} :
    c.ask text = none ↔ isBlankText (text.getD c.draft) = true ∨ c.pending = true := by
  cases h : isBlankText (text.getD c.draft) <;> simp [ask, h]

/-- The message that a question ends in, if it ends in one. -/
def closing : Except CallTrouble String → Option Message
  | .ok answer => some ⟨.agent, answer⟩
  | .error (.backend t) => some ⟨.agent, "Error: " ++ t.description⟩
  | .error (.fault _) => none

/-- End the question under way. -/
def hear (outcome : Except CallTrouble String) (c : Chat) : Chat :=
  { c with messages := c.messages ++ (closing outcome).toList, pending := false }

/-- The question under way is cancelled. -/
def abandon (c : Chat) : Chat :=
  { c with pending := false }

end Chat

end CodeSession
