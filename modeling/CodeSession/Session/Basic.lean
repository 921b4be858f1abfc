import CodeSession.Session.Host

/-!
# Sessions

A session is a loop whose tasks are its calls. Operations of the user run at once (`switchTab`,
`setDraft`, `acknowledge`, …) or launch a call (`launch`); replies and folders reach it through
its host.
-/

namespace CodeSession

open Session

/-- A session. -/
abbrev Session := Loop World Call Result Failure

namespace Session

/-- An operation on the state, without orders. -/
def update (f : World → World) (s : Session) : Session :=
  { s with state := f s.state }

/-- Switch to the tab that a value names, and what ended the switch early. -/
def activate (target : Json.Value) (s : Session) : Session × Option SwitchTrouble :=
  (s.perform fun facts w => let r := switchTab facts.closed target w; (r.1, r.2.1),
    (switchTab s.closed target s.state).2.2)

/-- Set the draft. -/
def setDraft (text : String) (s : Session) : Session :=
  s.update fun w => { w with chat := w.chat.write text }

/-- Select files. -/
def select (files : List SelectedFile) (s : Session) : Session :=
  s.update fun w => { w with ingest := w.ingest.select files }

/-- Dismiss the banner of an upload that has ended. -/
def acknowledge (s : Session) : Session :=
  s.update fun w => { w with ingest := w.ingest.acknowledge }

/-- Move to a status. -/
def setStatus (status : IngestStatus) (s : Session) : Session × Option BadMove :=
  match s.state.ingest.set? status with
  | .ok ingest => (s.update fun w => { w with ingest := ingest }, none)
  | .error m => (s, some m)

/-- Prepare replies for an endpoint. -/
def prepare (e : Backend.Endpoint) (p : Backend.Prepared) (s : Session) : Session :=
  s.update fun w => { w with client := w.client.prepare e p }

/-- Hold folder reads, or let them go. -/
def holdReads (held : Bool) (s : Session) : Session :=
  s.update fun w => { w with readsHeld := held }

/-- Run until nothing is left to do. -/
def settle (s : Session) : Session :=
  Loop.settle behaviour Host.self.surroundings s

/-- Move the clock on. -/
def advance (ticks : Nat) (s : Session) : Session :=
  Loop.advance behaviour Host.self.surroundings ticks s

/-- Whether the task of the last return to the chat has yet to end. -/
def isNavigating (s : Session) : Bool :=
  s.state.ingest.navigation.any fun t => (s.tasks[t]?).any fun task => !task.hasEnded

end Session

end CodeSession
