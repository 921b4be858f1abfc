import CodeSession.Session.Behaviour

/-!
# What reaches a session from outside

Replies to requests and folders that are read reach the calls that wait for them. The loop may be
the session's own or that of a page around it: a `Host` says where the session's state and calls
are in a loop.
-/

namespace CodeSession.Session

open Backend Folder

/-- Where the state and the calls of a session are in a loop. -/
structure Host (σ κ : Type) where
  world : σ → World
  call : κ → Call
  onCall : (Call → Call) → κ → κ

/-- A session's own loop. -/
def Host.self : Host World Call := ⟨id, id, id⟩

namespace Host

variable {σ κ ρ ε : Type}

/-- The calls that wait for a reply, with the numbers of their requests. -/
def outstanding (h : Host σ κ) (l : Loop σ κ ρ ε) : List (TaskId × Nat) :=
  l.awaiting fun k => (h.call k).request?

/-- The numbers of the open requests. -/
def openRequests (h : Host σ κ) (l : Loop σ κ ρ ε) : List Nat :=
  (h.outstanding l).map (·.2)

/-- Give a reply to a request; none if the request is not open. -/
def reply? (h : Host σ κ) (number : Nat) (r : Reply) (l : Loop σ κ ρ ε) :
    Option (Loop σ κ ρ ε) :=
  ((h.outstanding l).find? fun p => p.2 == number).map fun p => l.signal p.1 (h.onCall (Call.take r))

/-- The calls that wait for a folder to be read, with its path. -/
def reads (h : Host σ κ) (held : Bool) (l : Loop σ κ ρ ε) : List (TaskId × String) :=
  l.awaiting fun k => match (h.call k).path? with
    | some (path, isHeld) => if isHeld == held then some path else none
    | none => none

/-- Read the folder that has waited longest, of those that are held or of the others; none if none
    waits. -/
def read? (h : Host σ κ) (held : Bool) (l : Loop σ κ ρ ε) : Option (Loop σ κ ρ ε) :=
  (h.reads held l).head?.map fun p =>
    l.signal p.1 (h.onCall (Call.takeFiles ((h.world l.state).files.collect p.2)))

/-- What the surroundings do when a loop has nothing left to do: a folder is read whose reading is
    not held. -/
def surroundings (h : Host σ κ) (l : Loop σ κ ρ ε) : Option (Loop σ κ ρ ε) :=
  h.read? false l

end Host

end CodeSession.Session
