import CodeSession.Backend.Client
import CodeSession.Folder.Selection
import CodeSession.Session.Chat
import CodeSession.Session.Ingest
import CodeSession.Session.Inspection
import CodeSession.Tabs

/-!
# The state of a session

The parts of a session side by side, and the calls that run on it. A call is a task of the
session's loop: its value says how far it has come, and one that waits for a reply or a folder
holds what has arrived.
-/

namespace CodeSession.Session

open Backend Folder

/-! ## 1. State -/

/-- The state that the calls of a session share. A folder that is to be read while `readsHeld` is
    read only when asked for. -/
structure World where
  client : Client
  tabs : Tabs
  chat : Chat
  inspection : Inspection
  ingest : Ingest
  delay : Binary64
  files : FileSystem
  readsHeld : Bool

/-- The listener that starts a fetch when the inspection is shown. -/
def viewer : Listener := ⟨"inspection", .record⟩

/-- Seconds before the return to the chat, unless set otherwise. -/
def defaultDelay : Binary64 := .finite false (3 * Nat.pow 2 1073)

/-- The state at the start. -/
def World.start (client : Client) (delay : Binary64) (greeting : Option String)
    (files : FileSystem) : World :=
  { client := client
    tabs := (Tabs.start .chat).subscribe viewer
    chat := Chat.start greeting
    inspection := Inspection.start
    ingest := Ingest.start
    delay := delay
    files := files
    readsHeld := false }

/-! ## 2. Calls -/

/-- A request under way, and its reply once it has arrived. -/
structure Exchange where
  request : Nat
  reply : Option Reply
  deriving DecidableEq, Repr

/-- A selection, or why there is none. -/
abbrev Selected := Except SelectionTrouble (List SelectedFile)

/-- The calls of a session, each as far as it has come. -/
inductive Call where
  | send (text : Option String)
  | sending (x : Exchange)
  | upload (files : List SelectedFile)
  | uploading (x : Exchange)
  | choose (path : String)
  | reading (path : String) (held : Bool) (read : Option Selected)
  | fetch (number : Nat)
  | fetching (number : Nat) (x : Exchange)
  | navigate
  | navigating
  | idle
  | close
  | closing

namespace Call

/-- The request that a call waits for a reply to. -/
def request? : Call → Option Nat
  | .sending ⟨n, none⟩ => some n
  | .uploading ⟨n, none⟩ => some n
  | .fetching _ ⟨n, none⟩ => some n
  | _ => none

/-- A call that takes up a reply. -/
def take (r : Reply) : Call → Call
  | .sending x => .sending { x with reply := some r }
  | .uploading x => .uploading { x with reply := some r }
  | .fetching number x => .fetching number { x with reply := some r }
  | c => c

/-- The folder path that a call waits to be read, and whether the reading is held. -/
def path? : Call → Option (String × Bool)
  | .reading path held none => some (path, held)
  | _ => none

/-- A call that takes up a selection. -/
def takeFiles (s : Selected) : Call → Call
  | .reading path held _ => .reading path held (some s)
  | c => c

end Call

/-! ## 3. Failures -/

/-- Why a call or an operation fails. -/
inductive Failure where
  | fault (f : Fault)
  | folder (t : SelectionTrouble)
  | move (m : BadMove)
  | switch (t : SwitchTrouble)

/-- What is said about a failure. -/
def Failure.message : Failure → String
  | .fault f => f.message
  | .folder t => t.message
  | .move m => m.message
  | .switch t => t.message

/-- What a call returns: for sends and uploads, whether a request was issued. -/
abbrev Result := Option Bool

end CodeSession.Session
