import CodeSession.Backend.Reply
import CodeSession.Loop.Basic
import CodeSession.Model.SelectedFile
import CodeSession.Model.Status

/-!
# The ingestion

The status of the upload, the files selected for it, and the task that returns to the chat after
one has succeeded. The status moves only along `IngestPhase.next` (`Ingest.set?_eq_ok_iff`), and
each move leaves its phase in the history of the ingestion.
-/

namespace CodeSession

open Backend

/-- The state of the ingestion, with the phases assigned so far, in order. -/
structure Ingest where
  status : IngestStatus
  selection : List SelectedFile
  navigation : Option TaskId
  assigned : List IngestPhase
  deriving DecidableEq, Repr

/-- A move that the phases do not allow. -/
structure BadMove where
  source : IngestPhase
  target : IngestPhase
  deriving DecidableEq, Repr

/-- What is said about a move that is not allowed. -/
def BadMove.message (m : BadMove) : String :=
  "Cannot go from " ++ m.source.name ++ " to " ++ m.target.name

namespace Ingest

/-- The ingestion at the start. -/
def start : Ingest := ⟨.idle, [], none, []⟩

/-- Whether a folder may be chosen: no upload is running. -/
def canChoose (i : Ingest) : Bool :=
  i.status.phase != .uploading

/-- Assign a status. -/
def assign (s : IngestStatus) (i : Ingest) : Ingest :=
  { i with status := s, assigned := i.assigned ++ [s.phase] }

@[simp] theorem status_assign (s : IngestStatus) (i : Ingest) : (i.assign s).status = s := rfl

@[simp] theorem assigned_assign (s : IngestStatus) (i : Ingest) :
    (i.assign s).assigned = i.assigned ++ [s.phase] := rfl

/-- Move to a status. -/
def set? (s : IngestStatus) (i : Ingest) : Except BadMove Ingest :=
  if i.status.phase.next.contains s.phase then .ok (i.assign s)
  else .error ⟨i.status.phase, s.phase⟩

theorem set?_eq_ok_iff {s : IngestStatus} {i j : Ingest} :
    i.set? s = .ok j ↔ s.phase ∈ i.status.phase.next ∧ j = i.assign s := by
  unfold set?
  split
  · rename_i h
    rw [List.contains_iff_mem] at h
    simp [h, eq_comm]
  · rename_i h
    rw [List.contains_iff_mem] at h
    simp [h]

/-- Dismiss the banner of an upload that has ended. -/
def acknowledge (i : Ingest) : Ingest :=
  match i.status.phase with
  | .succeeded | .failed => i.assign .idle
  | _ => i

/-- Select files. -/
def select (files : List SelectedFile) (i : Ingest) : Ingest :=
  { i with selection := files }

/-- Drop the selection. -/
def clear (i : Ingest) : Ingest :=
  i.select []

/-- The way to the start of an upload: no return to the chat is under way any more, and the banner
    is dismissed. -/
def prepare (i : Ingest) : Ingest :=
  { i.acknowledge with navigation := none }

end Ingest

end CodeSession
