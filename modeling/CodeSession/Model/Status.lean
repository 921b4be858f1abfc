import CodeSession.Validation.Field

/-!
# The status of an upload

The phases of a batch upload and the moves between them: `IngestPhase.next` lists where each
phase may go.
-/

namespace CodeSession

open Validation Json

/-- The phases of an upload. -/
inductive IngestPhase where
  | idle
  | uploading
  | succeeded
  | failed
  deriving DecidableEq, Repr

namespace IngestPhase

/-- The name of a phase. -/
def name : IngestPhase → String
  | .idle => "idle"
  | .uploading => "uploading"
  | .succeeded => "succeeded"
  | .failed => "failed"

/-- The phases that may follow a phase. -/
def next : IngestPhase → List IngestPhase
  | .idle => [.uploading]
  | .uploading => [.succeeded, .failed]
  | .succeeded => [.idle]
  | .failed => [.idle]

end IngestPhase

instance : Choice IngestPhase where
  title := "IngestPhase"
  all := [.idle, .uploading, .succeeded, .failed]
  name := IngestPhase.name

/-- The status that the banner shows. -/
structure IngestStatus where
  phase : IngestPhase
  message : String
  deriving DecidableEq, Repr

namespace IngestStatus

/-- Nothing to show. -/
def idle : IngestStatus := ⟨.idle, ""⟩

/-- An upload is running. -/
def uploading : IngestStatus := ⟨.uploading, "Uploading..."⟩

/-- The upload succeeded, with the reply of the backend. -/
def succeeded (message : String) : IngestStatus := ⟨.succeeded, message⟩

/-- The upload failed, with what is said about it. -/
def failed (message : String) : IngestStatus := ⟨.failed, message⟩

/-- The status that the fields of an object describe. -/
def ofFields (fields : Members) : Checked IngestStatus :=
  (Checked.both (withDefault "phase" .idle (choice IngestPhase) fields)
    (withDefault "message" "" text fields)).map fun p => ⟨p.1, p.2⟩

end IngestStatus

end CodeSession
