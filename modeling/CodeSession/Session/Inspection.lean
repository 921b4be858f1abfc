import CodeSession.Backend.Reply
import CodeSession.Model.Tab

/-!
# The inspection of the store

The snapshot last fetched, with the state of the latest fetch. Fetches are numbered, and only the
outcome of the latest one counts: those of others change nothing (`land_stale`), and no outcome
changes how many fetches were issued (`issued_land`, `issued_abandon`).
-/

namespace CodeSession

open Backend

/-- A snapshot and the number of the fetch that brought it. -/
structure Snapshot where
  fetch : Nat
  records : RecordSet

/-- The state of the inspection; `issued` fetches have been started. -/
structure Inspection where
  snapshot : Option Snapshot
  loading : Bool
  error : Option String
  issued : Nat

namespace Inspection

/-- What is said about a failure that has no description. -/
def unknownFailure : String := "Failed to fetch data"

/-- The placeholder while the latest fetch is under way. -/
def loadingPlaceholder : String := "Loading data..."

/-- The placeholder for an empty store. -/
def emptyPlaceholder : String := "No vectors found. Ingest a project first."

/-- The inspection at the start. -/
def start : Inspection := ⟨none, false, none, 0⟩

/-- Issue a fetch; its number is that of the fetches issued. -/
def issue (i : Inspection) : Inspection :=
  { i with loading := true, error := none, issued := i.issued + 1 }

/-- What the user is told about a trouble. -/
def describe (t : Trouble) : String :=
  if t.description.isEmpty then unknownFailure else t.description

/-- A fetch ends with an outcome, which counts if the fetch is the latest one. -/
def land (number : Nat) (outcome : Except CallTrouble RecordSet) (i : Inspection) : Inspection :=
  if number = i.issued then
    match outcome with
    | .ok records => { i with snapshot := some ⟨number, records⟩, loading := false }
    | .error (.backend t) => { i with error := some (describe t), loading := false }
    | .error (.fault _) => { i with loading := false }
  else i

/-- A fetch under way is cancelled. -/
def abandon (number : Nat) (i : Inspection) : Inspection :=
  if number = i.issued then { i with loading := false } else i

theorem land_stale {number : Nat} {i : Inspection} (h : number ≠ i.issued)
    (outcome : Except CallTrouble RecordSet) : i.land number outcome = i := by
  simp [land, h]

@[simp] theorem issued_land (number : Nat) (outcome : Except CallTrouble RecordSet)
    (i : Inspection) : (i.land number outcome).issued = i.issued := by
  unfold land
  split
  · split <;> rfl
  · rfl

@[simp] theorem issued_abandon (number : Nat) (i : Inspection) :
    (i.abandon number).issued = i.issued := by
  unfold abandon
  split <;> rfl

/-- The records of the snapshot, in order. -/
def rows (i : Inspection) : List Record :=
  (i.snapshot.map fun s => s.records.rows).getD []

/-- Whether there is a table to show. -/
def showTable (i : Inspection) : Bool :=
  i.snapshot.any fun s => 0 < s.records.size

/-- What is shown in place of a table. -/
def placeholder (i : Inspection) : String :=
  if i.loading then loadingPlaceholder else emptyPlaceholder

end Inspection

end CodeSession
