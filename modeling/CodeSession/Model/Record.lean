import CodeSession.Validation.Field

/-!
# Stored records

The contents of the vector store: `Record` is one stored chunk, `RecordSet` a snapshot of all of
them, kept as three lists of equal length.

* `RecordSet.ofFields` -- the snapshot that an object describes;
* `RecordSet.ofPayload` -- the snapshot in a reply of the inspection endpoint: whatever carries
  no identifiers means an empty store, and missing texts or metadata are filled with nulls;
* `RecordSet.length_rows` -- the rows are as many as the identifiers.
-/

namespace CodeSession

open Validation Json

/-! ## 1. Records -/

/-- One stored chunk. -/
structure Record where
  id : String
  document : Option String
  metadata : Option Members
  deriving Repr

/-- The record that the fields of an object describe. -/
def Record.ofFields (fields : Members) : Checked Record :=
  (Checked.both (required "id" text fields)
    (Checked.both (withDefault "document" none (nullable text) fields)
      (withDefault "metadata" none (nullable dictionary) fields))).map
    fun p => ⟨p.1, p.2.1, p.2.2⟩

/-! ## 2. Snapshots -/

/-- A snapshot of the store: position `i` of each list describes the same record. -/
structure RecordSet where
  ids : List String
  documents : List (Option String)
  metadatas : List (Option Members)
  documents_length : documents.length = ids.length
  metadatas_length : metadatas.length = ids.length

namespace RecordSet

/-- The snapshot of an empty store. -/
def empty : RecordSet := ⟨[], [], [], rfl, rfl⟩

instance : Inhabited RecordSet := ⟨empty⟩

/-- How many records a snapshot holds. -/
def size (r : RecordSet) : Nat := r.ids.length

/-- The records, in order. -/
def rows (r : RecordSet) : List Record :=
  List.zipWith (fun id p => ⟨id, p.1, p.2⟩) r.ids (r.documents.zip r.metadatas)

theorem length_rows (r : RecordSet) : r.rows.length = r.size := by
  simp [rows, size, r.documents_length, r.metadatas_length]

/-- The snapshot of three lists, if their lengths agree. -/
def ofLists (ids : List String) (documents : List (Option String))
    (metadatas : List (Option Members)) : Checked RecordSet :=
  if hd : documents.length = ids.length then
    if hm : metadatas.length = ids.length then .ok ⟨ids, documents, metadatas, hd, hm⟩
    else .refuse (.misaligned ids.length documents.length metadatas.length)
  else .refuse (.misaligned ids.length documents.length metadatas.length)

/-- The snapshot that the fields of an object describe. The lengths count only if every field is
    in order. -/
def ofFields (fields : Members) : Checked RecordSet :=
  match Checked.both (withDefault "ids" [] (listOf text) fields)
    (Checked.both (withDefault "documents" [] (listOf (nullable text)) fields)
      (withDefault "metadatas" [] (listOf (nullable dictionary)) fields)) with
  | .ok (ids, documents, metadatas) => ofLists ids documents metadatas
  | .error issues => .error issues

/-- The number of items, none for what is no list. -/
def itemCount : Value → Nat
  | .array vs => vs.length
  | _ => 0

/-- A member of a payload, or a list of nulls in its place. -/
def orNulls (payload : Members) (name : String) (count : Nat) : Value :=
  match Members.find? name payload with
  | none | some .null => .array (List.replicate count .null)
  | some v => v

/-- The snapshot in a reply of the inspection endpoint. -/
def ofPayload : Value → Checked RecordSet
  | .object payload =>
    match Members.find? "ids" payload with
    | none => .ok empty
    | some ids =>
      if ids.isEmpty then .ok empty
      else ofFields [("ids", ids), ("documents", orNulls payload "documents" (itemCount ids)),
        ("metadatas", orNulls payload "metadatas" (itemCount ids))]
  | _ => .ok empty

end RecordSet

end CodeSession
