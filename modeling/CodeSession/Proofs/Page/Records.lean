import CodeSession.Page.Content
import CodeSession.Proofs.Json.Printing
import CodeSession.Proofs.Model.Payload
import CodeSession.Proofs.Session.Fetching

/-!
# Records from the wire to the table

A good reply that describes records brings these records, and they are what the page shows.

* `Members.Describes` -- an object that describes records: their identifiers, texts and metadata in
  order, each as an array; an array of nulls alone may be left out;
* `ofPayload_of_describes` -- such an object is a snapshot with these records for its rows;
* `parse?_metadata` -- the text that is shown for the metadata of a record is read back as them;
* `records_of_reply` -- the whole way, from the bytes of a reply to the rows of the table.
-/

namespace CodeSession

open Text Validation Json Backend

/-! ## 1. Payloads -/

/-- The text of a record as it stands in a payload. -/
def Record.documentValue (r : Record) : Value :=
  (r.document.map Value.string).getD .null

/-- The metadata of a record as they stand in a payload. -/
def Record.metadataValue (r : Record) : Value :=
  (r.metadata.map Value.object).getD .null

namespace Json.Members

/-- An object that describes records. -/
structure Describes (payload : Members) (records : List Record) : Prop where
  ids : find? "ids" payload = some (.array (records.map fun r => .string r.id))
  documents : payload.HasColumn "documents" (records.map Record.documentValue)
  metadatas : payload.HasColumn "metadatas" (records.map Record.metadataValue)

theorem mem_of_find? {name : String} {v : Value} {ms : Members} (h : find? name ms = some v) :
    (name, v) ∈ ms := by
  induction ms with
  | nil => cases h
  | cons m ms ih =>
    obtain ⟨k, w⟩ := m
    rw [find?] at h
    split at h
    · rename_i hk
      cases h
      exact hk ▸ List.mem_cons_self
    · exact List.mem_cons_of_mem _ (ih h)

end Json.Members

/-! ## 2. Snapshots -/

namespace RecordSet

/-- The snapshot of records. -/
def ofRecords (records : List Record) : RecordSet :=
  ⟨records.map Record.id, records.map Record.document, records.map Record.metadata,
    by rw [List.length_map, List.length_map], by rw [List.length_map, List.length_map]⟩

theorem rows_ofRecords (records : List Record) : (ofRecords records).rows = records := by
  show List.zipWith (fun id p => (⟨id, p.1, p.2⟩ : Record)) (records.map Record.id)
    ((records.map Record.document).zip (records.map Record.metadata)) = records
  induction records with
  | nil => rfl
  | cons r records ih =>
    rw [List.map_cons, List.map_cons, List.map_cons, List.zip_cons_cons, List.zipWith_cons_cons, ih]

/-- A payload that describes records holds their snapshot. -/
theorem holds_of_describes {payload : Members} {records : List Record}
    (h : payload.Describes records) : payload.Holds (ofRecords records) := by
  have hdocuments : (ofRecords records).documents.map (Value.orNull .string) =
      records.map Record.documentValue := by
    refine List.map_map.trans (List.map_congr_left fun r _ => ?_)
    unfold Record.documentValue
    cases hd : r.document <;> simp [hd, Value.orNull]
  have hmetadatas : (ofRecords records).metadatas.map (Value.orNull .object) =
      records.map Record.metadataValue := by
    refine List.map_map.trans (List.map_congr_left fun r _ => ?_)
    unfold Record.metadataValue
    cases hm : r.metadata <;> simp [hm, Value.orNull]
  refine ⟨h.ids.trans ?_, hdocuments ▸ h.documents, hmetadatas ▸ h.metadatas⟩
  rw [ofRecords, List.map_map]
  rfl

/-- **A payload that describes records is their snapshot.** -/
theorem ofPayload_of_describes {payload : Members} {records : List Record}
    (h : payload.Describes records) : ofPayload (.object payload) = .ok (ofRecords records) := by
  cases records with
  | nil =>
    refine ofPayload_of_isVacant fun payload' hp ids hids => ?_
    cases hp
    rw [h.ids] at hids
    cases hids
    exact .emptyArray
  | cons r records =>
    exact (ofPayload_eq_ok_iff h.ids (fun hfalsy => nomatch hfalsy)).mpr (holds_of_describes h)

end RecordSet

/-! ## 3. Metadata -/

/-- The metadata of records that are described in a text are plain. -/
theorem plain_metadataValue {d : Nat} {payload : Members} {records : List Record} {cs : List Char}
    (htext : IsText d (.object payload) cs) (h : payload.Describes records) {r : Record}
    (hr : r ∈ records) : r.metadataValue.Plain := by
  obtain ⟨hplain, _⟩ := htext.plain
  have hmem : r.metadataValue ∈ records.map Record.metadataValue := List.mem_map_of_mem hr
  rcases h.metadatas with hfind | ⟨_, hnull⟩
  · have hitems := plainMembers_iff.mp hplain _ (Members.mem_of_find? hfind)
    exact plainItems_iff.mp hitems _ hmem
  · rw [hnull _ hmem]
    trivial

/-- **The text that is shown for the metadata of a record is read back as them.** -/
theorem parse?_metadata {d : Nat} {payload : Members} {records : List Record} {cs : List Char}
    (htext : IsText d (.object payload) cs) (h : payload.Describes records) {r : Record}
    (hr : r ∈ records) : parse? (Page.Row.of r).metadata.toList = some r.metadataValue :=
  parse?_toText (plain_metadataValue htext h hr)

/-! ## 4. The table -/

namespace Session

/-- What the inspection comes to by the end of a fetch. -/
theorem inspection_of_fetchEnd? {s : Session} (ht : Tidy s) {m : Move} {e : FetchEnd}
    (he : s.fetchEnd? m = some e) :
    (s.step m).state.inspection = s.state.inspection.resolve e.number e.fate ∧
      e.isLatest = (e.number == s.state.inspection.issued) := by
  have hcourse := course_step ht m
  rw [he] at hcourse
  cases hcourse with
  | ended t n fate hm htn hgone hother hi hland => exact ⟨hi, rfl⟩

end Session

namespace Inspection

/-- The latest fetch brings a snapshot. -/
theorem land_ok (snapshot : RecordSet) (i : Inspection) :
    i.land i.issued (.ok snapshot) =
      { i with snapshot := some ⟨i.issued, snapshot⟩, loading := false } :=
  if_pos rfl

/-- A snapshot that holds records is shown as a table. -/
theorem showTable_eq {i : Inspection} {held : Snapshot} (h : i.snapshot = some held) :
    i.showTable = !i.rows.isEmpty := by
  have hsize : held.records.size = held.records.rows.length := (RecordSet.length_rows _).symm
  rw [showTable, rows, h, Option.any_some, Option.map_some, Option.getD_some, hsize]
  cases held.records.rows <;> rfl

end Inspection

namespace Page

/-- The records that are held are shown one a row, in order. -/
theorem inspectView_of_rows {i : Inspection} {held : Snapshot} (h : i.snapshot = some held)
    (hrows : i.rows ≠ []) : InspectView.of i = ⟨i.loading, .table (i.rows.map Row.of)⟩ := by
  have hempty : i.rows.isEmpty = false := by
    rw [← Bool.not_eq_true]
    exact fun he => hrows (List.isEmpty_iff.mp he)
  rw [InspectView.of, if_pos (by rw [Inspection.showTable_eq h, hempty]; rfl)]

open Session in
/-- **Records arrive from the wire in the table.** A good reply whose body is, in UTF-8, a text of
    an object that describes records, nested no deeper than the reader goes, makes the fetch a snapshot
    with these records for its rows. Once
    a session has taken this reply for its latest fetch, it holds these records, and the page shows
    them one a row, in order, with the identifier, the text and the metadata of each; the text that
    is shown for the metadata is read back as them. -/
theorem records_of_reply {c : Client} (hopen : c.closed = false)
    (haddress : (c.address .records).isOk = true) {status : Nat}
    (hstatus : 200 ≤ status ∧ status < 300) (reading : Reading) {payload : Members}
    {records : List Record} (hpayload : payload.Describes records) {text : String}
    (htext : IsText reading.depth (.object payload) text.toList) :
    let reply := Reply.response status (Utf8.encode text) reading
    let rows := records.map fun r => Row.mk r.id (r.document.getD "") r.metadataValue.toText
    (∃ snapshot, (c.call .records reply).2 = .ok (.records snapshot) ∧ snapshot.rows = records) ∧
    (∀ r ∈ records, parse? r.metadataValue.toText.toList = some r.metadataValue) ∧
    ∀ client delay greeting files ms m number,
      let s := (Session.opened client delay greeting files).play ms
      s.fetchEnd? m = some ⟨number, .landed reply.records, true⟩ →
      let w := (s.step m).state
      w.inspection.rows = records ∧
      (records ≠ [] → InspectView.of w.inspection = ⟨false, .table rows⟩ ∧
        (w.tabs.active = .inspect → Content.render w = .inspect ⟨false, .table rows⟩)) := by
  intro reply rows
  have hrecords : reply.records = .ok (RecordSet.ofRecords records) := by
    rw [Reply.records_of_good hstatus, Reply.recordsOf, decode_of_isText htext]
    dsimp only
    rw [RecordSet.ofPayload_of_describes hpayload]
  refine ⟨⟨_, ?_, RecordSet.rows_ofRecords records⟩,
    fun r hr => parse?_metadata htext hpayload hr, ?_⟩
  · rw [Client.call_of_sends hopen ⟨.records, rfl, haddress⟩, Ask.answer, hrecords]
    rfl
  intro client delay greeting files ms m number s hend w
  obtain ⟨hi, hlatest⟩ :=
    inspection_of_fetchEnd? (tidy_play client delay greeting files ms) hend
  have hland : w.inspection = s.state.inspection.land number reply.records := hi
  have hnumber : number = s.state.inspection.issued := beq_iff_eq.mp hlatest.symm
  rw [hrecords, hnumber, Inspection.land_ok] at hland
  have hrows : w.inspection.rows = records := by
    rw [hland]
    exact RecordSet.rows_ofRecords records
  refine ⟨hrows, fun hne => ?_⟩
  have hview : InspectView.of w.inspection = ⟨false, .table rows⟩ := by
    rw [inspectView_of_rows (by rw [hland]) (hrows ▸ hne), hrows, hland]
    rfl
  exact ⟨hview, fun htab => by rw [Content.render, htab, hview]⟩

/-- A part of a file, and a record of which the identifier alone is known. -/
def twoRecords : List Record :=
  [⟨"a", some "größe = \"7\"", some [("path", .string "a.py"), ("line", .int 7)]⟩,
    ⟨"b", none, none⟩]

/-- The payload with both; the identifiers alone are not left out. -/
def twoRecordsPayload : Members :=
  [("ids", .array [.string "a", .string "b"]),
   ("metadatas", .array [.object [("path", .string "a.py"), ("line", .int 7)], .null]),
   ("documents", .array [.string "größe = \"7\"", .null])]

/-- A session asks for its records, and takes a reply. -/
theorem fetchEnd?_of_answer (reply : Reply) :
    (Session.sample.play [.switch (.string "inspect"), .turn, .answer 0 reply]).fetchEnd? .turn =
      some ⟨1, .landed reply.records, true⟩ :=
  rfl

/-- They arrive, and the page of a session that has asked for them holds them. -/
theorem records_of_twoRecords :
    let reply := Reply.common 200 (Utf8.encode (Value.object twoRecordsPayload).toText) none
    twoRecordsPayload.Describes twoRecords ∧ (Value.object twoRecordsPayload).Plain ∧
    (∃ snapshot, (Client.nearby.call .records reply).2 = .ok (.records snapshot) ∧
      snapshot.rows = twoRecords) ∧
    ((Session.sample.play [.switch (.string "inspect"), .turn, .answer 0 reply]).step
      .turn).state.inspection.rows = twoRecords := by
  have hpayload : twoRecordsPayload.Describes twoRecords := ⟨rfl, .inl rfl, .inl rfl⟩
  have hplain : (Value.object twoRecordsPayload).Plain := by
    have hseven : (7 : Int).natAbs < 10 ^ Decimal.digitLimit :=
      Nat.lt_of_lt_of_le (by decide) (Nat.pow_le_pow_right (by decide) (by decide : 1 ≤ _))
    simpa [twoRecordsPayload, Value.Plain, PlainItems, PlainMembers] using hseven
  obtain ⟨reading, hreply, hdepth⟩ : ∃ reading : Reading,
      Reply.common 200 (Utf8.encode (Value.object twoRecordsPayload).toText) none =
        .response 200 (Utf8.encode (Value.object twoRecordsPayload).toText) reading ∧
      (Value.object twoRecordsPayload).nesting ≤ reading.depth :=
    ⟨_, rfl, (by decide : (Value.object twoRecordsPayload).nesting ≤ Reply.commonDepth)⟩
  have harrive := records_of_reply (c := Client.nearby) rfl (by decide +kernel)
    (by decide : 200 ≤ 200 ∧ 200 < 300) reading hpayload ((isText_toText hplain).mono hdepth)
  rw [← hreply] at harrive
  -- the session is run on a reply of which nothing is evaluated
  generalize Reply.common 200 (Utf8.encode (Value.object twoRecordsPayload).toText) none =
    reply at harrive ⊢
  obtain ⟨hcall, _, hrun⟩ := harrive
  exact ⟨hpayload, hplain, hcall, (hrun _ _ _ _ _ .turn 1 (fetchEnd?_of_answer reply)).1⟩

end Page

end CodeSession
