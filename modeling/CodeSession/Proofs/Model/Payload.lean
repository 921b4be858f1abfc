import CodeSession.Proofs.Backend.Outcome

/-!
# Which payloads are snapshots

The format of the payloads that the inspection endpoint may answer with, told without the readers,
and that `RecordSet.ofPayload` accepts just this format and lists all that departs from it.

* `Recognises` -- a reader of items that accepts what a writer writes and has one cause to refuse;
* `Value.IsVacant` -- a payload that carries no identifiers: an empty store, whatever else it holds;
* `Members.Holds` -- a payload that holds the three lists of a snapshot;
* `Members.elementIssues` -- what is wrong with the parts of a payload, field by field;
* `ofPayload_exact` -- what every payload comes to, and what the rows of a snapshot are.
-/

namespace CodeSession

open Json

/-! ## 1. Readers of items -/

namespace Json.Value

/-- A text. -/
def isText : Value → Bool
  | .string _ => true
  | _ => false

/-- An object. -/
def isObject : Value → Bool
  | .object _ => true
  | _ => false

/-- Null, or a value of a kind. -/
def isNullOr (fits : Value → Bool) : Value → Bool
  | .null => true
  | v => fits v

/-- A value, or null for none. -/
def orNull {α : Type} (write : α → Value) : Option α → Value
  | none => .null
  | some a => write a

end Json.Value

namespace Validation

/-- All that is wrong with a value; nothing if it is accepted. -/
def issuesOf {α : Type} : Checked α → List Issue
  | .ok _ => []
  | .error issues => issues

/-- An issue of a part, told of the whole. -/
def Issue.at (s : Step) (i : Issue) : Issue :=
  { i with path := s :: i.path }

/-- The items of a list that do not fit, each with its position. -/
def misfits (fits : Value → Bool) (c : Cause) (vs : List Value) (start : Nat) : List Issue :=
  ((vs.zipIdx start).filter fun p => !fits p.1).map fun p => ⟨[.index p.2], c⟩

/-- A reader of items: it accepts what is written of some `x`, which it gives back; all else does
    not fit, for one cause. -/
structure Recognises {α : Type} (read : Value → Checked α) (write : α → Value)
    (fits : Value → Bool) (c : Cause) : Prop where
  ok_iff : ∀ v x, read v = .ok x ↔ v = write x
  issues : ∀ v, issuesOf (read v) = if fits v then [] else [⟨[], c⟩]

section Answers

variable {α β : Type}

theorem issuesOf_both (a : Checked α) (b : Checked β) :
    issuesOf (Checked.both a b) = issuesOf a ++ issuesOf b := by
  cases a <;> cases b <;> simp [Checked.both, issuesOf]

theorem issuesOf_map (f : α → β) (a : Checked α) : issuesOf (a.map f) = issuesOf a := by
  cases a <;> rfl

theorem issuesOf_under (s : Step) (a : Checked α) :
    issuesOf (a.under s) = (issuesOf a).map (Issue.at s) := by
  cases a <;> rfl

theorem under_eq_ok_iff {s : Step} {a : Checked α} {x : α} : a.under s = .ok x ↔ a = .ok x := by
  cases a <;> simp [Checked.under]

end Answers

theorem recognises_text : Recognises text .string Value.isText .notText where
  ok_iff v x := by cases v <;> simp [text, Checked.refuse]
  issues v := by cases v <;> rfl

theorem recognises_dictionary :
    Recognises dictionary .object Value.isObject .notDictionary where
  ok_iff v x := by cases v <;> simp [dictionary, Checked.refuse]
  issues v := by cases v <;> rfl

section Readers

variable {α : Type} {read : Value → Checked α} {write : α → Value} {fits : Value → Bool}
  {c : Cause} (h : Recognises read write fits c)

include h

theorem Recognises.nullable (hnull : ∀ x, write x ≠ .null) :
    Recognises (nullable read) (Value.orNull write) (Value.isNullOr fits) c where
  ok_iff v x := by
    have hsome : ∀ v, (read v).map some = .ok x ↔ ∃ a, v = write a ∧ some a = x := by
      intro v
      constructor
      · intro hv
        cases hread : read v with
        | ok a => exact ⟨a, (h.ok_iff v a).mp hread, by simpa [hread, Except.map] using hv⟩
        | error issues => simp [hread, Except.map] at hv
      · rintro ⟨a, hv, rfl⟩
        rw [(h.ok_iff v a).mpr hv]
        rfl
    cases x with
    | none =>
      cases v with
      | null => exact ⟨fun _ => rfl, fun _ => rfl⟩
      | _ =>
        exact (hsome _).trans ⟨fun ⟨a, _, ha⟩ => (nomatch ha), fun hv => (nomatch hv)⟩
    | some a =>
      cases v with
      | null =>
        refine ⟨fun hv => ?_, fun hv => absurd hv.symm (hnull a)⟩
        simp [Validation.nullable] at hv
      | _ =>
        refine (hsome _).trans ⟨?_, fun hv => ⟨a, hv, rfl⟩⟩
        rintro ⟨b, hv, hb⟩
        cases hb
        exact hv
  issues v := by
    cases v with
    | null => rfl
    | _ => exact (issuesOf_map _ _).trans (h.issues _)

theorem Recognises.itemsFrom_eq_ok_iff (vs : List Value) (i : Nat) (xs : List α) :
    itemsFrom read i vs = .ok xs ↔ vs = xs.map write := by
  induction vs generalizing i xs with
  | nil => cases xs <;> simp [itemsFrom]
  | cons v vs ih =>
    have hboth : itemsFrom read i (v :: vs) = .ok xs ↔
        ∃ y ys, read v = .ok y ∧ itemsFrom read (i + 1) vs = .ok ys ∧ y :: ys = xs := by
      rw [itemsFrom]
      constructor
      · intro hmap
        cases hb : Checked.both ((read v).under (.index i)) (itemsFrom read (i + 1) vs) with
        | ok p =>
          obtain ⟨hy, hys⟩ := Checked.both_eq_ok_iff.mp hb
          exact ⟨p.1, p.2, under_eq_ok_iff.mp hy, hys, by simpa [hb, Except.map] using hmap⟩
        | error issues => simp [hb, Except.map] at hmap
      · rintro ⟨y, ys, hy, hys, rfl⟩
        rw [Checked.both_eq_ok_iff.mpr ⟨under_eq_ok_iff.mpr hy, hys⟩]
        rfl
    rw [hboth]
    constructor
    · rintro ⟨y, ys, hy, hys, rfl⟩
      rw [List.map_cons, (h.ok_iff v y).mp hy, (ih (i + 1) ys).mp hys]
    · intro hvs
      cases xs with
      | nil => cases hvs
      | cons y ys =>
        obtain ⟨hy, hys⟩ := List.cons.inj hvs
        exact ⟨y, ys, (h.ok_iff v y).mpr hy, (ih (i + 1) ys).mpr hys, rfl⟩

/-- **A list is accepted just as it is written**, item by item. -/
theorem Recognises.listOf_eq_ok_iff (v : Value) (xs : List α) :
    listOf read v = .ok xs ↔ v = .array (xs.map write) := by
  cases v with
  | array vs => exact (h.itemsFrom_eq_ok_iff vs 0 xs).trans ⟨congrArg _, Value.array.inj⟩
  | _ => exact ⟨fun hv => (nomatch hv), fun hv => (nomatch hv)⟩

theorem Recognises.issuesOf_itemsFrom (vs : List Value) (i : Nat) :
    issuesOf (itemsFrom read i vs) = misfits fits c vs i := by
  induction vs generalizing i with
  | nil => rfl
  | cons v vs ih =>
    rw [itemsFrom, issuesOf_map, issuesOf_both, issuesOf_under, h.issues, ih]
    cases hv : fits v <;> simp [misfits, hv, Issue.at]

theorem Recognises.issuesOf_listOf (vs : List Value) :
    issuesOf (listOf read (.array vs)) = misfits fits c vs 0 :=
  h.issuesOf_itemsFrom vs 0

end Readers

end Validation

/-! ## 2. The format -/

namespace Json

/-- The values that count as absent. -/
inductive Value.IsFalsy : Value → Prop
  | null : IsFalsy .null
  | false : IsFalsy (.bool Bool.false)
  | zero : IsFalsy (.int 0)
  | zeroFloat (negative : Bool) : IsFalsy (.float (.finite negative 0))
  | emptyText : IsFalsy (.string "")
  | emptyArray : IsFalsy (.array [])
  | emptyObject : IsFalsy (.object [])

theorem Value.isEmpty_iff (v : Value) : v.isEmpty = true ↔ v.IsFalsy := by
  constructor
  · intro h
    cases v with
    | null => exact .null
    | bool b =>
      cases b with
      | false => exact .false
      | true => cases h
    | int n =>
      obtain rfl : n = 0 := by simpa [isEmpty] using h
      exact .zero
    | float x =>
      cases x with
      | finite negative units =>
        obtain rfl : units = 0 := by simpa [isEmpty, Binary64.isZero] using h
        exact .zeroFloat negative
      | _ => cases h
    | string s =>
      obtain rfl : s = "" := by simpa [isEmpty] using h
      exact .emptyText
    | array items =>
      obtain rfl : items = [] := by simpa [isEmpty] using h
      exact .emptyArray
    | object members =>
      obtain rfl : members = [] := by simpa [isEmpty] using h
      exact .emptyObject
  · intro h
    cases h <;> rfl

/-- A payload that carries no identifiers: it is no object, or its identifiers are missing or count
    as absent. -/
def Value.IsVacant (p : Value) : Prop :=
  ∀ payload, p = .object payload → ∀ ids, Members.find? "ids" payload = some ids → ids.IsFalsy

namespace Members

/-- An array that may be left out, or be null, if it holds nulls alone. -/
def HasColumn (payload : Members) (name : String) (vs : List Value) : Prop :=
  find? name payload = some (.array vs) ∨
    (find? name payload = none ∨ find? name payload = some .null) ∧ ∀ v ∈ vs, v = .null

/-- A payload that holds a snapshot: an array of texts for its identifiers, and for its texts and
    its metadata each an array with nulls among them, which may be left out or be null if it holds
    nulls alone. -/
structure Holds (payload : Members) (r : RecordSet) : Prop where
  ids : find? "ids" payload = some (.array (r.ids.map .string))
  documents : payload.HasColumn "documents" (r.documents.map (Value.orNull .string))
  metadatas : payload.HasColumn "metadatas" (r.metadatas.map (Value.orNull .object))

open Validation

/-- What is wrong with a column and its items; nothing if it is left out or null. -/
def columnIssues (payload : Members) (name : String) (fits : Value → Bool) (c : Cause) :
    List Issue :=
  match find? name payload with
  | none | some .null => []
  | some (.array vs) => (misfits fits c vs 0).map (Issue.at (.field name))
  | some _ => [⟨[.field name], .notList⟩]

/-- What is wrong with the columns of a payload, in the order of the fields. -/
def elementIssues (payload : Members) : List Issue :=
  payload.columnIssues "ids" Value.isText .notText ++
    (payload.columnIssues "documents" (Value.isNullOr Value.isText) .notText ++
      payload.columnIssues "metadatas" (Value.isNullOr Value.isObject) .notDictionary)

/-- How long a column counts; as long as asked for if it is left out or null. -/
def columnSize (payload : Members) (name : String) (asked : Nat) : Nat :=
  match find? name payload with
  | none | some .null => asked
  | some v => RecordSet.itemCount v

/-- That the columns of a payload are not equally long. -/
def misalignment (payload : Members) : Issue :=
  ⟨[], .misaligned (payload.columnSize "ids" 0)
    (payload.columnSize "documents" (payload.columnSize "ids" 0))
    (payload.columnSize "metadatas" (payload.columnSize "ids" 0))⟩

/-- What is wrong with a payload that is no snapshot: its parts, and only if there is nothing wrong
    with them the lengths of its columns. -/
def issues (payload : Members) : List Issue :=
  if payload.elementIssues = [] then [payload.misalignment] else payload.elementIssues

end Members

end Json

/-! ## 3. Snapshots -/

namespace RecordSet

open Validation

/-- The columns of an object, read side by side. -/
def columns (ids documents metadatas : Value) :
    Checked (List String × List (Option String) × List (Option Members)) :=
  Checked.both ((listOf text ids).under (.field "ids"))
    (Checked.both ((listOf (nullable text) documents).under (.field "documents"))
      ((listOf (nullable dictionary) metadatas).under (.field "metadatas")))

theorem ofFields_eq (ids documents metadatas : Value) :
    ofFields [("ids", ids), ("documents", documents), ("metadatas", metadatas)] =
      match columns ids documents metadatas with
      | .ok (is, ds, ms) => ofLists is ds ms
      | .error issues => .error issues :=
  rfl

theorem columns_eq_ok_iff {ids documents metadatas : Value} {is : List String}
    {ds : List (Option String)} {ms : List (Option Members)} :
    columns ids documents metadatas = .ok (is, ds, ms) ↔
      ids = .array (is.map .string) ∧ documents = .array (ds.map (Value.orNull .string)) ∧
        metadatas = .array (ms.map (Value.orNull .object)) := by
  have hds := recognises_text.nullable (fun x => Value.noConfusion)
  have hms := recognises_dictionary.nullable (fun x => Value.noConfusion)
  rw [columns, Checked.both_eq_ok_iff, Checked.both_eq_ok_iff, under_eq_ok_iff, under_eq_ok_iff,
    under_eq_ok_iff, recognises_text.listOf_eq_ok_iff, hds.listOf_eq_ok_iff, hms.listOf_eq_ok_iff]

theorem explained_columns (ids documents metadatas : Value) :
    Explained (columns ids documents metadatas) := by
  have hids := explained_listOf explained_text ids
  have hdocuments := explained_listOf (explained_nullable explained_text) documents
  have hmetadatas := explained_listOf (explained_nullable explained_dictionary) metadatas
  exact (hids.under _).both ((hdocuments.under _).both (hmetadatas.under _))

theorem ofLists_eq_ok_iff {is : List String} {ds : List (Option String)}
    {ms : List (Option Members)} {r : RecordSet} :
    ofLists is ds ms = .ok r ↔ is = r.ids ∧ ds = r.documents ∧ ms = r.metadatas := by
  constructor
  · intro h
    unfold ofLists at h
    split at h
    · split at h
      · cases h
        exact ⟨rfl, rfl, rfl⟩
      · cases h
    · cases h
  · rintro ⟨rfl, rfl, rfl⟩
    rw [ofLists, dif_pos r.documents_length, dif_pos r.metadatas_length]

theorem ofLists_eq_refuse {is : List String} {ds : List (Option String)}
    {ms : List (Option Members)} (h : ∀ r, ofLists is ds ms ≠ .ok r) :
    ofLists is ds ms = .refuse (.misaligned is.length ds.length ms.length) := by
  unfold ofLists at h ⊢
  split
  · rename_i hd
    split
    · rename_i hm
      rw [dif_pos hd, dif_pos hm] at h
      exact absurd rfl (h _)
    · rfl
  · rfl

/-- **The fields of an object are a snapshot just as they are written.** -/
theorem ofFields_eq_ok_iff {ids documents metadatas : Value} {r : RecordSet} :
    ofFields [("ids", ids), ("documents", documents), ("metadatas", metadatas)] = .ok r ↔
      ids = .array (r.ids.map .string) ∧
        documents = .array (r.documents.map (Value.orNull .string)) ∧
        metadatas = .array (r.metadatas.map (Value.orNull .object)) := by
  rw [ofFields_eq, ← columns_eq_ok_iff]
  cases h : columns ids documents metadatas with
  | ok p =>
    obtain ⟨is, ds, ms⟩ := p
    exact ofLists_eq_ok_iff.trans (by simp)
  | error issues => simp

/-- A column that is left out, or null, is one of nulls. -/
theorem orNulls_eq_array_iff {payload : Members} {name : String} {vs : List Value} {count : Nat}
    (hcount : vs.length = count) :
    orNulls payload name count = .array vs ↔ payload.HasColumn name vs := by
  have hnulls : Value.array (List.replicate count .null) = .array vs ↔ ∀ v ∈ vs, v = .null := by
    rw [Value.array.injEq, eq_comm, List.eq_replicate_iff]
    exact and_iff_right hcount
  unfold orNulls Members.HasColumn
  cases hfind : Members.find? name payload with
  | none => simpa using hnulls
  | some v =>
    cases v with
    | null => simpa using hnulls
    | _ => simp

theorem issuesOf_orNulls {α : Type} {read : Value → Checked α} {write : α → Value}
    {fits : Value → Bool} {c : Cause} (h : Recognises read write (Value.isNullOr fits) c)
    (payload : Members) (name : String) (count : Nat) :
    issuesOf ((listOf read (orNulls payload name count)).under (.field name)) =
      payload.columnIssues name (Value.isNullOr fits) c := by
  have hnulls : misfits (Value.isNullOr fits) c (List.replicate count .null) 0 = [] := by
    unfold misfits
    rw [List.map_eq_nil_iff, List.filter_eq_nil_iff]
    intro p hp
    obtain ⟨_, hv⟩ := List.mem_zipIdx' hp
    simp [hv, Value.isNullOr]
  unfold orNulls Members.columnIssues
  rw [issuesOf_under]
  cases hfind : Members.find? name payload with
  | none =>
    dsimp only
    rw [h.issuesOf_listOf, hnulls, List.map_nil]
  | some v =>
    cases v with
    | null =>
      dsimp only
      rw [h.issuesOf_listOf, hnulls, List.map_nil]
    | array vs =>
      dsimp only
      rw [h.issuesOf_listOf]
    | _ => rfl

section Payloads

variable {payload : Members} {ids : Value} (hids : Members.find? "ids" payload = some ids)
  (hfull : ¬ids.IsFalsy)

include hids hfull

theorem ofPayload_of_ids : ofPayload (.object payload) =
    ofFields [("ids", ids), ("documents", orNulls payload "documents" (itemCount ids)),
      ("metadatas", orNulls payload "metadatas" (itemCount ids))] := by
  unfold ofPayload
  dsimp only
  rw [hids]
  dsimp only
  rw [if_neg (fun h => hfull ((Value.isEmpty_iff ids).mp h))]

/-- **A payload with identifiers is a snapshot just if it holds one.** -/
theorem ofPayload_eq_ok_iff {r : RecordSet} :
    ofPayload (.object payload) = .ok r ↔ payload.Holds r := by
  rw [ofPayload_of_ids hids hfull, ofFields_eq_ok_iff]
  have hcount : ids = .array (r.ids.map .string) → r.ids.length = itemCount ids := by
    rintro rfl
    exact (List.length_map _).symm
  constructor
  · rintro ⟨hi, hd, hm⟩
    refine ⟨hi ▸ hids, (orNulls_eq_array_iff ?_).mp hd, (orNulls_eq_array_iff ?_).mp hm⟩
    · rw [List.length_map, r.documents_length, hcount hi]
    · rw [List.length_map, r.metadatas_length, hcount hi]
  · intro h
    have hi : ids = .array (r.ids.map .string) := Option.some.inj (hids.symm.trans h.ids)
    refine ⟨hi, (orNulls_eq_array_iff ?_).mpr h.documents,
      (orNulls_eq_array_iff ?_).mpr h.metadatas⟩
    · rw [List.length_map, r.documents_length, hcount hi]
    · rw [List.length_map, r.metadatas_length, hcount hi]

theorem columnIssues_ids :
    payload.columnIssues "ids" Value.isText .notText =
      issuesOf ((listOf text ids).under (.field "ids")) := by
  unfold Members.columnIssues
  rw [hids, issuesOf_under]
  cases ids with
  | null => exact absurd .null hfull
  | array vs => rw [recognises_text.issuesOf_listOf]
  | _ => rfl

theorem elementIssues_eq :
    payload.elementIssues = issuesOf (columns ids (orNulls payload "documents" (itemCount ids))
      (orNulls payload "metadatas" (itemCount ids))) := by
  have hds := recognises_text.nullable (fun x => Value.noConfusion)
  have hms := recognises_dictionary.nullable (fun x => Value.noConfusion)
  rw [columns, issuesOf_both, issuesOf_both, issuesOf_orNulls hds, issuesOf_orNulls hms,
    ← columnIssues_ids hids hfull, Members.elementIssues]

theorem columnSize_ids : payload.columnSize "ids" 0 = itemCount ids := by
  unfold Members.columnSize
  rw [hids]
  cases ids with
  | null => exact absurd .null hfull
  | _ => rfl

omit hids hfull in
theorem columnSize_eq (payload : Members) (name : String) (count : Nat) :
    payload.columnSize name count = itemCount (orNulls payload name count) := by
  unfold Members.columnSize orNulls
  cases Members.find? name payload with
  | none => exact (List.length_replicate ..).symm
  | some v =>
    cases v with
    | null => exact (List.length_replicate ..).symm
    | _ => rfl

/-- **A payload with identifiers that holds no snapshot is refused for all that is wrong with its
    parts**, and for its lengths only if there is nothing wrong with them. -/
theorem ofPayload_of_not_holds (h : ¬∃ r, payload.Holds r) :
    ofPayload (.object payload) = .error payload.issues := by
  have hno : ∀ r, ofPayload (.object payload) ≠ .ok r :=
    fun r hr => h ⟨r, (ofPayload_eq_ok_iff hids hfull).mp hr⟩
  rw [ofPayload_of_ids hids hfull, ofFields_eq] at hno ⊢
  rw [Members.issues, Members.misalignment, columnSize_ids hids hfull, columnSize_eq,
    columnSize_eq, elementIssues_eq hids hfull]
  cases hcolumns : columns ids (orNulls payload "documents" (itemCount ids))
      (orNulls payload "metadatas" (itemCount ids)) with
  | ok p =>
    obtain ⟨is, ds, ms⟩ := p
    obtain ⟨hi, hd, hm⟩ := columns_eq_ok_iff.mp hcolumns
    rw [hcolumns] at hno
    dsimp only at hno ⊢
    rw [ofLists_eq_refuse hno, hd, hm, hi]
    simp [issuesOf, itemCount, Checked.refuse]
  | error issues =>
    have hissues : issues ≠ [] := explained_columns _ _ _ issues hcolumns
    exact congrArg Except.error (if_neg hissues).symm

end Payloads

theorem ofPayload_of_isVacant {p : Value} (h : p.IsVacant) : ofPayload p = .ok empty := by
  unfold ofPayload
  split
  · rename_i payload
    split
    · rfl
    · rename_i ids hids
      rw [if_pos ((Value.isEmpty_iff ids).mpr (h payload rfl ids hids))]
  · rfl

/-! ## 4. Rows -/

/-- Three lists side by side; none if one of them ends before another. -/
def zipStrict? {α β γ : Type} : List α → List β → List γ → Option (List (α × β × γ))
  | [], [], [] => some []
  | a :: as, b :: bs, c :: cs => (zipStrict? as bs cs).map ((a, b, c) :: ·)
  | _, _, _ => none

theorem zipStrict?_eq {α β γ : Type} : ∀ {as : List α} {bs : List β} {cs : List γ},
    bs.length = as.length → cs.length = as.length → zipStrict? as bs cs = some (as.zip (bs.zip cs))
  | [], [], [], _, _ => rfl
  | a :: as, b :: bs, c :: cs, hb, hc => by
      rw [zipStrict?, zipStrict?_eq (Nat.succ.inj hb) (Nat.succ.inj hc)]
      rfl

/-- The fields of a row. -/
def rowFields (row : String × Option String × Option Members) : Members :=
  [("id", .string row.1), ("document", Value.orNull .string row.2.1),
    ("metadata", Value.orNull .object row.2.2)]

theorem ofFields_rowFields (row : String × Option String × Option Members) :
    Record.ofFields (rowFields row) = .ok ⟨row.1, row.2.1, row.2.2⟩ := by
  obtain ⟨id, document, metadata⟩ := row
  cases document <;> cases metadata <;> rfl

theorem rows_eq (r : RecordSet) :
    r.rows = (r.ids.zip (r.documents.zip r.metadatas)).map fun row => ⟨row.1, row.2.1, row.2.2⟩ := by
  rw [List.zip_eq_zipWith, List.map_zipWith]
  rfl

theorem getElem?_rows (r : RecordSet) (i : Nat) (row : Record) :
    r.rows[i]? = some row ↔ r.ids[i]? = some row.id ∧
      r.documents[i]? = some row.document ∧ r.metadatas[i]? = some row.metadata := by
  rw [rows, List.getElem?_zipWith_eq_some]
  constructor
  · rintro ⟨id, p, hid, hp, rfl⟩
    exact ⟨hid, List.getElem?_zip_eq_some.mp hp⟩
  · rintro ⟨hid, hd, hm⟩
    exact ⟨row.id, (row.document, row.metadata), hid, List.getElem?_zip_eq_some.mpr ⟨hd, hm⟩, rfl⟩

/-- **Every payload comes to just what its format says.** One that carries no identifiers is the
    empty store. One that holds a snapshot is that snapshot, and one that holds none is refused for
    what is wrong with it. The rows of a snapshot are built without a refusal: no list ends before
    another, every row passes the check of a record, and row `i` is what stands at position `i` of
    each list. -/
theorem ofPayload_exact (p : Value) :
    (p.IsVacant → ofPayload p = .ok empty) ∧
    (¬p.IsVacant → ∃ payload : Members, p = .object payload ∧
      (∀ r, ofPayload p = .ok r ↔ payload.Holds r) ∧
      ((¬∃ r, payload.Holds r) → ofPayload p = .error payload.issues)) ∧
    ∀ r, ofPayload p = .ok r → r.rows.length = r.size ∧
      (∃ rows, zipStrict? r.ids r.documents r.metadatas = some rows ∧
        rows.map (fun row => Record.ofFields (rowFields row)) = r.rows.map .ok) ∧
      ∀ (i : Nat) (row : Record), r.rows[i]? = some row ↔ r.ids[i]? = some row.id ∧
        r.documents[i]? = some row.document ∧ r.metadatas[i]? = some row.metadata := by
  refine ⟨ofPayload_of_isVacant, fun hfull => ?_, fun r _ => ?_⟩
  · simp only [Value.IsVacant, not_forall] at hfull
    obtain ⟨payload, rfl, ids, hids, hfull⟩ := hfull
    exact ⟨payload, rfl, fun r => ofPayload_eq_ok_iff hids hfull,
      ofPayload_of_not_holds hids hfull⟩
  · refine ⟨length_rows r, ⟨_, zipStrict?_eq r.documents_length r.metadatas_length, ?_⟩,
      getElem?_rows r⟩
    rw [rows_eq, List.map_map]
    exact List.map_congr_left fun row _ => ofFields_rowFields row

/-- Identifiers of which one is a number, no array for the texts, and one null for the metadata. -/
def mixedPayload : Members :=
  [("metadatas", .array [.null]), ("ids", .array [.string "a", .int 1]), ("documents", .bool true)]

/-- A payload is refused for its identifiers and its texts, with no word on their lengths. -/
theorem ofPayload_of_mixedPayload :
    ¬(Value.object mixedPayload).IsVacant ∧ (¬∃ r, Members.Holds mixedPayload r) ∧
    ofPayload (.object mixedPayload) =
      .error [⟨[.field "ids", .index 1], .notText⟩, ⟨[.field "documents"], .notList⟩] := by
  have hfull : ¬(Value.object mixedPayload).IsVacant := by
    intro h
    cases h mixedPayload rfl _ rfl
  have hholds : ¬∃ r, Members.Holds mixedPayload r := by
    rintro ⟨r, h⟩
    rcases h.documents with h | ⟨h | h, _⟩ <;> cases h
  obtain ⟨payload, hpayload, _, hrefused⟩ := (ofPayload_exact (.object mixedPayload)).2.1 hfull
  cases hpayload
  exact ⟨hfull, hholds, hrefused hholds⟩

end RecordSet

end CodeSession
