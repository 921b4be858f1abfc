import CodeSession.Backend.Client
import CodeSession.Proofs.Text.Cutting
import CodeSession.Proofs.Text.Utf8

/-!
# Reading an upload back

A reader of multipart bodies, and that it finds the files of an upload in its body.

* `entries` -- the parts of a body: it is cut at the line ends that the line of the boundary
  follows, each part has header lines up to an empty one, and its content stands behind them;
* `seenName` -- a path as the reader sees it: quotes and control characters stay percent-encoded;
* `entry?_chunk` -- a part is read as its file;
* `infix_chunk_iff`, `not_infix_of_entries` -- a part holds a marker just if its content does, and
  no content that is read does;
* `entries_body_iff` -- so a body is read as its files just if no content holds a marker;
* `entries_upload` -- an upload is read as its files, one for one and in their order.
-/

namespace CodeSession.Backend.Multipart

open Text

/-! ## 1. The reader -/

/-- A part as it is read. -/
structure Entry where
  field : String
  filename : String
  contentType : String
  content : Bytes
  deriving DecidableEq, Repr

/-- What ends a part: the line end before the line of the boundary belongs to it. -/
def marker (boundary : String) : Bytes :=
  lineEnd ++ delimiter boundary

/-- The lines of a header up to the empty one after them, and what follows it. -/
def headerLines (bs : Bytes) : Option (List Bytes × Bytes) :=
  match _h : cut lineEnd bs with
  | none => none
  | some ([], rest) => some ([], rest)
  | some (b :: line, rest) => (headerLines rest).map fun p => ((b :: line) :: p.1, p.2)
termination_by bs.length
decreasing_by exact length_of_cut _h

/-- The name and the value on a line of a header. -/
def headerField? (line : Bytes) : Option (String × String) := do
  let s ← exactText? (Utf8.decode line)
  let (name, value) ← cut [':', ' '] s.toList
  return (String.ofList name, String.ofList value)

/-- The text up to the closing quote, and what follows it; a backslash stands before a character
    that is meant as it is. -/
def quotedString? : List Char → Option (List Char × List Char)
  | [] => none
  | '"' :: cs => some ([], cs)
  | '\\' :: c :: cs => (quotedString? cs).map fun p => (c :: p.1, p.2)
  | c :: cs => (quotedString? cs).map fun p => (c :: p.1, p.2)

/-- The names of the field and of the file in the disposition of a part. -/
def disposition? (s : String) : Option (String × String) := do
  let cs ← s.toList.dropPrefix? "form-data; name=\"".toList
  let (field, cs) ← quotedString? cs
  let cs ← cs.dropPrefix? "; filename=\"".toList
  let (filename, cs) ← quotedString? cs
  if cs.isEmpty then return (String.ofList field, String.ofList filename) else none

/-- A part from the fields of its header, of which there are two. -/
def ofFields? (content : Bytes) : List (String × String) → Option Entry
  | [(first, disposition), (second, contentType)] =>
    if first = "Content-Disposition" ∧ second = "Content-Type" then
      (disposition? disposition).map fun p => ⟨p.1, p.2, contentType, content⟩
    else none
  | _ => none

/-- A part from what stands between the boundary and the next marker. -/
def entry? (chunk : Bytes) : Option Entry := do
  let bs ← chunk.dropPrefix? lineEnd
  let (lines, content) ← headerLines bs
  let fields ← lines.mapM headerField?
  ofFields? content fields

/-- The parts up to the boundary that two dashes follow. -/
def entriesOf? : List Bytes → Option (List Entry)
  | [] => none
  | chunk :: chunks =>
    if Utf8.encode "--" <+: chunk then some []
    else do
      let entry ← entry? chunk
      let entries ← entriesOf? chunks
      return entry :: entries

/-- The parts of a body; what stands before the first boundary does not count. -/
def entries (boundary : String) (bs : Bytes) : Option (List Entry) :=
  entriesOf? ((split (marker boundary) (lineEnd ++ bs)).drop 1)

/-! ## 2. Names -/

/-- A character of a path as the reader sees it. -/
def seenChar (c : Char) : List Char :=
  if c == '\\' then [c] else nameChar c

/-- A path as the reader sees it. -/
def seenName (s : String) : String :=
  String.ofList (s.toList.flatMap seenChar)

/-- The part of a file, as the reader sees it. -/
def Entry.ofFile (f : SelectedFile) : Entry :=
  ⟨fieldName, seenName f.relativePath, f.contentType, f.content⟩

/-- A character that is percent-encoded in names. -/
def Hidden (c : Char) : Prop :=
  c = '"' ∨ c.toNat < 0x20 ∧ c.toNat ≠ 0x1B

instance decidableHidden (c : Char) : Decidable (Hidden c) :=
  inferInstanceAs (Decidable (_ ∨ _))

theorem nameChar_eq (c : Char) :
    nameChar c = if Hidden c then percentChar c else if c = '\\' then ['\\', '\\'] else [c] := by
  unfold nameChar Hidden
  by_cases hquote : c = '"'
  · simp [hquote]
  · by_cases hslash : c = '\\'
    · subst hslash
      decide
    · simp [hquote, hslash]

/-- Percent encoding needs neither quotes nor backslashes, and no control characters. -/
theorem percentChar_of_hidden {c : Char} (h : Hidden c) :
    ∀ d ∈ percentChar c, ¬Hidden d ∧ d ≠ '\\' := by
  have hsmall : ∀ n < 0x23,
      (percentChar (Char.ofNat n)).all (fun d => ¬Hidden d ∧ d ≠ '\\') = true := by decide
  have hc : c.toNat < 0x23 := by
    rcases h with rfl | ⟨h, -⟩
    · decide
    · omega
  have hall := hsmall c.toNat hc
  rw [Char.ofNat_toNat] at hall
  exact fun d hd => of_decide_eq_true (List.all_eq_true.mp hall d hd)

/-- **No quote, line break or other control character of a path is left in its name.** -/
theorem not_hidden_of_mem_fileName {path : String} {d : Char} (h : d ∈ (fileName path).toList) :
    ¬Hidden d := by
  rw [fileName, String.toList_ofList, List.mem_flatMap] at h
  obtain ⟨c, -, hd⟩ := h
  rw [nameChar_eq] at hd
  split at hd
  · rename_i hc
    exact (percentChar_of_hidden hc d hd).1
  split at hd
  · have hslash : d = '\\' := by simpa using hd
    subst hslash
    decide
  · rename_i hc _
    rw [List.mem_singleton.mp hd]
    exact hc

theorem notMem_fileName {c : Char} (hc : Hidden c) (path : String) : c ∉ (fileName path).toList :=
  fun h => not_hidden_of_mem_fileName h hc

/-- A path without quotes and control characters is seen as it is. -/
theorem seenName_eq_self {path : String} (h : ∀ c ∈ path.toList, ¬Hidden c) :
    seenName path = path := by
  have hseen : ∀ c ∈ path.toList, seenChar c = [c] := by
    intro c hc
    unfold seenChar
    rw [nameChar_eq, if_neg (h c hc)]
    by_cases hslash : c = '\\' <;> simp [hslash]
  rw [seenName, List.flatMap_congr hseen, List.flatMap_singleton', String.ofList_toList]

/-! ## 3. Quoted strings -/

/-- Characters that mean themselves. -/
theorem quotedString?_append {p : List Char} (hp : ∀ d ∈ p, ¬Hidden d ∧ d ≠ '\\')
    (cs : List Char) :
    quotedString? (p ++ cs) = (quotedString? cs).map fun q => (p ++ q.1, q.2) := by
  induction p with
  | nil => simp
  | cons d p ih =>
    obtain ⟨⟨hhidden, hslash⟩, hp⟩ := List.forall_mem_cons.mp hp
    have hquote : d ≠ '"' := fun h => hhidden (.inl h)
    rw [List.cons_append, quotedString?, ih hp, Option.map_map]
    · rfl
    · exact hquote
    · exact fun c cs h _ => hslash h

/-- A character of a path is read as it is seen. -/
theorem quotedString?_nameChar (c : Char) (cs : List Char) :
    quotedString? (nameChar c ++ cs) =
      (quotedString? cs).map fun q => (seenChar c ++ q.1, q.2) := by
  by_cases hslash : c = '\\'
  · subst hslash
    rfl
  · have hseen : seenChar c = nameChar c := by simp [seenChar, hslash]
    rw [hseen]
    apply quotedString?_append
    intro d hd
    rw [nameChar_eq] at hd
    split at hd
    · rename_i hc
      exact percentChar_of_hidden hc d hd
    · rename_i hc
      rw [List.mem_singleton.mp hd]
      exact ⟨hc, hslash⟩

/-- **A name is read up to its closing quote**, whatever the path. -/
theorem quotedString?_name (cs rest : List Char) :
    quotedString? (cs.flatMap nameChar ++ '"' :: rest) = some (cs.flatMap seenChar, rest) := by
  induction cs with
  | nil => rfl
  | cons c cs ih =>
    rw [List.flatMap_cons, List.append_assoc, quotedString?_nameChar, ih, List.flatMap_cons]
    rfl

/-! ## 4. Parts -/

/-- The first line of a header. -/
def dispositionLine (f : SelectedFile) : String :=
  "Content-Disposition: form-data; name=\"" ++ fieldName ++ "\"; filename=\""
    ++ fileName f.relativePath ++ "\""

/-- The second line of a header. -/
def typeLine (f : SelectedFile) : String :=
  "Content-Type: " ++ f.contentType

variable {f : SelectedFile} {line rest : Bytes}

theorem header_eq (f : SelectedFile) (rest : Bytes) :
    header f ++ rest = Utf8.encode (dispositionLine f) ++ (lineEnd ++
      (Utf8.encode (typeLine f) ++ (lineEnd ++ (lineEnd ++ rest)))) := by
  unfold header dispositionLine typeLine
  rw [List.append_assoc, List.append_assoc, List.append_assoc, List.append_assoc]

theorem cut_lineEnd (hline : 0x0D ∉ line) (rest : Bytes) :
    cut lineEnd (line ++ (lineEnd ++ rest)) = some (line, rest) := by
  have hfree : ¬lineEnd <:+: line := fun h => hline (h.subset List.mem_cons_self)
  exact cut_append (c := 0x0D) (t := [0x0A]) (by decide) hfree rest

theorem headerLines_eq (bs : Bytes) :
    headerLines bs =
      match cut lineEnd bs with
      | none => none
      | some ([], rest) => some ([], rest)
      | some (b :: line, rest) => (headerLines rest).map fun p => ((b :: line) :: p.1, p.2) := by
  rw [headerLines]
  split <;> rename_i h <;> rw [h]

theorem headerLines_line (hne : line ≠ []) (hline : 0x0D ∉ line) (rest : Bytes) :
    headerLines (line ++ (lineEnd ++ rest)) =
      (headerLines rest).map fun p => (line :: p.1, p.2) := by
  rw [headerLines_eq, cut_lineEnd hline]
  cases line with
  | nil => exact absurd rfl hne
  | cons b line => rfl

theorem headerLines_end (rest : Bytes) : headerLines (lineEnd ++ rest) = some ([], rest) := by
  have hcut : cut lineEnd (lineEnd ++ rest) = some ([], rest) := cut_lineEnd List.not_mem_nil rest
  rw [headerLines_eq, hcut]

/-- A line of a header is read as its name and its value. -/
theorem headerField?_encode {name value : List Char} (hname : ':' ∉ name) {s : String}
    (hs : s.toList = name ++ ':' :: ' ' :: value) :
    headerField? (Utf8.encode s) = some (String.ofList name, String.ofList value) := by
  have hcut : cut [':', ' '] s.toList = some (name, value) := by
    rw [hs]
    exact cut_append (by decide) (fun h => hname (h.subset List.mem_cons_self)) value
  rw [headerField?, Utf8.decode, Utf8.decodeFrom_encode, exactText?_map_char, String.ofList_toList]
  show (cut [':', ' '] s.toList >>= _) = _
  rw [hcut]
  rfl

theorem dropPrefix?_append {α : Type} [BEq α] [ReflBEq α] (p cs : List α) :
    (p ++ cs).dropPrefix? p = some cs :=
  List.dropPrefix?_append_of_beq cs BEq.rfl

/-- **The disposition of a part** is read as the name of the field and the path. -/
theorem disposition?_name {path s : String}
    (hs : s.toList = "form-data; name=\"".toList ++ (fieldName.toList ++ '"' ::
      ("; filename=\"".toList ++ (path.toList.flatMap nameChar ++ ['"'])))) :
    disposition? s = some (fieldName, seenName path) := by
  have hplain : fieldName.toList.all (fun d => ¬Hidden d ∧ d ≠ '\\') = true := by decide
  have hfield : ∀ rest, quotedString? (fieldName.toList ++ '"' :: rest) =
      some (fieldName.toList, rest) := by
    intro rest
    rw [quotedString?_append fun d hd => of_decide_eq_true (List.all_eq_true.mp hplain d hd)]
    rfl
  unfold disposition?
  rw [hs, dropPrefix?_append, Option.bind_eq_bind, Option.bind_some, hfield]
  show ((("; filename=\"".toList ++ (path.toList.flatMap nameChar ++ ['"'])).dropPrefix?
    "; filename=\"".toList).bind _) = _
  rw [dropPrefix?_append, Option.bind_some, quotedString?_name]
  rfl

/-- The value on the first line of a header. -/
def disposition (f : SelectedFile) : List Char :=
  "form-data; name=\"".toList ++ (fieldName.toList ++ '"' ::
    ("; filename=\"".toList ++ (f.relativePath.toList.flatMap nameChar ++ ['"'])))

theorem dispositionLine_toList (f : SelectedFile) :
    (dispositionLine f).toList = "Content-Disposition".toList ++ ':' :: ' ' :: disposition f := by
  have hstart : "Content-Disposition: form-data; name=\"".toList =
      "Content-Disposition".toList ++ ':' :: ' ' :: "form-data; name=\"".toList := by decide
  have hbetween : "\"; filename=\"".toList = '"' :: "; filename=\"".toList := by decide
  have hend : "\"".toList = ['"'] := by decide
  unfold dispositionLine disposition fileName
  simp only [String.toList_append, String.toList_ofList, hstart, hbetween, hend, List.append_assoc,
    List.cons_append]

theorem typeLine_toList (f : SelectedFile) :
    (typeLine f).toList = "Content-Type".toList ++ ':' :: ' ' :: f.contentType.toList := by
  have hstart : "Content-Type: ".toList = "Content-Type".toList ++ [':', ' '] := by decide
  rw [typeLine, String.toList_append, hstart, List.append_assoc]
  rfl

/-- **No path ends its line.** -/
theorem notMem_dispositionLine (f : SelectedFile) :
    0x0D ∉ Utf8.encode (dispositionLine f) := by
  have hname : '\r' ∉ f.relativePath.toList.flatMap nameChar := by
    have h := notMem_fileName (c := '\r') (by decide) f.relativePath
    rwa [fileName, String.toList_ofList] at h
  refine Utf8.notMem_encode (c := '\r') (by decide) ?_
  rw [dispositionLine_toList]
  unfold disposition
  have hfixed : '\r' ∉ "Content-Disposition".toList ∧ '\r' ∉ "form-data; name=\"".toList ∧
      '\r' ∉ fieldName.toList ∧ '\r' ∉ "; filename=\"".toList := by decide
  simp [hname, hfixed]

theorem notMem_typeLine (h : '\r' ∉ f.contentType.toList) :
    0x0D ∉ Utf8.encode (typeLine f) := by
  refine Utf8.notMem_encode (c := '\r') (by decide) ?_
  rw [typeLine_toList]
  simp [h]

/-- What stands between the boundary and the next marker. -/
def chunk (f : SelectedFile) : Bytes :=
  lineEnd ++ (header f ++ f.content)

/-- Both lines of a header start with a letter. -/
theorem encode_dispositionLine (f : SelectedFile) :
    ∃ bs, Utf8.encode (dispositionLine f) = 0x43 :: bs := by
  have hstart : "Content-Disposition".toList = 'C' :: "ontent-Disposition".toList := by decide
  have hline := dispositionLine_toList f
  rw [hstart] at hline
  exact ⟨_, Utf8.encode_of_toList_cons hline (by decide)⟩

theorem encode_typeLine (f : SelectedFile) : ∃ bs, Utf8.encode (typeLine f) = 0x43 :: bs := by
  have hstart : "Content-Type".toList = 'C' :: "ontent-Type".toList := by decide
  have hline := typeLine_toList f
  rw [hstart] at hline
  exact ⟨_, Utf8.encode_of_toList_cons hline (by decide)⟩

/-- **A header is read as its two lines**, and the content follows. -/
theorem headerLines_header (h : '\r' ∉ f.contentType.toList) (rest : Bytes) :
    headerLines (header f ++ rest) =
      some ([Utf8.encode (dispositionLine f), Utf8.encode (typeLine f)], rest) := by
  obtain ⟨bs, hbs⟩ := encode_dispositionLine f
  obtain ⟨cs, hcs⟩ := encode_typeLine f
  have hdisposition : Utf8.encode (dispositionLine f) ≠ [] := hbs ▸ List.cons_ne_nil _ _
  have htype : Utf8.encode (typeLine f) ≠ [] := hcs ▸ List.cons_ne_nil _ _
  rw [header_eq, headerLines_line hdisposition (notMem_dispositionLine f),
    headerLines_line htype (notMem_typeLine h), headerLines_end]
  rfl

/-- **A part is read as its file.** -/
theorem entry?_chunk (h : '\r' ∉ f.contentType.toList) :
    entry? (chunk f) = some (Entry.ofFile f) := by
  have hdisposition : headerField? (Utf8.encode (dispositionLine f)) =
      some ("Content-Disposition", String.ofList (disposition f)) := by
    rw [headerField?_encode (by decide) (dispositionLine_toList f), String.ofList_toList]
  have htype : headerField? (Utf8.encode (typeLine f)) = some ("Content-Type", f.contentType) := by
    rw [headerField?_encode (by decide) (typeLine_toList f), String.ofList_toList,
      String.ofList_toList]
  have hfields : [Utf8.encode (dispositionLine f), Utf8.encode (typeLine f)].mapM headerField? =
      some [("Content-Disposition", String.ofList (disposition f)),
        ("Content-Type", f.contentType)] := by
    simp only [List.mapM_cons, List.mapM_nil, hdisposition, htype]
    rfl
  have hname : disposition? (String.ofList (disposition f)) =
      some (fieldName, seenName f.relativePath) := disposition?_name String.toList_ofList
  unfold entry? chunk
  rw [dropPrefix?_append, Option.bind_eq_bind, Option.bind_some, headerLines_header h,
    Option.bind_eq_bind, Option.bind_some]
  dsimp only
  rw [hfields, Option.bind_eq_bind, Option.bind_some, ofFields?, if_pos ⟨rfl, rfl⟩, hname]
  rfl

/-! ## 5. Markers -/

variable {boundary : String}

theorem delimiter_eq (boundary : String) :
    delimiter boundary = 0x2D :: 0x2D :: Utf8.encode boundary := by
  have hdashes : Utf8.encode "--" = [0x2D, 0x2D] := by decide
  rw [delimiter, Utf8.encode_append, hdashes]
  rfl

theorem marker_eq (boundary : String) : marker boundary = 0x0D :: (0x0A :: delimiter boundary) :=
  rfl

/-- The first byte of a marker does not occur in it again. -/
theorem notMem_marker (h : '\r' ∉ boundary.toList) :
    0x0D ∉ (0x0A :: delimiter boundary : Bytes) := by
  have hboundary : 0x0D ∉ Utf8.encode boundary := Utf8.notMem_encode (c := '\r') (by decide) h
  rw [delimiter_eq]
  simp [hboundary]

theorem infix_marker_line (hline : 0x0D ∉ line) :
    marker boundary <:+: line ++ rest ↔ marker boundary <:+: rest :=
  infix_append_iff_of_notMem hline

/-- A marker begins at a line end if the line of the boundary follows, or later. -/
theorem infix_marker_lineEnd :
    marker boundary <:+: lineEnd ++ rest ↔
      delimiter boundary <+: rest ∨ marker boundary <:+: rest := by
  have hfeed : 0x0D ∉ ([0x0A] : Bytes) := by decide
  have hline : marker boundary <:+: 0x0A :: rest ↔ marker boundary <:+: rest :=
    infix_marker_line hfeed
  rw [← hline]
  show marker boundary <:+: 0x0D :: 0x0A :: rest ↔ _
  rw [marker_eq, infix_cons_self_iff, List.cons_prefix_cons, and_iff_right rfl]

/-- **A part holds a marker just if its content does**, with the line end before it: the path and
    the content type put none in, as no line of a header starts with a dash. -/
theorem infix_chunk_iff (htype : '\r' ∉ f.contentType.toList) :
    marker boundary <:+: chunk f ↔ marker boundary <:+: lineEnd ++ f.content := by
  obtain ⟨bs, hbs⟩ := encode_dispositionLine f
  obtain ⟨cs, hcs⟩ := encode_typeLine f
  have hdash : ∀ b rest, delimiter boundary <+: b :: rest → 0x2D = b := by
    intro b rest h
    rw [delimiter_eq] at h
    exact (List.cons_prefix_cons.mp h).1
  have hletter : ∀ rest, ¬delimiter boundary <+: 0x43 :: rest :=
    fun rest h => absurd (hdash _ _ h) (by decide)
  have hreturn : ∀ rest, ¬delimiter boundary <+: 0x0D :: rest :=
    fun rest h => absurd (hdash _ _ h) (by decide)
  rw [chunk, header_eq, infix_marker_lineEnd, infix_marker_line (notMem_dispositionLine f),
    infix_marker_lineEnd, infix_marker_line (notMem_typeLine htype), infix_marker_lineEnd, hbs, hcs]
  simp only [lineEnd, List.cons_append, hletter, hreturn, false_or]

/-- A content without the boundary has no marker. -/
theorem not_infix_content {content : Bytes} (h : ¬Utf8.encode boundary <:+: content) :
    ¬marker boundary <:+: lineEnd ++ content := by
  have hdelimiter : Utf8.encode boundary <:+: delimiter boundary := by
    rw [delimiter_eq]
    exact (List.suffix_append [0x2D, 0x2D] _).isInfix
  rw [infix_marker_lineEnd]
  rintro (hstart | hlater)
  · exact h (hdelimiter.trans hstart.isInfix)
  · exact h ((hdelimiter.trans (List.suffix_append lineEnd _).isInfix).trans hlater)

/-! ## 6. What is read -/

/-- What follows a header follows a line end. -/
theorem suffix_of_headerLines {bs : Bytes} {lines : List Bytes}
    (h : headerLines bs = some (lines, rest)) : lineEnd ++ rest <:+ bs := by
  fun_induction headerLines bs generalizing lines rest with
  | case1 bs hcut => cases h
  | case2 bs rest' hcut =>
    cases h
    exact ⟨[], (eq_of_cut hcut).symm⟩
  | case3 bs b line rest' hcut ih =>
    obtain ⟨p, hp, hpair⟩ := Option.map_eq_some_iff.mp h
    cases hpair
    have hsuffix : rest' <:+ bs := ⟨b :: line ++ lineEnd, by
      rw [eq_of_cut hcut, List.append_assoc]
      rfl⟩
    exact (ih hp).trans hsuffix

theorem suffix_of_entry? {chunk : Bytes} {e : Entry} (h : entry? chunk = some e) :
    lineEnd ++ e.content <:+ chunk := by
  obtain ⟨bs, hbs, h⟩ := Option.bind_eq_some_iff.mp h
  obtain ⟨⟨lines, content⟩, hlines, h⟩ := Option.bind_eq_some_iff.mp h
  obtain ⟨fields, -, h⟩ := Option.bind_eq_some_iff.mp h
  have hcontent : e.content = content := by
    unfold ofFields? at h
    split at h
    · split at h
      · obtain ⟨p, -, rfl⟩ := Option.map_eq_some_iff.mp h
        rfl
      · cases h
    · cases h
  obtain ⟨p, rfl, -⟩ := List.dropPrefix?_eq_some_iff.mp hbs
  rw [hcontent]
  exact (suffix_of_headerLines hlines).trans (List.suffix_append _ _)

theorem suffix_of_entriesOf? {chunks : List Bytes} {es : List Entry}
    (h : entriesOf? chunks = some es) :
    ∀ e ∈ es, ∃ chunk ∈ chunks, lineEnd ++ e.content <:+ chunk := by
  induction chunks generalizing es with
  | nil => cases h
  | cons chunk chunks ih =>
    rw [entriesOf?] at h
    split at h
    · cases h
      exact fun e he => absurd he List.not_mem_nil
    · obtain ⟨e, he, h⟩ := Option.bind_eq_some_iff.mp h
      obtain ⟨es', hes', h⟩ := Option.bind_eq_some_iff.mp h
      cases h
      rw [List.forall_mem_cons]
      refine ⟨⟨chunk, List.mem_cons_self, suffix_of_entry? he⟩, fun e' he' => ?_⟩
      obtain ⟨chunk', hmem, hsuffix⟩ := ih hes' e' he'
      exact ⟨chunk', List.mem_cons_of_mem _ hmem, hsuffix⟩

/-- **No content that is read holds a marker.** -/
theorem not_infix_of_entries {bs : Bytes} {es : List Entry} (h : entries boundary bs = some es) :
    ∀ e ∈ es, ¬marker boundary <:+: lineEnd ++ e.content := by
  intro e he hmarker
  obtain ⟨chunk, hchunk, hsuffix⟩ := suffix_of_entriesOf? h e he
  have hfree : ¬marker boundary <:+: chunk := not_infix_of_mem_split (List.mem_of_mem_drop hchunk)
  exact hfree (hmarker.trans hsuffix.isInfix)

/-! ## 7. Bodies -/

theorem split_marker {before : Bytes} (hboundary : '\r' ∉ boundary.toList)
    (hbefore : ¬marker boundary <:+: before) (rest : Bytes) :
    split (marker boundary) (before ++ (lineEnd ++ (delimiter boundary ++ rest))) =
      before :: split (marker boundary) rest :=
  split_append (notMem_marker hboundary) hbefore rest

/-- What stands before the first of the parts, the parts, and what stands behind the last marker. -/
theorem split_parts {files : List SelectedFile} {before last : Bytes}
    (hboundary : '\r' ∉ boundary.toList)
    (hfiles : ∀ f ∈ files, ¬marker boundary <:+: chunk f) (hbefore : ¬marker boundary <:+: before)
    (hlast : ¬marker boundary <:+: last) :
    split (marker boundary)
        (before ++ (lineEnd ++ (files.flatMap (part boundary) ++ (delimiter boundary ++ last)))) =
      before :: (files.map chunk ++ [last]) := by
  induction files generalizing before with
  | nil =>
    have hend : split (marker boundary) last = [last] := split_of_not_infix hlast
    rw [List.flatMap_nil, List.nil_append, split_marker hboundary hbefore, hend]
    rfl
  | cons f files ih =>
    obtain ⟨hf, hfiles⟩ := List.forall_mem_cons.mp hfiles
    have hpart : (f :: files).flatMap (part boundary) ++ (delimiter boundary ++ last) =
        delimiter boundary ++ (chunk f ++ (lineEnd ++
          (files.flatMap (part boundary) ++ (delimiter boundary ++ last)))) := by
      simp only [List.flatMap_cons, part, chunk, List.append_assoc]
    rw [hpart, split_marker hboundary hbefore, ih hfiles hf]
    rfl

/-- The parts are read as their files, up to the boundary that two dashes follow. -/
theorem entriesOf?_chunks {files : List SelectedFile} {last : Bytes}
    (htypes : ∀ f ∈ files, '\r' ∉ f.contentType.toList) (hlast : Utf8.encode "--" <+: last) :
    entriesOf? (files.map chunk ++ [last]) = some (files.map Entry.ofFile) := by
  induction files with
  | nil => exact if_pos hlast
  | cons f files ih =>
    obtain ⟨hf, htypes⟩ := List.forall_mem_cons.mp htypes
    have hopen : ¬Utf8.encode "--" <+: chunk f := by
      intro h
      have hdash : Utf8.encode "--" = [0x2D, 0x2D] := by decide
      rw [hdash] at h
      exact absurd (List.cons_prefix_cons.mp h).1 (by decide)
    rw [List.map_cons, List.cons_append, entriesOf?, if_neg hopen, entry?_chunk hf, ih htypes]
    rfl

/-- What stands behind the last boundary holds no marker. -/
theorem not_infix_closing (boundary : String) :
    ¬marker boundary <:+: Utf8.encode "--" ++ lineEnd := by
  have hdashes : 0x0D ∉ Utf8.encode "--" := by decide
  rw [infix_marker_line hdashes, ← List.append_nil lineEnd, infix_marker_lineEnd, delimiter_eq,
    marker_eq, List.prefix_nil, List.infix_nil]
  rintro (h | h) <;> cases h

theorem body_eq {files : List SelectedFile} (hne : files ≠ []) (boundary : String) :
    body boundary files = files.flatMap (part boundary) ++
      (delimiter boundary ++ (Utf8.encode "--" ++ lineEnd)) := by
  have hempty : ¬files.isEmpty = true := fun h => hne (List.isEmpty_iff.mp h)
  rw [body, if_neg hempty, List.append_assoc, List.append_assoc]

/-- **A body is read as its files just if no content holds a marker.** -/
theorem entries_body_iff {files : List SelectedFile} (hne : files ≠ [])
    (hboundary : '\r' ∉ boundary.toList) (htypes : ∀ f ∈ files, '\r' ∉ f.contentType.toList) :
    entries boundary (body boundary files) = some (files.map Entry.ofFile) ↔
      ∀ f ∈ files, ¬marker boundary <:+: lineEnd ++ f.content := by
  constructor
  · exact fun h f hf => not_infix_of_entries h (Entry.ofFile f) (List.mem_map_of_mem hf)
  · intro hcontents
    have hfiles : ∀ f ∈ files, ¬marker boundary <:+: chunk f := fun f hf => by
      rw [infix_chunk_iff (htypes f hf)]
      exact hcontents f hf
    have hnone : ¬marker boundary <:+: [] := by
      rw [marker_eq, List.infix_nil]
      exact List.cons_ne_nil _ _
    have hsplit := split_parts hboundary hfiles hnone (not_infix_closing boundary)
    rw [List.nil_append, ← body_eq hne] at hsplit
    rw [entries, hsplit]
    exact entriesOf?_chunks htypes (List.prefix_append _ _)

/-- **An upload is read as its files**, one part for each and in their order, if the boundary occurs
    in no content: what else the contents hold does not matter, and neither does any path. A path
    without quotes and control characters is seen as it is, and no path puts a line break or a quote
    into its header. Boundaries of hexadecimal digits have no carriage return. -/
theorem entries_upload {files : List SelectedFile} (hne : files ≠ [])
    (hboundary : '\r' ∉ boundary.toList) (htypes : ∀ f ∈ files, '\r' ∉ f.contentType.toList)
    (hcontents : ∀ f ∈ files, ¬Utf8.encode boundary <:+: f.content) :
    entries boundary ((Request.upload files).body boundary) =
        some (files.map fun f => ⟨"files", seenName f.relativePath, f.contentType, f.content⟩) ∧
      (∀ path : String, (∀ c ∈ path.toList, ¬Hidden c) → seenName path = path) ∧
      ∀ path : String, ∀ c ∈ ['\r', '\n', '"'],
        UInt8.ofNat c.toNat ∉ Utf8.encode (fileName path) := by
  refine ⟨?_, fun path => seenName_eq_self, fun path c hc => ?_⟩
  · exact (entries_body_iff hne hboundary htypes).mpr fun f hf => not_infix_content (hcontents f hf)
  · have hhidden : ['\r', '\n', '"'].all (fun c => Hidden c ∧ c.toNat < 0x80) = true := by decide
    obtain ⟨hc, hascii⟩ := of_decide_eq_true (List.all_eq_true.mp hhidden c hc)
    exact Utf8.notMem_encode hascii (notMem_fileName hc path)

/-- A path with a quote, line breaks and a line that looks like a boundary, a content with the
    beginning of a boundary after a line end, and an empty one. -/
theorem entries_forgedUpload :
    '\r' ∉ "0123456789abcdef0123456789abcdef".toList ∧
      entries "0123456789abcdef0123456789abcdef" ((Request.upload
        [⟨"a\"\r\n--0123456789abcdef0123456789abcdef--\\b",
            [0xFF, 0x0D, 0x0A, 0x2D, 0x2D, 0x30, 0x00], "text/plain"⟩,
          ⟨"project/src/Main.java", [], "application/octet-stream"⟩]).body
            "0123456789abcdef0123456789abcdef") =
        some [⟨"files", "a%22%0D%0A--0123456789abcdef0123456789abcdef--\\b", "text/plain",
            [0xFF, 0x0D, 0x0A, 0x2D, 0x2D, 0x30, 0x00]⟩,
          ⟨"files", "project/src/Main.java", "application/octet-stream", []⟩] := by
  have hboundary : '\r' ∉ "0123456789abcdef0123456789abcdef".toList := by decide
  have hforged : seenName "a\"\r\n--0123456789abcdef0123456789abcdef--\\b" =
      "a%22%0D%0A--0123456789abcdef0123456789abcdef--\\b" := by decide +kernel
  have hplain : seenName "project/src/Main.java" = "project/src/Main.java" := by decide +kernel
  refine ⟨hboundary, (entries_upload (List.cons_ne_nil _ _) hboundary ?_ ?_).1.trans ?_⟩
  · simp only [List.forall_mem_cons, List.not_mem_nil, false_imp_iff, implies_true, and_true]
    decide
  · simp only [List.forall_mem_cons, List.not_mem_nil, false_imp_iff, implies_true, and_true]
    decide
  · rw [List.map_cons, List.map_cons, List.map_nil, hforged, hplain]

end CodeSession.Backend.Multipart
