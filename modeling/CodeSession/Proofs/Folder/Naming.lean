import CodeSession.Proofs.Folder.Listing

/-!
# The names in a selection

What the files of a selection are called.

* `intercalate_inj` -- the path text of names tells the names;
* `notMem_contentType` -- no content type of a selected file has a carriage return;
* `IsRead` -- the files are those of different places below a folder, the root included;
* `nodup_of_collect` -- so no two files of a selection have one relative path.
-/

namespace CodeSession.Folder

open Text

/-! ## 1. Path texts -/

/-- The names that a path text is made of. -/
theorem filter_parts_intercalate {ps : List String} (hps : ∀ p ∈ ps, IsEntryName p) :
    ((parts '/' ("/".intercalate ps).toList).filter fun p => !p.isEmpty) =
      ps.map String.toList := by
  cases ps with
  | nil => rfl
  | cons p ps =>
    have htext : ("/".intercalate (p :: ps)).toList = join '/' ((p :: ps).map String.toList) := by
      have h := toList_intercalate ((p :: ps).map String.toList)
      have hsame : String.ofList ∘ String.toList = id := funext fun _ => String.ofList_toList
      rwa [List.map_map, hsame, List.map_id] at h
    have hname : ∀ cs ∈ (p :: ps).map String.toList, '/' ∉ cs ∧ cs ≠ [] := by
      intro cs hcs
      obtain ⟨name, hmem, rfl⟩ := List.mem_map.mp hcs
      refine ⟨(hps name hmem).no_slash, fun h => (hps name hmem).ne_empty ?_⟩
      exact String.toList_eq_nil_iff.mp h
    have hne : (p :: ps).map String.toList ≠ [] := List.cons_ne_nil _ _
    rw [htext, parts_join hne fun cs hcs => (hname cs hcs).1, List.filter_eq_self]
    intro cs hcs
    simpa using (hname cs hcs).2

/-- **The path text of names tells the names.** -/
theorem intercalate_inj {ps qs : List String} (hps : ∀ p ∈ ps, IsEntryName p)
    (hqs : ∀ q ∈ qs, IsEntryName q) (h : "/".intercalate ps = "/".intercalate qs) : ps = qs := by
  have hnames := filter_parts_intercalate hps
  rw [h, filter_parts_intercalate hqs] at hnames
  exact (List.map_injective_iff.mpr fun _ _ => String.toList_inj.mp) hnames.symm

/-- A place of a sound tree is made of names. -/
theorem isEntryName_of_at? {n : Node} (hn : n.Sound) {p : Place} (h : (n.at? p).isSome) :
    ∀ name ∈ p, IsEntryName name := by
  induction p generalizing n with
  | nil => exact fun name hname => absurd hname List.not_mem_nil
  | cons name p ih =>
    obtain ⟨m, hm⟩ := Option.isSome_iff_exists.mp h
    obtain ⟨es, entry, rfl, hentry, hm⟩ := Node.at?_cons_eq_some_iff.mp hm
    obtain ⟨hname, hsound⟩ := hn.lookup hentry
    exact List.forall_mem_cons.mpr ⟨hname, ih hsound (by rw [hm]; rfl)⟩

/-! ## 2. Content types -/

/-- A carriage return of a text is one of its bytes. -/
theorem mem_bytes_of_mem {s : String} (h : '\r' ∈ s.toList) : 0x0D ∈ s.toByteArray.data.toList := by
  have hbytes : s.toByteArray.data.toList = s.toList.flatMap String.utf8EncodeChar := by
    calc s.toByteArray.data.toList
        = (String.ofList s.toList).toByteArray.data.toList := by rw [String.ofList_toList]
      _ = s.toList.flatMap String.utf8EncodeChar := by
        rw [String.toByteArray_ofList, List.utf8Encode, List.data_toByteArray]
  rw [hbytes]
  exact List.mem_flatMap.mpr ⟨'\r', h, by decide⟩

/-- What is found in a list of pairs stands in it. -/
theorem mem_of_lookup {α : Type} {key : String} {a : α} {es : List (String × α)}
    (h : es.lookup key = some a) : (key, a) ∈ es := by
  obtain ⟨before, after, rfl, -⟩ := List.lookup_eq_some_iff.mp h
  exact List.mem_append_right before List.mem_cons_self

/-- No content type of an extension has a carriage return; its bytes are looked at, as these are
    what a text is made of. -/
theorem notMem_ofExtension {name : List Char} {type : String} (h : ofExtension name = some type) :
    '\r' ∉ type.toList := by
  have htable : (contentTypes.all fun e => !e.2.toByteArray.data.toList.contains 0x0D) = true := by
    decide +kernel
  unfold ofExtension at h
  dsimp only at h
  have hbytes := List.all_eq_true.mp htable _ (mem_of_lookup h)
  exact fun h => by simp [mem_bytes_of_mem h] at hbytes

/-- **No content type of a selected file has a carriage return.** -/
theorem notMem_contentType (name : String) :
    '\r' ∉ ((contentType? name).getD unknownContentType).toList := by
  have hfound : ∀ type, contentType? name = some type → '\r' ∉ type.toList := by
    intro type htype
    unfold contentType? at htype
    split at htype
    · split at htype
      · split at htype
        · cases htype
          decide
        · cases htype
      · exact notMem_ofExtension htype
    · exact notMem_ofExtension htype
  cases h : contentType? name with
  | none =>
    rw [Option.getD_none]
    decide
  | some type => exact hfound type h

/-! ## 3. Selections -/

namespace FileSystem

variable {fs : FileSystem} {files : List SelectedFile}

/-- What a folder is read as: an entry for each of some places below it, which differ. -/
structure IsRead (folder : Place) (found : List (Place × Place × Bytes))
    (files : List SelectedFile) : Prop where
  places : (found.map Prod.fst).Nodup
  below : ∀ q ∈ found.map Prod.fst, folder <+: q ∧ ∀ name ∈ q, IsEntryName name
  files : files = found.map (selected (folder.length - 1))

/-- A folder that is read is read so. -/
theorem isRead_of_readFolder (hfs : fs.root.Sound) {folder : Place} {es : List (String × Node)}
    (hfolder : fs.root.at? folder = some (.folder es))
    (h : fs.readFolder folder (.folder es) = .ok files) : ∃ found, IsRead folder found files := by
  obtain ⟨-, -, -, -, found, hfinds, hfiles⟩ := testable_of_readFolder hfs hfolder h
  refine ⟨found, ?_, fun q hq => ?_, hfiles⟩
  · exact List.pairwise_map.mpr (hfinds.sorted.imp ne_of_lt)
  · obtain ⟨⟨q, there, content⟩, he, rfl⟩ := List.mem_map.mp hq
    obtain ⟨below, rfl, hmet, -⟩ := (hfinds.mem_iff q there content).mp he
    exact ⟨List.prefix_append _ _, isEntryName_of_at? hfs hmet.found⟩

/-- **The files of a folder have different relative paths.** -/
theorem IsRead.nodup {folder : Place} {found : List (Place × Place × Bytes)}
    (h : IsRead folder found files) : (files.map SelectedFile.relativePath).Nodup := by
  have hpaths : files.map SelectedFile.relativePath =
      (found.map Prod.fst).map fun q => "/".intercalate (q.drop (folder.length - 1)) := by
    rw [h.files, List.map_map, List.map_map]
    rfl
  rw [hpaths]
  refine h.places.map_on fun q hq q' hq' heq => ?_
  have hsame : ∀ q ∈ found.map Prod.fst,
      q.take (folder.length - 1) = folder.take (folder.length - 1) := by
    intro q hq
    obtain ⟨below, rfl⟩ := (h.below q hq).1
    exact List.take_append_of_le_length (Nat.sub_le _ _)
  have hnames : ∀ q ∈ found.map Prod.fst, ∀ name ∈ q.drop (folder.length - 1), IsEntryName name :=
    fun q hq name hname => (h.below q hq).2 name (List.mem_of_mem_drop hname)
  have hdrop := intercalate_inj (hnames q hq) (hnames q' hq') heq
  rw [← List.take_append_drop (folder.length - 1) q, hsame q hq, hdrop, ← hsame q' hq',
    List.take_append_drop]

/-- Every selection is that of a folder. -/
theorem exists_isRead_of_collect (hfs : fs.root.Sound) {path : String}
    (h : fs.collect path = .ok files) : ∃ folder found, IsRead folder found files := by
  obtain ⟨p, folder, es, hopens⟩ := exists_opens_of_collect h
  rw [collect_of_opens hopens] at h
  cases hread : fs.readFolder folder (.folder es) with
  | error trouble => rw [hread] at h; cases h
  | ok files' =>
    rw [hread] at h
    cases h
    exact ⟨folder, isRead_of_readFolder hfs hopens.folder hread⟩

/-- **No two files of a selection have one relative path**, whatever the path and the tree. -/
theorem nodup_of_collect (hfs : fs.root.Sound) {path : String} (h : fs.collect path = .ok files) :
    (files.map SelectedFile.relativePath).Nodup := by
  obtain ⟨folder, found, hread⟩ := exists_isRead_of_collect hfs h
  exact hread.nodup

/-- No content type in a selection has a carriage return. -/
theorem notMem_contentType_of_collect (hfs : fs.root.Sound) {path : String}
    (h : fs.collect path = .ok files) : ∀ f ∈ files, '\r' ∉ f.contentType.toList := by
  obtain ⟨folder, found, hread⟩ := exists_isRead_of_collect hfs h
  intro f hf
  rw [hread.files] at hf
  obtain ⟨e, -, rfl⟩ := List.mem_map.mp hf
  exact notMem_contentType _

/-- A folder whose files are come to in their order is read as a walk comes to them. -/
theorem collect_of_sorted {path : String} {p : Path} {folder : Place} {es : List (String × Node)}
    (hopens : fs.Opens path p folder es) (found : List (Place × Place × Bytes))
    (hlook : (fs.lookAt folder).isOk = true)
    (hfound : fs.followAll (fs.visits folder (.folder es) fs.levels) = .ok found)
    (hsorted : found.Pairwise fun a b => placeLE a.1 b.1 = true)
    (hfiles : fs.selectAll (folder.length - 1) found = .ok files) :
    fs.collect path = .ok files := by
  have hsort : sortFiles found = found := List.mergeSort_of_pairwise hsorted
  have hread : fs.readFolder folder (.folder es) = .ok files := by
    cases hplace : fs.lookAt folder with
    | error cause => rw [hplace] at hlook; cases hlook
    | ok there =>
      rw [readFolder, hplace, hfound]
      show fs.selectAll (folder.length - 1) (sortFiles found) = .ok files
      rw [hsort]
      exact hfiles
  rw [collect_of_opens hopens, hread]
  rfl

end FileSystem

end CodeSession.Folder
