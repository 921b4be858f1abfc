import CodeSession.Proofs.Folder.Paths
import CodeSession.Proofs.Folder.Relisting
import Mathlib.Data.List.Lex
import Mathlib.Data.List.Perm.Subperm
import Mathlib.Data.List.Sort
import Mathlib.Data.String.Basic

/-!
# The selection of a folder

What the selection of a folder holds, told by the tree alone, and that `FileSystem.collect` gives
just this.

* `Lists` -- the files below a folder: an entry for each regular file and each link to one, in the
  order of their lists of path components;
* `Complete` -- a folder all of which can be had: every entry can be looked at, no folder is passed
  over, the walk goes deep enough, and the names are texts;
* `exists_finds` -- what a walk through such a folder finds, in strict order;
* `readFolder_eq_ok_iff` -- when a folder is read, and what as;
* `collect_of_folder` -- the selection of every path that denotes a folder;
* `collect_of_not_readable` -- there is none if a file is denied.
-/

namespace CodeSession.Folder.FileSystem

open Text

/-! ## 1. What a selection holds -/

/-- The selected file of an entry below a folder. -/
structure IsEntry (fs : FileSystem) (folder below : Place) (f : SelectedFile) : Prop where
  relativePath : f.relativePath = "/".intercalate (folder.getLastD "" :: below)
  content : ∃ there, FileAt fs (folder ++ below) there f.content
  contentType : f.contentType = (contentType? (below.getLastD "")).getD unknownContentType

/-- One file for each of some places below a folder, in the strict order of the places. -/
def ListsAt (fs : FileSystem) (folder : Place) (P : Place → Prop) (files : List SelectedFile) :
    Prop :=
  ∃ places : List Place, places.Pairwise (· < ·) ∧ (∀ below, below ∈ places ↔ P below) ∧
    List.Forall₂ (fs.IsEntry folder) places files

/-- The files below a folder: one for each place below it where a regular file stands or a link that
    leads to one. -/
def Lists (fs : FileSystem) (folder : Place) (files : List SelectedFile) : Prop :=
  fs.ListsAt folder
    (fun below => below ≠ [] ∧ ∃ there content, FileAt fs (folder ++ below) there content) files

/-- The files below a folder that are met. -/
def ListsMet (fs : FileSystem) (folder : Place) (files : List SelectedFile) : Prop :=
  fs.ListsAt folder (fun below => below ≠ [] ∧ fs.Met folder below ∧
    ∃ there content, FileAt fs (folder ++ below) there content) files

/-- No file that is met below a folder is denied. -/
def Readable (fs : FileSystem) (folder : Place) : Prop :=
  ∀ below there content, fs.Met folder below → FileAt fs (folder ++ below) there content →
    there ∉ fs.unreadable

/-- A folder and every entry that is met below it can be looked at. -/
def Testable (fs : FileSystem) (folder : Place) : Prop :=
  ∀ below, fs.Met folder below → ¬fs.Untestable (folder ++ below)

/-- No folder that is met lies too deep for a walk. -/
def Shallow (fs : FileSystem) (folder : Place) : Prop :=
  ∀ below es, fs.Met folder below → fs.root.at? (folder ++ below) = some (.folder es) →
    below.length < fs.levels

/-- The paths of the files that are met, from the name of the folder on, are texts. -/
def Legible (fs : FileSystem) (folder : Place) : Prop :=
  ∀ below there content, fs.Met folder below → FileAt fs (folder ++ below) there content →
    ∀ name ∈ (folder ++ below).drop (folder.length - 1), name ∉ fs.garbled

/-- Every file below a folder is met: no folder on the way to it is unlisted. -/
def Listed (fs : FileSystem) (folder : Place) : Prop :=
  ∀ below there content, FileAt fs (folder ++ below) there content → fs.Met folder below

/-- A folder the files of which can all be had, as far as it is not the files that are denied. -/
structure Complete (fs : FileSystem) (folder : Place) : Prop where
  testable : fs.Testable folder
  shallow : fs.Shallow folder
  legible : fs.Legible folder
  listed : fs.Listed folder

/-! ## 2. Files in order -/

theorem placeLE_iff {a b : Place} : placeLE a b = true ↔ a ≤ b := by
  rw [placeLE, Bool.not_eq_true', decide_eq_false_iff_not, not_lt]

/-- Files at different places are put in the strict order of these. -/
theorem pairwise_sortFiles {files : List (Place × Place × Bytes)}
    (h : (files.map Prod.fst).Nodup) : (sortFiles files).Pairwise fun a b => a.1 < b.1 := by
  have hle : (sortFiles files).Pairwise fun a b => placeLE a.1 b.1 = true := by
    refine List.pairwise_mergeSort (fun a b c hab hbc => ?_) (fun a b => ?_) files
    · exact placeLE_iff.mpr (le_trans (placeLE_iff.mp hab) (placeLE_iff.mp hbc))
    · rw [Bool.or_eq_true, placeLE_iff, placeLE_iff]
      exact le_total a.1 b.1
  have hne : ((sortFiles files).map Prod.fst).Nodup :=
    ((sortFiles_perm files).map Prod.fst).nodup_iff.mpr h
  exact hle.imp₂ (fun a b hab hne => lt_of_le_of_ne (placeLE_iff.mp hab) hne)
    (List.pairwise_map.mp hne)

theorem lt_of_append_lt {p a b : Place} (h : p ++ a < p ++ b) : a < b := by
  induction p with
  | nil => exact h
  | cons name p ih => exact ih (by simpa using h)

variable {fs : FileSystem}

/-- The files at some places are one list. -/
theorem ListsAt.unique {folder : Place} {P : Place → Prop} {files files' : List SelectedFile}
    (h : fs.ListsAt folder P files) (h' : fs.ListsAt folder P files') : files = files' := by
  obtain ⟨places, hsorted, hmem, hentries⟩ := h
  obtain ⟨places', hsorted', hmem', hentries'⟩ := h'
  have hplaces : places = places' :=
    hsorted.eq_of_mem_iff hsorted' fun below => (hmem below).trans (hmem' below).symm
  subst hplaces
  have hone : ∀ below f g, fs.IsEntry folder below f → fs.IsEntry folder below g → f = g := by
    intro below ⟨path, content, type⟩ ⟨path', content', type'⟩ hf hg
    obtain ⟨there, hat⟩ := hf.content
    obtain ⟨there', hat'⟩ := hg.content
    obtain ⟨-, hcontent⟩ := hat.unique hat'
    have hpath := hf.relativePath.trans hg.relativePath.symm
    have htype := hf.contentType.trans hg.contentType.symm
    simp only at hcontent hpath htype
    rw [hcontent, hpath, htype]
  clear hsorted hsorted' hmem hmem'
  induction hentries generalizing files' with
  | nil => cases hentries'; rfl
  | cons hf _ ih =>
    cases hentries' with
    | cons hg hrest => rw [hone _ _ _ hf hg, ih hrest]

/-- Files that are both those at some places and those at all of more places leave none out. -/
theorem ListsAt.of_imp {folder : Place} {P Q : Place → Prop} {files : List SelectedFile}
    (h : fs.ListsAt folder P files) (h' : fs.ListsAt folder Q files) (hPQ : ∀ p, P p → Q p)
    {below : Place} (hbelow : Q below) : P below := by
  obtain ⟨places, hsorted, hmem, hentries⟩ := h
  obtain ⟨places', hsorted', hmem', hentries'⟩ := h'
  have hsub : places.Subperm places' := List.subperm_of_subset (hsorted.imp ne_of_lt)
    fun below hbelow => (hmem' below).mpr (hPQ below ((hmem below).mp hbelow))
  have hlength : places'.length ≤ places.length :=
    Nat.le_of_eq (hentries'.length_eq.trans hentries.length_eq.symm)
  exact (hmem below).mp ((hsub.perm_of_length_le hlength).mem_iff.mpr ((hmem' below).mpr hbelow))

/-! ## 3. The files that a walk finds -/

/-- **A walk that comes to nothing but entries that can be looked at finds the files among them**,
    in the order of the entries. -/
theorem followAll_of_testable (hfs : fs.root.Sound) {vs : List Visit}
    (h : ∀ v ∈ vs, ∃ q, v = .entry q ∧ q ≠ [] ∧ (fs.root.at? q).isSome ∧ ¬fs.Untestable q) :
    ∃ files, fs.followAll vs = .ok files ∧
      (files.map Prod.fst).Sublist (vs.filterMap Visit.place?) ∧
      ∀ q there content, (q, there, content) ∈ files ↔
        .entry q ∈ vs ∧ FileAt fs q there content := by
  induction vs with
  | nil => exact ⟨[], rfl, .slnil, by simp⟩
  | cons v rest ih =>
    obtain ⟨place, rfl, hne, hentry, htest⟩ := h v List.mem_cons_self
    obtain ⟨n, hn⟩ := Option.isSome_iff_exists.mp hentry
    obtain ⟨file, hfile, hfileAt⟩ := fileAt?_of_testable hfs hne hn htest
    obtain ⟨others, hothers, hsub, hmem⟩ := ih fun v hv => h v (List.mem_cons_of_mem _ hv)
    cases file with
    | none =>
      refine ⟨others, by simp [followAll, hfile, hothers], hsub.cons place, ?_⟩
      intro q there content
      rw [hmem, List.mem_cons, Visit.entry.injEq]
      constructor
      · exact fun ⟨hq, hat⟩ => ⟨.inr hq, hat⟩
      · rintro ⟨rfl | hq, hat⟩
        · cases (hfileAt there content).mpr hat
        · exact ⟨hq, hat⟩
    | some found =>
      obtain ⟨there₀, content₀⟩ := found
      refine ⟨(place, there₀, content₀) :: others, by simp [followAll, hfile, hothers, Except.map],
        hsub.cons_cons place, fun q there content => ?_⟩
      rw [List.mem_cons, hmem, List.mem_cons, Visit.entry.injEq]
      constructor
      · rintro (heq | ⟨hq, hat⟩)
        · cases heq
          exact ⟨.inl rfl, (hfileAt _ _).mp rfl⟩
        · exact ⟨.inr hq, hat⟩
      · rintro ⟨rfl | hq, hat⟩
        · cases (hfileAt there content).mpr hat
          exact .inl rfl
        · exact .inr ⟨hq, hat⟩

/-- A walk finds files only if it comes to nothing but entries that can be looked at. -/
theorem testable_of_followAll {vs : List Visit} {files : List (Place × Place × Bytes)}
    (h : fs.followAll vs = .ok files) : ∀ v ∈ vs, ∃ q, v = .entry q ∧ ¬fs.Untestable q := by
  induction vs generalizing files with
  | nil => exact fun v hv => (nomatch hv)
  | cons v rest ih =>
    cases v with
    | tooDeep => cases h
    | entry place =>
      have htest : ¬fs.Untestable place := by
        intro huntest
        obtain ⟨cause, hcause⟩ := fileAt?_eq_error_iff.mpr huntest
        simp [followAll, hcause] at h
      have hrest : ∃ others, fs.followAll rest = .ok others := by
        cases hfollow : fs.followAll rest with
        | ok others => exact ⟨others, rfl⟩
        | error e =>
          rw [followAll, hfollow] at h
          split at h <;> cases h
      obtain ⟨others, hothers⟩ := hrest
      exact List.forall_mem_cons.mpr ⟨⟨place, rfl, htest⟩, ih hothers⟩

/-- What a walk through a folder finds: the files that are met, in the strict order of their
    places. -/
structure Finds (fs : FileSystem) (folder : Place) (found : List (Place × Place × Bytes)) :
    Prop where
  sorted : found.Pairwise fun a b => a.1 < b.1
  mem_iff : ∀ q there content, (q, there, content) ∈ found ↔
    ∃ below, q = folder ++ below ∧ fs.Met folder below ∧ FileAt fs q there content

/-- What is met in a shallow folder is not too deep for a walk. -/
theorem Shallow.length_le {folder below : Place} (h : fs.Shallow folder)
    (hmet : fs.Met folder below) : below.length ≤ fs.levels := by
  rcases List.eq_nil_or_concat below with rfl | ⟨dir, name, rfl⟩
  · exact Nat.zero_le _
  rw [List.concat_eq_append] at hmet ⊢
  obtain ⟨es, hes⟩ := hmet.folder_above
  have hdir := h dir es hmet.above hes
  rw [List.length_append]
  exact hdir

section Folder

variable (hfs : fs.root.Sound) {folder : Place} {es : List (String × Node)}
  (hfolder : fs.root.at? folder = some (.folder es))

include hfs hfolder

/-- **What a walk finds in a folder** in which every entry can be looked at and none is too deep is
    what is read. -/
theorem exists_finds (htest : fs.Testable folder) (hshallow : fs.Shallow folder) :
    ∃ found, fs.Finds folder found ∧
      fs.readFolder folder (.folder es) = fs.selectAll (folder.length - 1) found := by
  have hvisits : ∀ v ∈ fs.visits folder (.folder es) fs.levels,
      ∃ q, v = .entry q ∧ q ≠ [] ∧ (fs.root.at? q).isSome ∧ ¬fs.Untestable q := by
    intro v hv
    cases v with
    | tooDeep =>
      obtain ⟨below, es', hlength, hes', hmet⟩ := (tooDeep_mem_visits_iff hfs hfolder).mp hv
      exact absurd hlength (Nat.ne_of_lt (hshallow below es' hmet hes'))
    | entry q =>
      obtain ⟨below, hne, -, rfl, hmet⟩ := (entry_mem_visits_iff hfs hfolder).mp hv
      exact ⟨_, rfl, by simp [hne], hmet.found, htest below hmet⟩
  obtain ⟨found, hfound, hsub, hmem⟩ := followAll_of_testable hfs hvisits
  have hnodup := hsub.nodup (nodup_places_visits hfs hfolder fs.levels)
  have hlook : fs.lookAt folder = _ := lookAt_of_testable (by
    simpa using htest [] (met_nil hfolder))
  refine ⟨sortFiles found, ⟨pairwise_sortFiles hnodup, fun q there content => ?_⟩, ?_⟩
  · rw [(sortFiles_perm found).mem_iff, hmem, entry_mem_visits_iff hfs hfolder]
    constructor
    · intro ⟨⟨below, _, _, hq, hmet⟩, hat⟩
      exact ⟨below, hq, hmet, hat⟩
    · intro ⟨below, hq, hmet, hat⟩
      refine ⟨⟨below, fun hnil => ?_, ?_, hq, hmet⟩, hat⟩
      · rw [hq, hnil, List.append_nil] at hat
        exact not_fileAt_folder hfolder hat
      · exact Nat.le_succ_of_le (hshallow.length_le hmet)
  · rw [readFolder, hlook, hfound]
    rfl

/-- A folder in which a walk finds files can be looked at, and so can its entries. -/
theorem testable_of_found (hlook : ¬fs.Untestable folder)
    {found : List (Place × Place × Bytes)}
    (h : fs.followAll (fs.visits folder (.folder es) fs.levels) = .ok found) :
    fs.Testable folder ∧ fs.Shallow folder := by
  have hvisits := testable_of_followAll h
  have hshallow : fs.Shallow folder := by
    intro below es' hmet hes'
    by_contra hdeep
    have hlength := List.length_take_of_le (Nat.not_lt.mp hdeep)
    have hsplit := List.take_append_drop fs.levels below
    have habove : fs.Met folder (below.take fs.levels) := by
      rw [← hsplit] at hmet
      exact hmet.above
    obtain ⟨es'', hes''⟩ : ∃ es'', fs.root.at? (folder ++ below.take fs.levels) =
        some (.folder es'') := by
      cases hdrop : below.drop fs.levels with
      | nil =>
        rw [hdrop, List.append_nil] at hsplit
        exact ⟨es', hsplit.symm ▸ hes'⟩
      | cons name rest => exact Met.folder_above (hdrop ▸ hsplit.symm ▸ hmet)
    obtain ⟨q, hq, -⟩ := hvisits .tooDeep
      ((tooDeep_mem_visits_iff hfs hfolder).mpr ⟨_, es'', hlength, hes'', habove⟩)
    cases hq
  refine ⟨fun below hmet => ?_, hshallow⟩
  by_cases hne : below = []
  · rw [hne, List.append_nil]
    exact hlook
  · obtain ⟨q, hq, htest⟩ := hvisits (.entry (folder ++ below))
      ((entry_mem_visits_iff hfs hfolder).mpr ⟨below, hne,
        Nat.le_succ_of_le (hshallow.length_le hmet), rfl, hmet⟩)
    cases hq
    exact htest

end Folder

/-! ## 4. The files of a folder -/

/-- A file that can be read and whose path is a text, from the given depth on. -/
def Selectable (fs : FileSystem) (depth : Nat) (e : Place × Place × Bytes) : Prop :=
  e.2.1 ∉ fs.unreadable ∧ ∀ name ∈ e.1.drop depth, name ∉ fs.garbled

/-- The selected file of a file that is found. -/
def selected (depth : Nat) (e : Place × Place × Bytes) : SelectedFile :=
  ⟨"/".intercalate (e.1.drop depth), e.2.2, (contentType? (e.1.getLastD "")).getD unknownContentType⟩

theorem select_of_selectable {depth : Nat} {e : Place × Place × Bytes}
    (h : fs.Selectable depth e) :
    fs.select depth e.1 e.2.1 e.2.2 = .ok (selected depth e) := by
  have hlegible : (e.1.drop depth).any fs.garbled.contains = false :=
    List.any_eq_false.mpr fun name hname => by simpa using h.2 name hname
  rw [select, if_neg (by simpa using h.1), hlegible]
  rfl

theorem select_of_denied {depth : Nat} {e : Place × Place × Bytes}
    (h : e.2.1 ∈ fs.unreadable) :
    fs.select depth e.1 e.2.1 e.2.2 = .error (.read (.denied (placeText e.1))) := by
  rw [select, if_pos (by simpa using h)]

theorem select_of_garbled {depth : Nat} {e : Place × Place × Bytes}
    (hread : e.2.1 ∉ fs.unreadable) (h : ∃ name ∈ e.1.drop depth, name ∈ fs.garbled) :
    fs.select depth e.1 e.2.1 e.2.2 = .error .notText := by
  have hany : (e.1.drop depth).any fs.garbled.contains = true := by
    simpa [List.any_eq_true] using h
  rw [select, if_neg (by simpa using hread), if_pos hany]

theorem not_selectable_iff {depth : Nat} {e : Place × Place × Bytes} :
    ¬fs.Selectable depth e ↔ e.2.1 ∈ fs.unreadable ∨
      e.2.1 ∉ fs.unreadable ∧ ∃ name ∈ e.1.drop depth, name ∈ fs.garbled := by
  by_cases hread : e.2.1 ∈ fs.unreadable <;> simp [Selectable, hread]

theorem selectAll_cons {depth : Nat} {e : Place × Place × Bytes} (h : fs.Selectable depth e)
    (found : List (Place × Place × Bytes)) :
    fs.selectAll depth (e :: found) =
      (fs.selectAll depth found).map (selected depth e :: ·) := by
  obtain ⟨place, there, content⟩ := e
  rw [selectAll, select_of_selectable h]
  cases fs.selectAll depth found <;> rfl

theorem selectAll_cons_of_error {depth : Nat} {e : Place × Place × Bytes} {trouble : FolderTrouble}
    (h : fs.select depth e.1 e.2.1 e.2.2 = .error trouble)
    (found : List (Place × Place × Bytes)) : fs.selectAll depth (e :: found) = .error trouble := by
  obtain ⟨place, there, content⟩ := e
  rw [selectAll, h]
  rfl

/-- **Files are selected just if each of them can be**, in their order. -/
theorem selectAll_eq_ok_iff (depth : Nat) {found : List (Place × Place × Bytes)}
    {files : List SelectedFile} : fs.selectAll depth found = .ok files ↔
      (∀ e ∈ found, fs.Selectable depth e) ∧ files = found.map (selected depth) := by
  induction found generalizing files with
  | nil => simp [selectAll, eq_comm]
  | cons e found ih =>
    rw [List.forall_mem_cons, List.map_cons]
    by_cases he : fs.Selectable depth e
    · rw [selectAll_cons he]
      constructor
      · intro h
        cases hrest : fs.selectAll depth found with
        | error trouble => rw [hrest] at h; cases h
        | ok others =>
          obtain ⟨hall, rfl⟩ := ih.mp hrest
          rw [hrest] at h
          cases h
          exact ⟨⟨he, hall⟩, rfl⟩
      · intro ⟨⟨_, hall⟩, hfiles⟩
        rw [ih.mpr ⟨hall, rfl⟩, hfiles]
        rfl
    · have herror : ∃ trouble, fs.selectAll depth (e :: found) = .error trouble := by
        rcases not_selectable_iff.mp he with hdenied | ⟨hread, hgarbled⟩
        · exact ⟨_, selectAll_cons_of_error (select_of_denied hdenied) found⟩
        · exact ⟨_, selectAll_cons_of_error (select_of_garbled hread hgarbled) found⟩
      obtain ⟨trouble, htrouble⟩ := herror
      rw [htrouble]
      exact ⟨fun h => (nomatch h), fun ⟨⟨h, _⟩, _⟩ => absurd h he⟩

/-- The files that are found can be selected just if those that are met can be. -/
theorem Finds.selectable_iff {folder : Place} {found : List (Place × Place × Bytes)}
    (h : fs.Finds folder found) :
    (∀ e ∈ found, fs.Selectable (folder.length - 1) e) ↔ fs.Readable folder ∧ fs.Legible folder := by
  constructor
  · intro hall
    have hmet : ∀ below there content, fs.Met folder below →
        FileAt fs (folder ++ below) there content →
        fs.Selectable (folder.length - 1) (folder ++ below, there, content) :=
      fun below there content hmet hat =>
        hall _ ((h.mem_iff _ there content).mpr ⟨below, rfl, hmet, hat⟩)
    exact ⟨fun below there content hbelow hat => (hmet below there content hbelow hat).1,
      fun below there content hbelow hat => (hmet below there content hbelow hat).2⟩
  · intro ⟨hread, hlegible⟩ ⟨q, there, content⟩ he
    obtain ⟨below, rfl, hmet, hat⟩ := (h.mem_iff q there content).mp he
    exact ⟨hread below there content hmet hat, hlegible below there content hmet hat⟩

/-- The selected files of what is found are those that are met. -/
theorem Finds.listsMet {folder : Place} {es : List (String × Node)}
    (hfolder : fs.root.at? folder = some (.folder es)) (hroot : folder ≠ [])
    {found : List (Place × Place × Bytes)} (h : fs.Finds folder found) :
    fs.ListsMet folder (found.map (selected (folder.length - 1))) := by
  have hbelow : ∀ e ∈ found, ∃ below, below ≠ [] ∧ e.1 = folder ++ below ∧
      fs.Met folder below ∧ FileAt fs (folder ++ below) e.2.1 e.2.2 := by
    intro e he
    obtain ⟨below, heq, hmet, hat⟩ := (h.mem_iff e.1 e.2.1 e.2.2).mp he
    rw [heq] at hat
    refine ⟨below, fun hnil => ?_, heq, hmet, hat⟩
    rw [hnil, List.append_nil] at hat
    exact not_fileAt_folder hfolder hat
  refine ⟨found.map fun e => e.1.drop folder.length, ?_, fun below => ?_, ?_⟩
  · refine List.pairwise_map.mpr (h.sorted.imp_of_mem fun {e e'} he he' hlt => ?_)
    obtain ⟨below, -, heq, -⟩ := hbelow e he
    obtain ⟨below', -, heq', -⟩ := hbelow e' he'
    rw [heq, heq'] at hlt
    simpa [heq, heq'] using lt_of_append_lt hlt
  · rw [List.mem_map]
    constructor
    · intro ⟨e, he, hdrop⟩
      obtain ⟨below', hne, heq, hmet, hat⟩ := hbelow e he
      rw [heq, List.drop_left] at hdrop
      subst hdrop
      exact ⟨hne, hmet, _, _, hat⟩
    · intro ⟨_, hmet, there, content, hat⟩
      exact ⟨_, (h.mem_iff _ there content).mpr ⟨below, rfl, hmet, hat⟩, List.drop_left⟩
  · rw [List.forall₂_map_left_iff, List.forall₂_map_right_iff, List.forall₂_same]
    intro e he
    obtain ⟨below, hne, heq, -, hat⟩ := hbelow e he
    rw [selected, heq, List.drop_left]
    refine ⟨?_, ⟨_, hat⟩, ?_⟩
    · obtain ⟨dir, name, rfl⟩ := List.eq_nil_or_concat folder |>.resolve_left hroot
      simp
    · obtain ⟨dir, name, rfl⟩ := List.eq_nil_or_concat below |>.resolve_left hne
      simp

/-- **A folder is read** if every entry can be looked at, none is too deep, and every file can be read
    and has a path that is a text: what a walk finds in it is selected. -/
theorem readFolder_of_testable (hfs : fs.root.Sound) {folder : Place} {es : List (String × Node)}
    (hfolder : fs.root.at? folder = some (.folder es)) (htest : fs.Testable folder)
    (hshallow : fs.Shallow folder) (hread : fs.Readable folder) (hlegible : fs.Legible folder) :
    ∃ found, fs.Finds folder found ∧
      fs.readFolder folder (.folder es) = .ok (found.map (selected (folder.length - 1))) := by
  obtain ⟨found, hfinds, hselect⟩ := exists_finds hfs hfolder htest hshallow
  refine ⟨found, hfinds, ?_⟩
  rw [hselect, selectAll_eq_ok_iff, hfinds.selectable_iff]
  exact ⟨⟨hread, hlegible⟩, rfl⟩

/-- How a folder is read: it cannot be looked at, or the walk through it does not come through, or
    the files that it finds are selected. -/
inductive Reads (fs : FileSystem) (folder : Place) (es : List (String × Node)) :
    Except FolderTrouble (List SelectedFile) → Prop
  | unseen (cause : ReadTrouble) (hlook : fs.Untestable folder) :
      Reads fs folder es (.error (.read cause))
  | lost (trouble : FolderTrouble) (hlook : ¬fs.Untestable folder)
      (hfound : fs.followAll (fs.visits folder (.folder es) fs.levels) = .error trouble) :
      Reads fs folder es (.error trouble)
  | found (found : List (Place × Place × Bytes)) (result : Except FolderTrouble (List SelectedFile))
      (hlook : ¬fs.Untestable folder)
      (hfound : fs.followAll (fs.visits folder (.folder es) fs.levels) = .ok found)
      (hselect : fs.selectAll (folder.length - 1) (sortFiles found) = result) :
      Reads fs folder es result

theorem reads_readFolder (fs : FileSystem) (folder : Place) (es : List (String × Node)) :
    fs.Reads folder es (fs.readFolder folder (.folder es)) := by
  by_cases hlook : fs.Untestable folder
  · obtain ⟨cause, hcause⟩ := lookAt_of_untestable hlook
    rw [readFolder, hcause]
    exact .unseen cause hlook
  · rw [readFolder, lookAt_of_testable hlook]
    cases hfound : fs.followAll (fs.visits folder (.folder es) fs.levels) with
    | error trouble => exact .lost trouble hlook hfound
    | ok found => exact .found found _ hlook hfound rfl

/-- **Only such a folder is read.** -/
theorem testable_of_readFolder (hfs : fs.root.Sound) {folder : Place} {es : List (String × Node)}
    (hfolder : fs.root.at? folder = some (.folder es)) {files : List SelectedFile}
    (h : fs.readFolder folder (.folder es) = .ok files) :
    fs.Testable folder ∧ fs.Shallow folder ∧ fs.Readable folder ∧ fs.Legible folder ∧
      ∃ found, fs.Finds folder found ∧ files = found.map (selected (folder.length - 1)) := by
  have hreads := reads_readFolder fs folder es
  rw [h] at hreads
  obtain ⟨htest, hshallow⟩ : fs.Testable folder ∧ fs.Shallow folder := by
    cases hreads with
    | found found _ hlook hfound hselect => exact testable_of_found hfs hfolder hlook hfound
  obtain ⟨found, hfinds, hselect⟩ := exists_finds hfs hfolder htest hshallow
  rw [hselect, selectAll_eq_ok_iff, hfinds.selectable_iff] at h
  obtain ⟨⟨hread, hlegible⟩, hfiles⟩ := h
  exact ⟨htest, hshallow, hread, hlegible, found, hfinds, hfiles⟩

/-- A path is found to lead to a folder. -/
structure Opens (fs : FileSystem) (path : String) (p : Path) (folder : Place)
    (es : List (String × Node)) : Prop where
  expand : (Path.parse path).expandHome fs.home fs.users = .ok p
  locate : fs.locate p.text = .ok folder
  folder : fs.root.at? folder = some (.folder es)

/-- The selection of a path that leads to a folder. -/
theorem collect_of_opens {path : String} {p : Path} {folder : Place} {es : List (String × Node)}
    (h : fs.Opens path p folder es) :
    fs.collect path = (fs.readFolder folder (.folder es)).mapError (troubleOf p.text) := by
  simp only [collect, h.expand, h.locate, h.folder]

/-- There is a selection only of a path that leads to a folder. -/
theorem exists_opens_of_collect {path : String} {files : List SelectedFile}
    (h : fs.collect path = .ok files) : ∃ p folder es, fs.Opens path p folder es := by
  unfold collect at h
  split at h
  · cases h
  · rename_i p hp
    split at h
    · cases h
    · cases h
    · cases h
    · rename_i folder hlocate
      split at h
      · rename_i es hfolder
        exact ⟨p, folder, es, hp, hlocate, hfolder⟩
      · cases h

theorem exists_opens_of_denotes {path : String} {folder : Place} (h : fs.Denotes path folder) :
    ∃ p es, fs.Opens path p folder es := by
  obtain ⟨p, hp, hlocate⟩ := locate_of_denotes h
  obtain ⟨-, -, es, -, -, -, -, -, hfolder⟩ := h
  exact ⟨p, es, hp, hlocate, hfolder⟩

/-! ## 5. The selection of a path -/

variable {fs' : FileSystem}

theorem Alike.denotes (h : Alike fs fs') {path : String} {folder : Place}
    (hpath : fs.Denotes path folder) : fs'.Denotes path folder := by
  obtain ⟨text, k, es, hspells, hnul, hshort, hk, hfollows, hfolder⟩ := hpath
  obtain ⟨es', hfolder'⟩ := h.folder hfolder
  exact ⟨text, k, es', h.users ▸ h.home ▸ hspells, hnul, hshort, hk,
    h.workingFolder ▸ h.follows hfollows, hfolder'⟩

theorem Alike.listsMet (h : Alike fs fs') {folder : Place} {files : List SelectedFile}
    (hlists : fs.ListsMet folder files) : fs'.ListsMet folder files := by
  obtain ⟨places, hsorted, hmem, hentries⟩ := hlists
  refine ⟨places, hsorted, fun below => (hmem below).trans ?_, hentries.imp ?_⟩
  · exact and_congr_right fun _ => and_congr ⟨h.met, h.symm.met⟩ <|
      exists_congr fun there => exists_congr fun content => ⟨h.fileAt, h.symm.fileAt⟩
  · intro below f ⟨hpath, ⟨there, hat⟩, htype⟩
    exact ⟨hpath, ⟨there, h.fileAt hat⟩, htype⟩

theorem Alike.readable (h : Alike fs fs') {folder : Place} (hread : fs.Readable folder) :
    fs'.Readable folder :=
  fun below there content hmet hat =>
    h.unreadable ▸ hread below there content (h.symm.met hmet) (h.symm.fileAt hat)

theorem Alike.legible (h : Alike fs fs') {folder : Place} (hlegible : fs.Legible folder) :
    fs'.Legible folder :=
  fun below there content hmet hat =>
    h.garbled ▸ hlegible below there content (h.symm.met hmet) (h.symm.fileAt hat)

theorem Alike.shallow (h : Alike fs fs') {folder : Place} (hshallow : fs.Shallow folder) :
    fs'.Shallow folder := by
  intro below es hmet hes
  obtain ⟨es', hes'⟩ := h.symm.folder hes
  exact h.levels ▸ hshallow below es' (h.symm.met hmet) hes'

theorem Alike.testable (h : Alike fs fs') {folder : Place} (htest : fs.Testable folder) :
    fs'.Testable folder :=
  fun below hmet huntest => htest below (h.symm.met hmet) (h.symm.untestable huntest)

/-- A path that denotes a folder of which every file can be read has the files that are met in the
    folder for its selection, if all of these can be had. -/
theorem collect_eq_ok_iff (hfs : fs.root.Sound) {path : String} {folder : Place}
    (hpath : fs.Denotes path folder) (hroot : folder ≠ []) (hread : fs.Readable folder)
    (files : List SelectedFile) : fs.collect path = .ok files ↔
      fs.Testable folder ∧ fs.Shallow folder ∧ fs.Legible folder ∧ fs.ListsMet folder files := by
  obtain ⟨p, es, hopens⟩ := exists_opens_of_denotes hpath
  have hcollect : fs.collect path = .ok files ↔ fs.readFolder folder (.folder es) = .ok files := by
    rw [collect_of_opens hopens]
    cases fs.readFolder folder (.folder es) <;> simp [Except.mapError]
  rw [hcollect]
  constructor
  · intro h
    obtain ⟨htest, hshallow, -, hlegible, found, hfinds, rfl⟩ :=
      testable_of_readFolder hfs hopens.folder h
    exact ⟨htest, hshallow, hlegible, hfinds.listsMet hopens.folder hroot⟩
  · intro ⟨htest, hshallow, hlegible, hlists⟩
    obtain ⟨found, hfinds, hok⟩ :=
      readFolder_of_testable hfs hopens.folder htest hshallow hread hlegible
    rw [hok, hlists.unique (hfinds.listsMet hopens.folder hroot)]

/-- **A file that is denied keeps a folder from being read**, however many others there are. -/
theorem collect_of_not_readable (hfs : fs.root.Sound) {path : String} {folder : Place}
    (hpath : fs.Denotes path folder) (hread : ¬fs.Readable folder) :
    ∃ trouble, fs.collect path = .error trouble := by
  obtain ⟨p, es, hopens⟩ := exists_opens_of_denotes hpath
  rw [collect_of_opens hopens]
  cases hfiles : fs.readFolder folder (.folder es) with
  | ok files => exact absurd (testable_of_readFolder hfs hopens.folder hfiles).2.2.1 hread
  | error cause => exact ⟨_, rfl⟩

/-- If every file is met, the files are those that are met. -/
theorem Listed.listsMet_iff {folder : Place} (h : fs.Listed folder) {files : List SelectedFile} :
    fs.ListsMet folder files ↔ fs.Lists folder files := by
  have hsame : (fun below => below ≠ [] ∧ fs.Met folder below ∧
      ∃ there content, FileAt fs (folder ++ below) there content) =
      fun below => below ≠ [] ∧ ∃ there content, FileAt fs (folder ++ below) there content := by
    funext below
    refine propext (and_congr_right fun _ => ⟨fun hmet => hmet.2, ?_⟩)
    intro ⟨there, content, hat⟩
    exact ⟨h below there content hat, there, content, hat⟩
  rw [ListsMet, hsame, Lists]

/-- **The selection of a path that denotes a folder** below which every file can be read, and that is
    not the root. It holds the files of the folder and nothing else just if all of them can be had;
    and a selection is the same whatever the order in which folders list their entries. -/
theorem collect_of_folder (hfs : fs.root.Sound) {path : String} {folder : Place}
    (hpath : fs.Denotes path folder) (hroot : folder ≠ []) (hread : fs.Readable folder) :
    (fs.Complete folder ↔ ∃ files, fs.collect path = .ok files ∧ fs.Lists folder files) ∧
      ∀ files, fs.collect path = .ok files → ∀ root, Relisted fs.root root →
        ({ fs with root := root } : FileSystem).collect path = .ok files := by
  have hok := collect_eq_ok_iff hfs hpath hroot hread
  obtain ⟨p, es, hopens⟩ := exists_opens_of_denotes hpath
  refine ⟨⟨fun hcomplete => ?_, fun ⟨files, hfiles, hlists⟩ => ?_⟩,
    fun files hfiles root hrelisted => ?_⟩
  · obtain ⟨htest, hshallow, hlegible, hlisted⟩ := hcomplete
    obtain ⟨found, hfinds, -⟩ := exists_finds hfs hopens.folder htest hshallow
    have hlists := hfinds.listsMet hopens.folder hroot
    exact ⟨_, (hok _).mpr ⟨htest, hshallow, hlegible, hlists⟩, hlisted.listsMet_iff.mp hlists⟩
  · obtain ⟨htest, hshallow, hlegible, hmet⟩ := (hok files).mp hfiles
    refine ⟨htest, hshallow, hlegible, fun below there content hat => ?_⟩
    -- the selection is one of the files that are met and one of all files: it leaves none out
    have hne : below ≠ [] := by
      intro hnil
      rw [hnil, List.append_nil] at hat
      exact not_fileAt_folder hopens.folder hat
    have hall := hmet.of_imp hlists (fun below h => ⟨h.1, h.2.2⟩) ⟨hne, there, content, hat⟩
    exact hall.2.1
  · have hs := alike_of_relisted hfs hrelisted
    obtain ⟨htest, hshallow, hlegible, hlists⟩ := (hok files).mp hfiles
    exact (collect_eq_ok_iff (hfs.relisted hrelisted) (hs.denotes hpath) hroot
      (hs.readable hread) files).mpr
      ⟨hs.testable htest, hs.shallow hshallow, hs.legible hlegible, hs.listsMet hlists⟩

/-- Where no folder is unlisted everything that stands below a folder is met. -/
theorem listed_of_unlisted (h : fs.unlisted = []) (folder : Place) : fs.Listed folder :=
  fun _ _ _ hat => ⟨hat.isSome, fun _ _ _ _ => h ▸ List.not_mem_nil⟩

/-- A folder in which a walk finds files is complete, where every folder is listed and every name a
    text. -/
theorem complete_of_isOk (hfs : fs.root.Sound) {folder : Place} {es : List (String × Node)}
    (hfolder : fs.root.at? folder = some (.folder es)) (hunlisted : fs.unlisted = [])
    (hgarbled : fs.garbled = []) (hlook : (fs.lookAt folder).isOk = true)
    (hfound : (fs.followAll (fs.visits folder (.folder es) fs.levels)).isOk = true) :
    fs.Complete folder := by
  have htest : ¬fs.Untestable folder := by
    intro huntest
    obtain ⟨cause, hcause⟩ := lookAt_of_untestable huntest
    rw [hcause] at hlook
    cases hlook
  cases hfollow : fs.followAll (fs.visits folder (.folder es) fs.levels) with
  | error trouble => rw [hfollow] at hfound; cases hfound
  | ok found =>
    obtain ⟨htest, hshallow⟩ := testable_of_found hfs hfolder htest hfollow
    exact ⟨htest, hshallow, fun _ _ _ _ _ _ _ => hgarbled ▸ List.not_mem_nil,
      listed_of_unlisted hunlisted folder⟩

/-- A home directory with a folder of files, folders and links of every kind. -/
def workshop : FileSystem where
  root := .folder [("home", .folder [
    ("d", .folder [
      ("twin", .link "a/b.txt"), ("up", .link ".."), ("gone", .link "nowhere"),
      ("loop", .link "loop"), ("a-b", .file [121]), ("a", .folder [("b.txt", .file [120])])]),
    ("near", .link "d")])]
  workingFolder := ["home"]
  home := "/home"

/-- The same home directory, its entries listed the other way round. -/
def workshopRelisted : Node :=
  .folder [("home", .folder [
    ("near", .link "d"),
    ("d", .folder [
      ("a", .folder [("b.txt", .file [120])]), ("a-b", .file [121]), ("loop", .link "loop"),
      ("gone", .link "nowhere"), ("up", .link ".."), ("twin", .link "a/b.txt")])])]

theorem denotes_workshop : workshop.Denotes "~/near/../d/." ["home", "d"] := by
  have hspells : Spells "/home" [] "~/near/../d/."
      ("/home" ++ "/" ++ "/".intercalate ["near", "..", "d"]) :=
    .home (by decide +kernel) (by decide +kernel : _ = "~" :: _) rfl rfl (by decide +kernel)
  have hparts : partsOf ("/home" ++ "/" ++ "/".intercalate ["near", "..", "d"]).toList =
      ["home", "near", "..", "d"] := by decide +kernel
  have hwalk : workshop.walk linkLimit [] ["home", "near", "..", "d"] = .ok ["home", "d"] := by
    decide +kernel
  obtain ⟨k, hk, hfollows⟩ := walk_eq_ok_iff.mp hwalk
  exact ⟨_, k, _, hspells, by decide +kernel, by decide +kernel, hk, by rw [hparts]; exact hfollows,
    rfl⟩

/-- The home directory is read through a tilde, a link and a component up. -/
theorem collect_workshop :
    workshop.root.Sound ∧ workshop.Denotes "~/near/../d/." ["home", "d"] ∧
      workshop.Readable ["home", "d"] ∧ workshop.Complete ["home", "d"] ∧
      ∃ files, workshop.collect "~/near/../d/." = .ok files ∧
        workshop.Lists ["home", "d"] files ∧
        ({ workshop with root := workshopRelisted } : FileSystem).collect "~/near/../d/." =
          .ok files := by
  have hsound : workshop.root.Sound := by decide +kernel
  have hread : workshop.Readable ["home", "d"] := fun _ _ _ _ _ => List.not_mem_nil
  have hcomplete : workshop.Complete ["home", "d"] :=
    complete_of_isOk hsound rfl rfl rfl (by decide +kernel) (by decide +kernel)
  have hrelisted : Relisted workshop.root workshopRelisted :=
    .folder (.cons (.folder (.cons (.folder (.refl _) (List.reverse_perm _).symm)
      (.cons (.refl _) .nil)) (List.reverse_perm _).symm) .nil) (.refl _)
  obtain ⟨hlists, horder⟩ := collect_of_folder hsound denotes_workshop (by decide) hread
  obtain ⟨files, hfiles, hfiles'⟩ := hlists.mp hcomplete
  exact ⟨hsound, denotes_workshop, hread, hcomplete, files, hfiles, hfiles',
    horder files hfiles _ hrelisted⟩

/-- A file, and a link to a name of 256 letters. -/
def longLinkEntries : List (String × Node) :=
  [("f", .file [120]), ("l", .link (String.ofList (List.replicate 256 'a')))]

/-- A file system with these in a folder. -/
def longLink : FileSystem where
  root := .folder [("d", .folder longLinkEntries)]
  workingFolder := []
  home := "/"

/-- The link is followed to a name that is too long. -/
theorem walk_longLink : longLink.walk linkLimit [] ["d", "l"] = .error .nameTooLong := by
  have hparts : partsOf (String.ofList (List.replicate 256 'a')).toList =
      [String.ofList (List.replicate 256 'a')] := by
    rw [String.toList_ofList]
    decide +kernel
  have hstart : startOf ["d"] (String.ofList (List.replicate 256 'a')).toList = ["d"] := by
    rw [String.toList_ofList]
    rfl
  have hlong : (String.ofList (List.replicate 256 'a')).utf8ByteSize = 256 := by decide +kernel
  have hopen : ∀ here, here ∉ longLink.closed := fun _ => List.not_mem_nil
  have hd : IsName "d" := ⟨by decide, by decide, by decide, by decide⟩
  have hl : IsName "l" := ⟨by decide, by decide, by decide, by decide⟩
  have hentry : [("d", Node.folder longLinkEntries)].lookup "d" = some (.folder longLinkEntries) := rfl
  have hdown : longLink.Step [] ["d", "l"] 0 ["d"] ["l"] :=
    .down rfl (hopen _) hd hentry fun _ e => by cases e
  have hlink : longLink.Step ["d"] ["l"] 1
      (startOf ["d"] (String.ofList (List.replicate 256 'a')).toList)
      (partsOf (String.ofList (List.replicate 256 'a')).toList ++ []) :=
    .link rfl (hopen _) hl rfl (by rw [hlong]; decide)
  rw [hparts, hstart] at hlink
  have hfollows : longLink.Follows [] ["d", "l"] 1 ["d"] [String.ofList (List.replicate 256 'a')] :=
    .step hdown (.step hlink .refl)
  exact (walk_of_follows hfollows 39).trans
    (walk_of_bars (.name rfl (hopen _) (by rw [hlong]; decide)) [] 39)

theorem readFolder_longLink : longLink.readFolder ["d"] (.folder longLinkEntries) =
    .error (.read (.nameTooLong "/d/l")) := by
  have hlook : longLink.lookAt ["d"] = .ok (some ["d"]) := by decide +kernel
  have hvisits : longLink.visits ["d"] (.folder longLinkEntries) longLink.levels =
      [.entry ["d", "f"], .entry ["d", "l"]] := by decide +kernel
  have hfile : longLink.fileAt? ["d", "f"] = .ok (some (["d", "f"], [120])) := by decide +kernel
  have hlink : longLink.fileAt? ["d", "l"] = .error (.nameTooLong "/d/l") := by
    rw [fileAt?, lookAt, if_neg (by decide +kernel), walk_longLink]
    decide +kernel
  rw [readFolder, hlook]
  dsimp only
  rw [hvisits, followAll, hfile, followAll, hlink]
  rfl

/-- **A link that leads nowhere can keep a folder from being read.** Every file below it can be read,
    but a link to a name that is too long is not skipped as other links are: there is no selection. -/
theorem collect_longLink :
    longLink.root.Sound ∧ longLink.Denotes "d" ["d"] ∧ longLink.Readable ["d"] ∧
      FileAt longLink ["d", "f"] ["d", "f"] [120] ∧
      longLink.collect "d" = .error (.unreadable "d" (.nameTooLong "/d/l")) := by
  have hcomponents : componentsOf "d" = ["d"] := by decide +kernel
  have hspells : Spells "/" [] "d" "d" := .plain (by decide) (.inr (by simp [hcomponents]))
  have hwalk : longLink.walk linkLimit [] ["d"] = .ok ["d"] := by decide +kernel
  obtain ⟨k, hk, hfollows⟩ := walk_eq_ok_iff.mp hwalk
  refine ⟨by decide +kernel, ?_, fun _ _ _ _ _ => List.not_mem_nil, .file rfl, ?_⟩
  · exact ⟨"d", k, _, hspells, by decide +kernel, by decide +kernel, hk, hfollows, rfl⟩
  · have hopens : longLink.Opens "d" ⟨.here, ["d"]⟩ ["d"] longLinkEntries :=
      ⟨by decide +kernel, by decide +kernel, rfl⟩
    rw [collect_of_opens hopens, readFolder_longLink]
    rfl

end CodeSession.Folder.FileSystem
