import CodeSession.Proofs.Backend.Filenames
import CodeSession.Proofs.Folder.Naming
import CodeSession.Proofs.Session.Selections

/-!
# File names of a folder

The names of the files in the request that a chosen folder comes to.

* `ne_nil_of_issued?` -- a request that uploads has files;
* `collect_of_issued` -- a call that chose a folder sends the selection of this folder;
* `filenames_of_folder` -- the files have different paths, and their names in the request differ
  just if no two of the paths are confusable;
* `filenames_of_quoteFirst` -- a folder with two files of one name.
-/

namespace CodeSession.Session

open Backend Multipart Folder Text

variable {facts : Facts} {w : World} {c : Call} {wake : Wake} {s : Session} {m : Move}

/-! ## 1. Requests of a call -/

/-- A call that holds no files sends nothing. -/
theorem client_of_held_nil (hc : c.load? = some (.held [])) :
    (behaviour facts c wake w).state.client = w.client := by
  have hrefused : ∀ w : World, (beginUpload facts [] w).state = w := fun w => by
    rw [beginUpload_refused facts (.inl rfl)]
    rfl
  cases c with
  | upload files =>
    cases hc
    cases wake with
    | cancelled => rfl
    | go =>
      have hrun : behaviour facts (.upload []) .go w =
        if facts.closed then w.done [] (some false) else beginUpload facts [] w := rfl
      rw [hrun]
      split
      · rfl
      · rw [hrefused]
  | reading path held read =>
    obtain _ | t | files := read
    · cases hc
    · cases hc
    · cases hc
      cases wake with
      | cancelled => rfl
      | go =>
        have hrun : behaviour facts (.reading path held (some (.ok []))) .go w =
            beginUpload facts [] { w with ingest := w.ingest.select [] } := rfl
        rw [hrun, hrefused]
  | _ => cases hc

/-- **A request that uploads has files.** -/
theorem ne_nil_of_issued? (ht : Tidy s) {b : Batch} (h : s.issued? m = some b) : b.files ≠ [] := by
  intro hnil
  rcases calm_or_run ht.listeners m with hcalm | ⟨rfl, t, c, wake, hrun⟩
  · rw [issued?_of_calm hcalm] at h
    cases h
  · obtain ⟨-, hload⟩ := held_of_issued? ht hrun h
    have hclient : (s.step .turn).state.client = s.state.client := by
      rw [state_of_run hrun]
      exact client_of_held_nil (hnil ▸ hload)
    have hnone : s.issued? .turn = none := by
      simp [issued?, hclient]
    rw [hnone] at h
    cases h

/-! ## 2. The request of a folder -/

/-- **A call that chose a folder sends the selection of this folder**, if it is given the files that
    it waits for. -/
theorem collect_of_issued (client : Client) (delay : Binary64) (greeting : Option String)
    (fs : FileSystem) (ms : List Move) (path : String) (ns : List Move)
    {batch : List SelectedFile} :
    let s := (opened client delay greeting fs).play ms
    let t := s.tasks.length
    let start := s.step (.launch (.choose path))
    (∀ selected, .read t selected ∈ ns → selected = fs.collect path) →
    ⟨t, batch⟩ ∈ log issued? start ns → batch ≠ [] ∧ fs.collect path = .ok batch := by
  intro s t start hread hbatch
  have hplay : ∀ before, start.play before =
      (opened client delay greeting fs).play (ms ++ .launch (.choose path) :: before) :=
    fun before => (play_append _ ms (.launch (.choose path) :: before)).symm
  have hlog : ∀ {α : Type} (event? : Session → Move → Option α) before,
      log event? (opened client delay greeting fs) (ms ++ .launch (.choose path) :: before) =
        log event? (opened client delay greeting fs) ms ++
          ((event? s (.launch (.choose path))).toList ++ log event? start before) :=
    fun event? before => log_append _ _ _
  have hbooks := fun before =>
    unmixed_play client delay greeting fs (ms ++ .launch (.choose path) :: before)
  constructor
  · obtain ⟨before, m, after, -, hissued⟩ := exists_of_mem_log hbatch
    refine ne_nil_of_issued? ?_ hissued
    rw [hplay]
    exact tidy_play client delay greeting fs _
  · have hgiven : ⟨t, batch⟩ ∈ log given? start ns := by
      have hown := (hbooks ns).own
      rw [hlog, hlog] at hown
      have hall := hown (List.mem_append_right _ (List.mem_append_right _ hbatch))
      rcases List.mem_append.mp hall with hbefore | hafter
      · have hlt := (unmixed_play client delay greeting fs ms).known _ hbefore
        exact absurd hlt (Nat.lt_irrefl t)
      · exact hafter
    obtain ⟨before, m, after, hns, hm⟩ := exists_of_mem_log hgiven
    rcases given?_eq_some_iff.mp hm with ⟨-, hnew⟩ | ⟨hm, -⟩
    · -- the call is not launched a second time
      have hknown : t ∈ log selecting? (opened client delay greeting fs)
          (ms ++ .launch (.choose path) :: before) := by
        rw [hlog]
        exact List.mem_append_right _ (List.mem_append_left _ (List.mem_singleton.mpr rfl))
      have hlt := ((hbooks before).selecting t hknown).1
      rw [← hplay] at hlt
      exact absurd hnew (Nat.ne_of_lt hlt)
    · refine (hread (.ok batch) ?_).symm
      rw [hns, hm]
      exact List.mem_append_right _ List.mem_cons_self

/-- **The names of the files of a folder.** In the request that a chosen folder comes to, each file
    has a path of its own, but not always a name: the names differ just if no two of the paths are
    confusable, as they are written in the header and as a reader of the body sees them. It is
    enough that no path needs an encoding, or that none has a percent sign. -/
theorem filenames_of_folder (client : Client) (delay : Binary64) (greeting : Option String)
    (fs : FileSystem) (ms : List Move) (path : String) (ns : List Move) :
    let s := (opened client delay greeting fs).play ms
    let t := s.tasks.length
    let start := s.step (.launch (.choose path))
    fs.root.Sound → (∀ selected, .read t selected ∈ ns → selected = fs.collect path) →
    ∀ batch : List SelectedFile, ⟨t, batch⟩ ∈ log issued? start ns →
      let distinct := batch.Pairwise fun f g =>
        ¬Confusable f.relativePath.toList g.relativePath.toList
      (batch.map SelectedFile.relativePath).Nodup ∧
      ((batch.map fun f => fileName f.relativePath).Nodup ↔ distinct) ∧
      (((∀ f ∈ batch, ∀ c ∈ f.relativePath.toList, ¬Hidden c) ∨
        ∀ f ∈ batch, '%' ∉ f.relativePath.toList) → distinct) ∧
      ∀ boundary : String, '\r' ∉ boundary.toList →
        (∀ f ∈ batch, ¬Utf8.encode boundary <:+: f.content) →
        ∃ parts, entries boundary ((Request.upload batch).body boundary) = some parts ∧
          parts.length = batch.length ∧ ((parts.map Entry.filename).Nodup ↔ distinct) := by
  intro s t start hfs hread batch hbatch distinct
  obtain ⟨hne, hcollect⟩ := collect_of_issued client delay greeting fs ms path ns hread hbatch
  have hpaths := FileSystem.nodup_of_collect hfs hcollect
  refine ⟨hpaths, nodup_names_iff fileName_eq_iff, pairwise_not_confusable hpaths, ?_⟩
  intro boundary hboundary hcontents
  have htypes := FileSystem.notMem_contentType_of_collect hfs hcollect
  have hentries := (entries_body_iff hne hboundary htypes).mpr fun f hf =>
    not_infix_content (hcontents f hf)
  refine ⟨batch.map Entry.ofFile, hentries, List.length_map _, ?_⟩
  rw [List.map_map]
  exact nodup_names_iff seenName_eq_iff

/-! ## 3. Two files -/

/-- A folder of two files. -/
def twoFiles (name name' : String) : FileSystem where
  root := .folder [("d", .folder [(name, .file [120]), (name', .file [121])])]
  workingFolder := []
  home := "/"

/-- What the two are selected as, if they have no extension. -/
def bothFiles (name name' : String) : List SelectedFile :=
  [⟨"d/" ++ name, [120], unknownContentType⟩, ⟨"d/" ++ name', [121], unknownContentType⟩]

/-- A new session in which the folder is chosen. -/
def chose (fs : FileSystem) : Session :=
  (opened sample.state.client defaultDelay none fs).step (.launch (.choose "d"))

/-- The folder is read and uploaded. -/
def choosing (selected : Selected) : List Move :=
  [.turn, .read 0 selected, .turn]

theorem read_of_choosing {selected selected' : Selected}
    (h : .read 0 selected ∈ choosing selected') : selected = selected' := by
  simpa [choosing] using h

theorem collect_quoteLast :
    (twoFiles "a%22b" "b\"c").collect "d" = .ok (bothFiles "a%22b" "b\"c") := by
  have hopens : (twoFiles "a%22b" "b\"c").Opens "d" ⟨.here, ["d"]⟩ ["d"]
      [("a%22b", .file [120]), ("b\"c", .file [121])] :=
    ⟨by decide +kernel, by decide +kernel, rfl⟩
  exact FileSystem.collect_of_sorted hopens
    [(["d", "a%22b"], ["d", "a%22b"], [120]), (["d", "b\"c"], ["d", "b\"c"], [121])]
    (by decide +kernel) (by decide +kernel) (by decide +kernel) (by decide +kernel)

/-- A name with a percent sign and one with a quote that differ in the request. -/
theorem filenames_of_quoteLast :
    let fs := twoFiles "a%22b" "b\"c"
    let batch := bothFiles "a%22b" "b\"c"
    fs.root.Sound ∧
      (∀ selected, .read 0 selected ∈ choosing (.ok batch) → selected = fs.collect "d") ∧
      log issued? (chose fs) (choosing (.ok batch)) = [⟨0, batch⟩] ∧
      (batch.map fun f => fileName f.relativePath) = ["d/a%22b", "d/b%22c"] ∧
      ∃ parts, entries "0f" ((Request.upload batch).body "0f") = some parts ∧ parts.length = 2 ∧
        (parts.map Entry.filename).Nodup := by
  intro fs batch
  have hsound : fs.root.Sound := by decide +kernel
  have hread : ∀ selected, .read 0 selected ∈ choosing (.ok batch) → selected = fs.collect "d" :=
    fun selected h => (read_of_choosing h).trans collect_quoteLast.symm
  have hissued : log issued? (chose fs) (choosing (.ok batch)) = [⟨0, batch⟩] := by decide +kernel
  obtain ⟨-, hnames, -, hparts⟩ :=
    filenames_of_folder sample.state.client defaultDelay none fs [] "d" (choosing (.ok batch))
      hsound hread batch (hissued ▸ List.mem_singleton.mpr rfl)
  have hwritten : (batch.map fun f => fileName f.relativePath) = ["d/a%22b", "d/b%22c"] := by
    decide +kernel
  have hdistinct := hnames.mp (hwritten ▸ by decide)
  obtain ⟨parts, hentries, hlength, hiff⟩ := hparts "0f" (by decide) (by decide +kernel)
  exact ⟨hsound, hread, hissued, hwritten, parts, hentries, hlength, hiff.mpr hdistinct⟩

theorem collect_quoteFirst :
    (twoFiles "a\"b" "a%22b").collect "d" = .ok (bothFiles "a\"b" "a%22b") := by
  have hopens : (twoFiles "a\"b" "a%22b").Opens "d" ⟨.here, ["d"]⟩ ["d"]
      [("a\"b", .file [120]), ("a%22b", .file [121])] :=
    ⟨by decide +kernel, by decide +kernel, rfl⟩
  exact FileSystem.collect_of_sorted hopens
    [(["d", "a\"b"], ["d", "a\"b"], [120]), (["d", "a%22b"], ["d", "a%22b"], [121])]
    (by decide +kernel) (by decide +kernel) (by decide +kernel) (by decide +kernel)

/-- **Two files of one selection can have one name in the request**: the quote of the one is written
    as the other spells it. -/
theorem filenames_of_quoteFirst :
    let fs := twoFiles "a\"b" "a%22b"
    let batch := bothFiles "a\"b" "a%22b"
    fs.root.Sound ∧ fs.collect "d" = .ok batch ∧
      log issued? (chose fs) (choosing (fs.collect "d")) = [⟨0, batch⟩] ∧
      (batch.map SelectedFile.relativePath).Nodup ∧
      (batch.map fun f => fileName f.relativePath) = ["d/a%22b", "d/a%22b"] ∧
      (batch.map fun f => seenName f.relativePath) = ["d/a%22b", "d/a%22b"] := by
  intro fs batch
  have hissued : log issued? (chose fs) (choosing (.ok batch)) = [⟨0, batch⟩] := by decide +kernel
  exact ⟨by decide +kernel, collect_quoteFirst, collect_quoteFirst ▸ hissued, by decide +kernel,
    by decide +kernel, by decide +kernel⟩

end CodeSession.Session
