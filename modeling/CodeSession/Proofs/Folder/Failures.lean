import CodeSession.Proofs.Folder.Listing

/-!
# Why a folder is not collected

The troubles of a selection, told by the path text and the tree. Most are troubles of the folder. The
others are those of the path text, before anything of the folder is looked at, and two of the walk
through it: a folder that is nested too deep, and a path that is no text.

* `UnknownHome` -- the path begins with a home directory that is not known;
* `Unprobed` -- the path is too long to be looked at, or stopped on its way;
* `Plunges`, `Stumbles` -- a walk through a folder goes too deep, or comes to a name that is no text,
  before anything else is found amiss;
* `Collected`, `collect_cases` -- which of them, if any, a selection comes to;
* `Probed`, `probed_iff` -- a selection or a trouble of the folder is all there is just for the paths
  of which none of these holds.
-/

namespace CodeSession.Folder

open Text

/-! ## 1. Home directories -/

/-- A path that begins with a tilde, and with a name after it that no user has or may have, or that
    stands for a home directory which itself begins with a tilde. -/
def UnknownHome (home : String) (users : List (String × String)) (path : String) : Prop :=
  Path.anchorOf path.toList = .here ∧ ∃ c name rest, componentsOf path = c :: rest ∧
    c.toList = '~' :: name ∧
    ∀ text, Path.homeText home users name = .ok text → text.toList.head? = some '~'

theorem homeOf?_eq_none_iff {home : String} :
    Path.homeOf? home = none ↔ home.toList.head? = some '~' := by
  unfold Path.homeOf?
  by_cases htilde : home.toList.head? = some '~'
  · obtain ⟨rest, hrest⟩ := List.head?_eq_some_iff.mp htilde
    simp [hrest]
  · simp only [beq_iff_eq, htilde, if_false, iff_false]
    split <;> exact fun h => by cases h

/-- The home directory of a path is not known. -/
theorem expandHome_eq_error_iff {home path : String} {users : List (String × String)} :
    (∃ cause, (Path.parse path).expandHome home users = .error cause) ↔
      UnknownHome home users path := by
  unfold Path.expandHome Path.parse UnknownHome
  dsimp only
  split
  · rename_i c rest hhere hcomponents
    rw [hhere, hcomponents]
    split
    · rename_i name htilde
      have hname : (∃ c' name' rest', c :: rest = c' :: rest' ∧ c'.toList = '~' :: name' ∧
          ∀ text, Path.homeText home users name' = .ok text → text.toList.head? = some '~') ↔
          ∀ text, Path.homeText home users name = .ok text → text.toList.head? = some '~' := by
        constructor
        · intro ⟨c', name', rest', heq, htilde', hall⟩
          cases heq
          cases htilde.symm.trans htilde'
          exact hall
        · exact fun hall => ⟨c, name, rest, rfl, htilde, hall⟩
      rw [hname]
      cases htext : Path.homeText home users name with
      | error cause => simp
      | ok text =>
        have hone : (∀ text', (.ok text : Except Path.HomeTrouble String) = .ok text' →
            text'.toList.head? = some '~') ↔ text.toList.head? = some '~' := by simp
        rw [hone, ← homeOf?_eq_none_iff]
        dsimp only
        cases Path.homeOf? text with
        | none => simp
        | some h => simp
    · rename_i hplain
      refine ⟨fun ⟨_, h⟩ => (nomatch h), fun ⟨_, c', name, rest', heq, htilde, _⟩ => ?_⟩
      cases heq
      exact absurd htilde (hplain name)
  · rename_i hother
    refine ⟨fun ⟨_, h⟩ => (nomatch h), fun ⟨hhere, c, name, rest, hcomponents, _⟩ => ?_⟩
    exact absurd hcomponents (hother c rest hhere)

/-! ## 2. Paths that cannot be looked at -/

namespace FileSystem

variable {fs : FileSystem}

/-- A path text that cannot be looked at: it is too long, or stopped on its way. -/
def Unprobed (fs : FileSystem) (text : String) : Prop :=
  '\x00' ∉ text.toList ∧ (pathLimit ≤ text.utf8ByteSize ∨
    fs.Barred (startOf fs.workingFolder text.toList) (partsOf text.toList))

theorem locate_eq_error_iff {text : String} :
    (∃ e : WalkTrouble, e.stops = true ∧ fs.locate text = .error e) ↔ fs.Unprobed text := by
  unfold locate locateFrom Unprobed
  dsimp only
  by_cases hnul : '\x00' ∈ text.toList
  · simp only [List.contains_iff_mem, hnul, if_true, not_true, false_and, iff_false]
    rintro ⟨e, he, heq⟩
    cases heq
    cases he
  · by_cases hlong : pathLimit ≤ text.utf8ByteSize
    · simp only [List.contains_iff_mem, hnul, if_false, hlong, if_true, not_false_iff, true_or,
        and_true, iff_true]
      exact ⟨.nameTooLong, rfl, rfl⟩
    · simp only [List.contains_iff_mem, hnul, if_false, hlong, not_false_iff, false_or, true_and]
      exact barred_iff.symm

/-! ## 3. Folders that a walk does not get through -/

/-- A walk through a folder comes to a folder that lies too deep, all entries before it being such
    as can be looked at. -/
def Plunges (fs : FileSystem) (folder : Place) (es : List (String × Node)) : Prop :=
  ¬fs.Untestable folder ∧ ∃ before after,
    fs.visits folder (.folder es) fs.levels = before ++ .tooDeep :: after ∧
    ∀ q, .entry q ∈ before → ¬fs.Untestable q

/-- A folder that a walk gets through holds a file whose path is no text, and none that comes before
    it in their order is denied, nor the file itself. -/
def Stumbles (fs : FileSystem) (folder : Place) : Prop :=
  fs.Testable folder ∧ fs.Shallow folder ∧ ∃ below there content,
    fs.Met folder below ∧ FileAt fs (folder ++ below) there content ∧
    (∃ name ∈ (folder ++ below).drop (folder.length - 1), name ∈ fs.garbled) ∧
    ∀ below' there' content', fs.Met folder below' → FileAt fs (folder ++ below') there' content' →
      folder ++ below' ≤ folder ++ below → there' ∉ fs.unreadable

/-- Entries are followed until one cannot be looked at. -/
theorem followAll_cons {place : Place} {rest : List Visit} {trouble : FolderTrouble} :
    fs.followAll (.entry place :: rest) = .error trouble ↔
      (∃ cause, fs.fileAt? place = .error cause ∧ trouble = .read cause) ∨
        ¬fs.Untestable place ∧ fs.followAll rest = .error trouble := by
  rw [followAll]
  cases hfile : fs.fileAt? place with
  | error cause =>
    have htest : fs.Untestable place := fileAt?_eq_error_iff.mp ⟨cause, hfile⟩
    simp [htest, eq_comm]
  | ok file =>
    have htest : ¬fs.Untestable place := by
      intro huntest
      obtain ⟨cause, hcause⟩ := fileAt?_eq_error_iff.mpr huntest
      cases hcause.symm.trans hfile
    cases file with
    | none => simp [htest]
    | some found => cases fs.followAll rest <;> simp [htest, Except.map]

theorem followAll_eq_tooDeep_iff {vs : List Visit} :
    fs.followAll vs = .error .tooDeep ↔ ∃ before after, vs = before ++ .tooDeep :: after ∧
      ∀ q, .entry q ∈ before → ¬fs.Untestable q := by
  induction vs with
  | nil => simp [followAll]
  | cons v rest ih =>
    cases v with
    | tooDeep =>
      exact ⟨fun _ => ⟨[], rest, rfl, fun q hq => absurd hq List.not_mem_nil⟩, fun _ => rfl⟩
    | entry place =>
      rw [followAll_cons]
      constructor
      · intro h
        obtain ⟨cause, -, hread⟩ | ⟨htest, h⟩ := h
        · cases hread
        · obtain ⟨before, after, rfl, hbefore⟩ := ih.mp h
          refine ⟨.entry place :: before, after, rfl, fun q hq => ?_⟩
          rcases List.mem_cons.mp hq with heq | hq
          · cases heq
            exact htest
          · exact hbefore q hq
      · intro h
        obtain ⟨before, after, hvs, hbefore⟩ := h
        cases before with
        | nil => cases hvs
        | cons v before =>
          cases hvs
          exact .inr ⟨hbefore place List.mem_cons_self, ih.mpr ⟨before, after, rfl,
            fun q hq => hbefore q (List.mem_cons_of_mem _ hq)⟩⟩

/-- What is followed is never found to be no text. -/
theorem followAll_ne_notText (vs : List Visit) : fs.followAll vs ≠ .error .notText := by
  induction vs with
  | nil => exact fun h => (nomatch h)
  | cons v rest ih =>
    cases v with
    | tooDeep => exact fun h => (nomatch h)
    | entry place =>
      rw [Ne, followAll_cons]
      intro h
      obtain ⟨cause, -, hread⟩ | ⟨-, h⟩ := h
      · cases hread
      · exact ih h

/-- What is selected is never found to be too deep. -/
theorem selectAll_ne_tooDeep (fs : FileSystem) (depth : Nat) (found : List (Place × Place × Bytes)) :
    fs.selectAll depth found ≠ .error .tooDeep := by
  induction found with
  | nil => exact fun h => (nomatch h)
  | cons e found ih =>
    by_cases he : fs.Selectable depth e
    · rw [selectAll_cons he]
      cases hrest : fs.selectAll depth found with
      | ok others => exact fun h => (nomatch h)
      | error trouble =>
        rw [hrest] at ih
        exact ih
    · rcases not_selectable_iff.mp he with hdenied | ⟨hread, hgarbled⟩
      · rw [selectAll_cons_of_error (select_of_denied hdenied)]
        exact fun h => (nomatch h)
      · rw [selectAll_cons_of_error (select_of_garbled hread hgarbled)]
        exact fun h => (nomatch h)

/-- **The first file that cannot be selected decides**: it is denied, or its path is no text. -/
theorem selectAll_eq_notText_iff {depth : Nat} {found : List (Place × Place × Bytes)}
    (hsorted : found.Pairwise fun a b => a.1 < b.1) : fs.selectAll depth found = .error .notText ↔
      ∃ e ∈ found, (∃ name ∈ e.1.drop depth, name ∈ fs.garbled) ∧
        ∀ e' ∈ found, e'.1 ≤ e.1 → e'.2.1 ∉ fs.unreadable := by
  induction found with
  | nil => simp [selectAll]
  | cons e found ih =>
    obtain ⟨hfirst, hrest⟩ := List.pairwise_cons.mp hsorted
    have hle : ∀ e' ∈ e :: found, e.1 ≤ e'.1 :=
      List.forall_mem_cons.mpr ⟨le_refl _, fun e' he' => le_of_lt (hfirst e' he')⟩
    by_cases he : fs.Selectable depth e
    · have htail : fs.selectAll depth (e :: found) = .error .notText ↔
          fs.selectAll depth found = .error .notText := by
        rw [selectAll_cons he]
        cases fs.selectAll depth found <;> simp [Except.map]
      rw [htail, ih hrest]
      constructor
      · intro h
        obtain ⟨e', he', hgarbled, hall⟩ := h
        refine ⟨e', List.mem_cons_of_mem _ he', hgarbled, fun e'' he'' hle'' => ?_⟩
        rcases List.mem_cons.mp he'' with rfl | he''
        · exact he.1
        · exact hall e'' he'' hle''
      · intro h
        obtain ⟨e', he', ⟨name, hname, hgarbled⟩, hall⟩ := h
        rcases List.mem_cons.mp he' with rfl | he'
        · exact absurd hgarbled (he.2 name hname)
        · exact ⟨e', he', ⟨name, hname, hgarbled⟩,
            fun e'' he'' hle'' => hall e'' (List.mem_cons_of_mem _ he'') hle''⟩
    · rcases not_selectable_iff.mp he with hdenied | ⟨hread, hgarbled⟩
      · rw [selectAll_cons_of_error (select_of_denied hdenied)]
        constructor
        · intro h
          cases h
        · intro h
          obtain ⟨e', he', -, hall⟩ := h
          exact absurd hdenied (hall e List.mem_cons_self (hle e' he'))
      · rw [selectAll_cons_of_error (select_of_garbled hread hgarbled)]
        refine ⟨fun _ => ⟨e, List.mem_cons_self, hgarbled, fun e' he' hle' => ?_⟩, fun _ => rfl⟩
        rcases List.mem_cons.mp he' with rfl | he'
        · exact hread
        · exact absurd hle' (not_le_of_gt (hfirst e' he'))

/-- **A folder is found to lie too deep just if a walk through it goes too deep.** -/
theorem readFolder_eq_tooDeep_iff (fs : FileSystem) (folder : Place) (es : List (String × Node)) :
    fs.readFolder folder (.folder es) = .error .tooDeep ↔ fs.Plunges folder es := by
  unfold Plunges
  rw [← followAll_eq_tooDeep_iff]
  have hreads := reads_readFolder fs folder es
  generalize fs.readFolder folder (.folder es) = result at hreads ⊢
  cases hreads with
  | unseen cause hlook => simp [hlook]
  | lost trouble hlook hfound => simp [hlook, hfound]
  | found found _ hlook hfound hselect =>
    have hne := selectAll_ne_tooDeep fs (folder.length - 1) (sortFiles found)
    rw [hselect] at hne
    simp [hne, hfound]

/-- **A path in a folder is found to be no text just if the walk through it stumbles.** -/
theorem readFolder_eq_notText_iff (hfs : fs.root.Sound) {folder : Place}
    {es : List (String × Node)} (hfolder : fs.root.at? folder = some (.folder es)) :
    fs.readFolder folder (.folder es) = .error .notText ↔ fs.Stumbles folder := by
  constructor
  · intro h
    have hreads := reads_readFolder fs folder es
    rw [h] at hreads
    obtain ⟨htest, hshallow⟩ : fs.Testable folder ∧ fs.Shallow folder := by
      cases hreads with
      | lost _ hlook hfound => exact absurd hfound (followAll_ne_notText _)
      | found found _ hlook hfound hselect => exact testable_of_found hfs hfolder hlook hfound
    obtain ⟨found, hfinds, hselect⟩ := exists_finds hfs hfolder htest hshallow
    rw [hselect, selectAll_eq_notText_iff hfinds.sorted] at h
    obtain ⟨⟨q, there, content⟩, he, hgarbled, hall⟩ := h
    obtain ⟨below, rfl, hmet, hat⟩ := (hfinds.mem_iff q there content).mp he
    refine ⟨htest, hshallow, below, there, content, hmet, hat, hgarbled, ?_⟩
    intro below' there' content' hmet' hat' hle
    exact hall _ ((hfinds.mem_iff _ there' content').mpr ⟨below', rfl, hmet', hat'⟩) hle
  · intro h
    obtain ⟨htest, hshallow, below, there, content, hmet, hat, hgarbled, hall⟩ := h
    obtain ⟨found, hfinds, hselect⟩ := exists_finds hfs hfolder htest hshallow
    rw [hselect, selectAll_eq_notText_iff hfinds.sorted]
    refine ⟨_, (hfinds.mem_iff _ there content).mpr ⟨below, rfl, hmet, hat⟩, hgarbled, ?_⟩
    intro e' he' hle
    obtain ⟨q, there', content'⟩ := e'
    obtain ⟨below', rfl, hmet', hat'⟩ := (hfinds.mem_iff q there' content').mp he'
    exact hall below' there' content' hmet' hat' hle

/-! ## 4. What a selection comes to -/

/-- A path of which the home directory is known, that can be looked at, and that leads to no folder in
    which a walk goes too deep or comes to a path that is no text. -/
structure Probed (fs : FileSystem) (path : String) : Prop where
  home : ¬UnknownHome fs.home fs.users path
  seen : ∀ p, (Path.parse path).expandHome fs.home fs.users = .ok p → ¬fs.Unprobed p.text
  shallow : ∀ p folder es, fs.Opens path p folder es → ¬fs.Plunges folder es
  legible : ∀ p folder es, fs.Opens path p folder es → ¬fs.Stumbles folder

/-- What a selection comes to. -/
inductive Collected (fs : FileSystem) (path : String) :
    Except SelectionTrouble (List SelectedFile) → Prop
  | home (cause : Path.HomeTrouble) (h : UnknownHome fs.home fs.users path) :
      Collected fs path (.error (.home cause))
  | untestable {p : Path} (cause : ReadTrouble)
      (hp : (Path.parse path).expandHome fs.home fs.users = .ok p) (h : fs.Unprobed p.text) :
      Collected fs path (.error (.untestable cause))
  | tooDeep {p : Path} {folder : Place} {es : List (String × Node)}
      (hopens : fs.Opens path p folder es) (h : fs.Plunges folder es) :
      Collected fs path (.error .tooDeep)
  | notText {p : Path} {folder : Place} {es : List (String × Node)}
      (hopens : fs.Opens path p folder es) (h : fs.Stumbles folder) :
      Collected fs path (.error .notText)
  | notAFolder (text : String) (h : fs.Probed path) :
      Collected fs path (.error (.notAFolder text))
  | unreadable (text : String) (cause : ReadTrouble) (h : fs.Probed path) :
      Collected fs path (.error (.unreadable text cause))
  | files (files : List SelectedFile) (h : fs.Probed path) : Collected fs path (.ok files)

theorem Opens.unique {path : String} {p p' : Path} {folder folder' : Place}
    {es es' : List (String × Node)} (h : fs.Opens path p folder es)
    (h' : fs.Opens path p' folder' es') : folder = folder' ∧ es = es' := by
  cases h.expand.symm.trans h'.expand
  cases h.locate.symm.trans h'.locate
  cases h.folder.symm.trans h'.folder
  exact ⟨rfl, rfl⟩

/-- A path that is expanded has a home directory that is known, if any. -/
theorem not_unknownHome {path : String} {p : Path}
    (hp : (Path.parse path).expandHome fs.home fs.users = .ok p) :
    ¬UnknownHome fs.home fs.users path := by
  intro hhome
  obtain ⟨cause, hcause⟩ := expandHome_eq_error_iff.mpr hhome
  cases hcause.symm.trans hp

/-- A path that leads to no folder is probed, if it can be looked at. -/
theorem probed_of_not_opens {path : String} {p : Path}
    (hp : (Path.parse path).expandHome fs.home fs.users = .ok p) (h : ¬fs.Unprobed p.text)
    (hno : ∀ folder es, ¬fs.Opens path p folder es) : fs.Probed path where
  home := not_unknownHome hp
  seen p' hp' := by
    cases hp.symm.trans hp'
    exact h
  shallow p' folder es hopens := by
    cases hp.symm.trans hopens.expand
    exact absurd hopens (hno folder es)
  legible p' folder es hopens := by
    cases hp.symm.trans hopens.expand
    exact absurd hopens (hno folder es)

/-- A path that leads to a folder is probed, if the walk through this neither goes too deep nor
    stumbles. -/
theorem Opens.probed {path : String} {p : Path} {folder : Place} {es : List (String × Node)}
    (hopens : fs.Opens path p folder es) (hshallow : ¬fs.Plunges folder es)
    (hlegible : ¬fs.Stumbles folder) : fs.Probed path where
  home := not_unknownHome hopens.expand
  seen p' hp' := by
    cases hopens.expand.symm.trans hp'
    intro h
    obtain ⟨e, -, he⟩ := locate_eq_error_iff.mpr h
    cases hopens.locate.symm.trans he
  shallow _ _ _ hopens' := by
    obtain ⟨rfl, rfl⟩ := hopens.unique hopens'
    exact hshallow
  legible _ _ _ hopens' := by
    obtain ⟨rfl, rfl⟩ := hopens.unique hopens'
    exact hlegible

/-- What the selection of a path that leads to a folder comes to. -/
theorem Opens.collected (hfs : fs.root.Sound) {path : String} {p : Path} {folder : Place}
    {es : List (String × Node)} (hopens : fs.Opens path p folder es) :
    Collected fs path (fs.collect path) := by
  have hdeep := readFolder_eq_tooDeep_iff fs folder es
  have htext := readFolder_eq_notText_iff hfs hopens.folder
  rw [collect_of_opens hopens]
  cases hread : fs.readFolder folder (.folder es) with
  | ok files =>
    rw [hread] at hdeep htext
    exact .files files (hopens.probed (fun h => nomatch hdeep.mpr h) fun h => nomatch htext.mpr h)
  | error trouble =>
    rw [hread] at hdeep htext
    cases trouble with
    | tooDeep => exact .tooDeep hopens (hdeep.mp rfl)
    | notText => exact .notText hopens (htext.mp rfl)
    | read cause =>
      exact .unreadable p.text cause
        (hopens.probed (fun h => nomatch hdeep.mpr h) fun h => nomatch htext.mpr h)

/-- **Every path comes to one of these.** -/
theorem collect_cases (hfs : fs.root.Sound) (path : String) :
    Collected fs path (fs.collect path) := by
  cases hp : (Path.parse path).expandHome fs.home fs.users with
  | error cause =>
    rw [collect, hp]
    exact .home cause (expandHome_eq_error_iff.mp ⟨cause, hp⟩)
  | ok p =>
    cases hlocate : fs.locate p.text with
    | error e =>
      have hno : ∀ folder es, ¬fs.Opens path p folder es := fun folder es hopens => by
        cases hlocate.symm.trans hopens.locate
      cases hstops : e.stops with
      | true =>
        have hprobed := locate_eq_error_iff.mp ⟨e, hstops, hlocate⟩
        cases e with
        | nameTooLong =>
          simp only [collect, hp, hlocate]
          exact .untestable _ hp hprobed
        | denied =>
          simp only [collect, hp, hlocate]
          exact .untestable _ hp hprobed
        | _ => cases hstops
      | false =>
        have hprobed : ¬fs.Unprobed p.text := by
          intro h
          obtain ⟨e', he', hlocate'⟩ := locate_eq_error_iff.mpr h
          cases hlocate.symm.trans hlocate'
          cases hstops.symm.trans he'
        have hcollect : fs.collect path = .error (.notAFolder p.text) := by
          cases e with
          | nameTooLong => cases hstops
          | denied => cases hstops
          | _ => simp only [collect, hp, hlocate]
        rw [hcollect]
        exact .notAFolder _ (probed_of_not_opens hp hprobed hno)
    | ok place =>
      by_cases hfolder : ∃ es, fs.root.at? place = some (.folder es)
      · obtain ⟨es, hes⟩ := hfolder
        exact Opens.collected hfs ⟨hp, hlocate, hes⟩
      · have hno : ∀ folder es, ¬fs.Opens path p folder es := fun folder es hopens => by
          cases hlocate.symm.trans hopens.locate
          exact hfolder ⟨es, hopens.folder⟩
        have hprobed : ¬fs.Unprobed p.text := by
          intro h
          obtain ⟨e, -, he⟩ := locate_eq_error_iff.mpr h
          cases hlocate.symm.trans he
        have hcollect : fs.collect path = .error (.notAFolder p.text) := by
          simp only [collect, hp, hlocate]
          split
          · rename_i es hes
            exact absurd ⟨es, hes⟩ hfolder
          · rfl
        rw [hcollect]
        exact .notAFolder _ (probed_of_not_opens hp hprobed hno)

/-- **There is a selection or a trouble of the folder just for the paths that are probed.** -/
theorem probed_iff (hfs : fs.root.Sound) (path : String) :
    fs.Probed path ↔ ∀ t, fs.collect path = .error t → t.isOfFolder = true := by
  have hcases := collect_cases hfs path
  generalize fs.collect path = selected at hcases ⊢
  cases hcases with
  | home cause h => exact ⟨fun hprobed => absurd h hprobed.home, fun hall => nomatch hall _ rfl⟩
  | untestable cause hp h =>
    exact ⟨fun hprobed => absurd h (hprobed.seen _ hp), fun hall => nomatch hall _ rfl⟩
  | tooDeep hopens h =>
    exact ⟨fun hprobed => absurd h (hprobed.shallow _ _ _ hopens), fun hall => nomatch hall _ rfl⟩
  | notText hopens h =>
    exact ⟨fun hprobed => absurd h (hprobed.legible _ _ _ hopens), fun hall => nomatch hall _ rfl⟩
  | notAFolder text h => exact ⟨fun _ t ht => (by cases ht; rfl), fun _ => h⟩
  | unreadable text cause h => exact ⟨fun _ t ht => (by cases ht; rfl), fun _ => h⟩
  | files files h => exact ⟨fun _ t ht => (nomatch ht), fun _ => h⟩

end FileSystem

end CodeSession.Folder
