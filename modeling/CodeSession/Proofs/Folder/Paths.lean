import CodeSession.Proofs.Folder.Walk

/-!
# What a path denotes

A path text leads somewhere as it stands, component by component. That a path is taken apart and
written again, without empty components and single dots, does not change where it leads.

* `Spells` -- the text that a path stands for: a first component that starts with a tilde is a home
  directory;
* `Denotes` -- a path that leads to a folder;
* `partsOf_text` -- the components of a path are those of its text;
* `locate_of_denotes` -- a path that denotes a folder is found to lead there.
-/

namespace CodeSession.Folder

open Text

/-! ## 1. Components -/

/-- The parts of a text that count as components. -/
def componentParts (cs : List Char) : List (List Char) :=
  (parts '/' cs).filter fun p => !p.isEmpty && p != ['.']

theorem componentsOf_eq (s : String) :
    componentsOf s = (componentParts s.toList).map String.ofList :=
  rfl

theorem componentParts_slash (cs : List Char) : componentParts ('/' :: cs) = componentParts cs :=
  rfl

theorem of_mem_componentParts {cs p : List Char} (h : p ∈ componentParts cs) :
    p ≠ [] ∧ p ≠ ['.'] ∧ '/' ∉ p := by
  obtain ⟨hmem, hkept⟩ := List.mem_filter.mp h
  rw [Bool.and_eq_true, Bool.not_eq_true', bne_iff_ne] at hkept
  exact ⟨fun hnil => by simp [hnil] at hkept, hkept.2, notMem_of_mem_parts hmem⟩

/-- Fewer parts give a part of the text. -/
theorem join_filter_sublist (f : List Char → Bool) (ps : List (List Char)) :
    (join '/' (ps.filter f)).Sublist (join '/' ps) := by
  induction ps with
  | nil => exact .refl _
  | cons p ps ih =>
    cases ps with
    | nil =>
      by_cases hp : f p
      · simp [hp]
      · simp [hp, join]
    | cons q ps =>
      rw [join_cons_of_ne_nil '/' p (List.cons_ne_nil q ps)]
      have hdrop : (join '/' ((q :: ps).filter f)).Sublist (p ++ '/' :: join '/' (q :: ps)) :=
        (ih.cons '/').trans (List.sublist_append_right p _)
      by_cases hp : f p
      · rw [List.filter_cons_of_pos hp]
        by_cases hrest : (q :: ps).filter f = []
        · rw [hrest]
          exact List.sublist_append_left p _
        · rw [join_cons_of_ne_nil '/' p hrest]
          exact (List.Sublist.refl p).append (ih.cons_cons '/')
      · rw [List.filter_cons_of_neg hp]
        exact hdrop

theorem join_componentParts_sublist (cs : List Char) :
    (join '/' (componentParts cs)).Sublist cs := by
  have h := join_filter_sublist (fun p => !p.isEmpty && p != ['.']) (parts '/' cs)
  rwa [join_parts] at h

/-- The last character of parts with separators between them is one of a part. -/
theorem getLast?_join_ne {ps : List (List Char)} (h : ∀ p ∈ ps, p ≠ [] ∧ '/' ∉ p) :
    (join '/' ps).getLast? ≠ some '/' := by
  induction ps with
  | nil => simp [join]
  | cons p ps ih =>
    obtain ⟨hp, hslash⟩ := h p List.mem_cons_self
    cases ps with
    | nil => exact fun hlast => hslash (List.mem_of_getLast? hlast)
    | cons q ps =>
      have hq : join '/' (q :: ps) ≠ [] := by
        obtain ⟨hq, _⟩ := h q (List.mem_cons_of_mem _ List.mem_cons_self)
        cases ps with
        | nil => exact hq
        | cons r ps =>
          rw [join_cons_of_ne_nil '/' q (List.cons_ne_nil _ _)]
          exact fun hnil => hq (List.append_eq_nil_iff.mp hnil).1
      have hlast : (p ++ '/' :: join '/' (q :: ps)).getLast? = (join '/' (q :: ps)).getLast? := by
        rw [List.getLast?_append, List.getLast?_cons, List.getLast?_eq_some_getLast hq]
        rfl
      rw [join_cons_of_ne_nil '/' p (List.cons_ne_nil _ _), hlast]
      exact ih fun x hx => h x (List.mem_cons_of_mem _ hx)

/-! ## 2. Texts of paths -/

/-- A text starts the way an anchor says. -/
def Anchor.Starts : Anchor → List Char → Prop
  | .here, cs => cs.head? ≠ some '/'
  | .root, cs => ∃ rest, cs = '/' :: rest
  | .doubleRoot, cs => ∃ rest, cs = '/' :: '/' :: rest

theorem starts_anchorOf (cs : List Char) : (Path.anchorOf cs).Starts cs := by
  cases cs with
  | nil => exact fun h => (nomatch h)
  | cons c cs =>
    by_cases hc : c = '/'
    · subst hc
      cases cs with
      | nil => exact ⟨[], rfl⟩
      | cons d cs =>
        by_cases hd : d = '/'
        · subst hd
          unfold Path.anchorOf
          split
          · rename_i hnil
            simp at hnil
          · exact ⟨cs, rfl⟩
          · exact ⟨_, rfl⟩
        · have hanchor : Path.anchorOf ('/' :: d :: cs) = .root := by simp [Path.anchorOf, hd]
          rw [hanchor]
          exact ⟨_, rfl⟩
    · have hanchor : Path.anchorOf (c :: cs) = .here := by simp [Path.anchorOf, hc]
      rw [hanchor]
      simp [Anchor.Starts, hc]

theorem Anchor.Starts.append {a : Anchor} {cs : List Char} (h : a.Starts cs) (hne : cs ≠ [])
    (ds : List Char) : a.Starts (cs ++ ds) := by
  cases a with
  | here =>
    cases cs with
    | nil => exact absurd rfl hne
    | cons c cs => exact h
  | root =>
    obtain ⟨rest, rfl⟩ := h
    exact ⟨rest ++ ds, rfl⟩
  | doubleRoot =>
    obtain ⟨rest, rfl⟩ := h
    exact ⟨rest ++ ds, rfl⟩

/-- The characters of parts with slashes between them. -/
theorem toList_intercalate (ps : List (List Char)) :
    ("/".intercalate (ps.map String.ofList)).toList = join '/' ps := by
  rw [String.toList_intercalate, List.map_map]
  induction ps with
  | nil => rfl
  | cons p ps ih =>
    cases ps with
    | nil => simp [join]
    | cons q ps =>
      rw [join_cons_of_ne_nil '/' p (List.cons_ne_nil _ _), ← ih]
      simp [List.intercalate]

/-- What an anchor writes in front of the components. -/
def Anchor.text : Anchor → List Char
  | .here => []
  | .root => ['/']
  | .doubleRoot => ['/', '/']

/-- The characters of the text of a path. -/
theorem toList_text (a : Anchor) (ps : List (List Char)) :
    (Path.text ⟨a, ps.map String.ofList⟩).toList =
      if a = .here ∧ ps = [] then ['.'] else a.text ++ join '/' ps := by
  cases a with
  | here =>
    cases ps with
    | nil => rfl
    | cons p ps =>
      rw [if_neg (by simp)]
      exact toList_intercalate (p :: ps)
  | root =>
    rw [if_neg (by simp), ← toList_intercalate]
    exact String.toList_append
  | doubleRoot =>
    rw [if_neg (by simp), ← toList_intercalate]
    exact String.toList_append

theorem filter_parts_anchor (a : Anchor) (cs : List Char) :
    ((parts '/' (a.text ++ cs)).filter fun p => !p.isEmpty) =
      (parts '/' cs).filter fun p => !p.isEmpty := by
  cases a <;> rfl

/-- **The components of a path are those of its text**; of none a single dot is left, or the slash
    at the end of a root. -/
theorem partsOf_text (a : Anchor) {ps : List (List Char)} (h : ∀ p ∈ ps, p ≠ [] ∧ '/' ∉ p) :
    FileSystem.partsOf (Path.text ⟨a, ps.map String.ofList⟩).toList =
      if ps = [] then [if a = .here then "." else ""] else ps.map String.ofList := by
  rw [toList_text]
  by_cases hps : ps = []
  · subst hps
    cases a <;> rfl
  · have hjoin : ((parts '/' (join '/' ps)).filter fun p => !p.isEmpty) = ps := by
      rw [parts_join hps fun p hp => (h p hp).2, List.filter_eq_self]
      intro p hp
      simpa using (h p hp).1
    have hne : join '/' ps ≠ [] := by
      intro hnil
      rw [hnil] at hjoin
      exact hps hjoin.symm
    have hlast : (a.text ++ join '/' ps).getLast? ≠ some '/' := by
      rw [List.getLast?_append, List.getLast?_eq_some_getLast hne, Option.some_or,
        ← List.getLast?_eq_some_getLast hne]
      exact getLast?_join_ne h
    rw [if_neg (fun hand => hps hand.2), if_neg hps, FileSystem.partsOf, filter_parts_anchor, hjoin,
      if_neg (by simpa using hlast), List.append_nil]

/-! ## 3. Single dots -/

namespace FileSystem

/-- The same components, without some of the empty ones and single dots. -/
inductive Thin : List String → List String → Prop
  | nil : Thin [] []
  | keep (part : String) {ps qs : List String} (h : Thin ps qs) : Thin (part :: ps) (part :: qs)
  | drop {part : String} {ps qs : List String} (hpart : part = "" ∨ part = ".") (h : Thin ps qs) :
      Thin (part :: ps) qs

theorem Thin.refl : ∀ ps : List String, Thin ps ps
  | [] => .nil
  | p :: ps => .keep p (Thin.refl ps)

theorem Thin.append {ps qs ps' qs' : List String} (h : Thin ps qs) (h' : Thin ps' qs') :
    Thin (ps ++ ps') (qs ++ qs') := by
  induction h with
  | nil => exact h'
  | keep part _ ih => exact .keep part ih
  | drop hpart _ ih => exact .drop hpart ih

/-- A component is kept or dropped. -/
theorem Thin.cons {part : String} {ps qs : List String} (h : Thin (part :: ps) qs) :
    (∃ qs', qs = part :: qs' ∧ Thin ps qs') ∨ (part = "" ∨ part = ".") ∧ Thin ps qs := by
  cases h with
  | keep _ h => exact .inl ⟨_, rfl, h⟩
  | drop hpart h => exact .inr ⟨hpart, h⟩

variable {fs : FileSystem}

/-- **Empty components and single dots on a path do not change where it leads.** -/
theorem Follows.thin {here there : Place} {ps ts qs : List String} {k : Nat}
    (h : Follows fs here ps k there ts) (hts : ts = []) (hthin : Thin ps qs) :
    Follows fs here qs k there [] := by
  induction h generalizing qs with
  | refl =>
    subst hts
    cases hthin
    exact .refl
  | step first _ ih =>
    cases first with
    | slash hfolder =>
      rcases hthin.cons with ⟨qs', rfl, h⟩ | ⟨_, h⟩
      · exact .step (.slash hfolder) (ih hts h)
      · rw [Nat.zero_add]
        exact ih hts h
    | dot hfolder hopen =>
      rcases hthin.cons with ⟨qs', rfl, h⟩ | ⟨_, h⟩
      · exact .step (.dot hfolder hopen) (ih hts h)
      · rw [Nat.zero_add]
        exact ih hts h
    | up hfolder hopen =>
      rcases hthin.cons with ⟨qs', rfl, h⟩ | ⟨hdots, _⟩
      · exact .step (.up hfolder hopen) (ih hts h)
      · exact absurd hdots (by decide)
    | down hfolder hopen hname hentry hnode =>
      rcases hthin.cons with ⟨qs', rfl, h⟩ | ⟨hpart, _⟩
      · exact .step (.down hfolder hopen hname hentry hnode) (ih hts h)
      · exact absurd hpart (not_or.mpr ⟨hname.ne_empty, hname.ne_dot⟩)
    | link hfolder hopen hname hentry hshort =>
      rcases hthin.cons with ⟨qs', rfl, h⟩ | ⟨hpart, _⟩
      · exact .step (.link hfolder hopen hname hentry hshort) (ih hts ((Thin.refl _).append h))
      · exact absurd hpart (not_or.mpr ⟨hname.ne_empty, hname.ne_dot⟩)

/-- A path that goes on with a component does so in an open folder. -/
theorem Follows.open_of_ne {here there : Place} {part : String} {rest : List String} {k : Nat}
    (h : Follows fs here (part :: rest) k there []) (hpart : part ≠ "") : here ∉ fs.closed := by
  cases h with
  | step first _ =>
    cases first with
    | slash => exact absurd rfl hpart
    | dot _ hopen => exact hopen
    | up _ hopen => exact hopen
    | down _ hopen => exact hopen
    | link _ hopen => exact hopen

/-- A path taken apart loses empty components and single dots only. -/
theorem thin_componentParts (cs : List Char) :
    Thin (partsOf cs) ((componentParts cs).map String.ofList) := by
  have hparts : ∀ ps : List (List Char), Thin ((ps.filter fun p => !p.isEmpty).map String.ofList)
      ((ps.filter fun p => !p.isEmpty && p != ['.']).map String.ofList) := by
    intro ps
    induction ps with
    | nil => exact .nil
    | cons p ps ih =>
      by_cases hp : p = []
      · simpa [hp] using ih
      · by_cases hdot : p = ['.']
        · simpa [hdot] using Thin.drop (.inr rfl) ih
        · simpa [hp, hdot] using Thin.keep _ ih
  unfold partsOf
  split
  · rw [← List.append_nil (List.map _ (componentParts cs))]
    exact (hparts _).append (.drop (.inl rfl) .nil)
  · rw [List.append_nil]
    exact hparts _

/-- A text that starts where its reader stands and loses all its components has a single dot for
    its first. -/
theorem partsOf_eq_dot_cons {cs : List Char} (hne : cs ≠ []) (hfirst : cs.head? ≠ some '/')
    (hnone : componentParts cs = []) : ∃ rest, partsOf cs = "." :: rest := by
  obtain ⟨p, ps, hparts⟩ := List.exists_cons_of_ne_nil (partsFrom_ne_nil '/' [] cs)
  have hjoin := join_parts '/' cs
  rw [parts, hparts] at hjoin
  have hp : p ≠ [] := by
    intro hp
    subst hp
    cases ps with
    | nil => exact hne hjoin.symm
    | cons q ps => exact hfirst (hjoin ▸ rfl)
  have hdot : p = ['.'] := by
    rw [componentParts, parts, hparts, List.filter_eq_nil_iff] at hnone
    simpa [hp] using hnone p List.mem_cons_self
  refine ⟨(ps.filter fun p => !p.isEmpty).map String.ofList
    ++ (if cs.getLast? == some '/' then [""] else []), ?_⟩
  rw [partsOf, parts, hparts, hdot]
  rfl

/-! ## 4. What a path denotes -/

/-- The text that a path stands for: a first component that starts with a tilde stands for the home
    directory that it names. -/
inductive Spells (home : String) (users : List (String × String)) (path : String) : String → Prop
  | empty (h : path = "") : Spells home users path "."
  | plain (hne : path ≠ "") (h : Path.anchorOf path.toList ≠ .here ∨
      ∀ c rest, componentsOf path = c :: rest → c.toList.head? ≠ some '~') :
      Spells home users path path
  | home {c text : String} {name : List Char} {rest : List String}
      (hhere : Path.anchorOf path.toList = .here) (hfirst : componentsOf path = c :: rest)
      (htilde : c.toList = '~' :: name) (htext : Path.homeText home users name = .ok text)
      (hhome : text.toList.head? ≠ some '~') :
      Spells home users path (text ++ "/" ++ "/".intercalate rest)

/-- A path denotes a folder: the text that it stands for leads there, as it stands, through at most
    forty links. -/
def Denotes (fs : FileSystem) (path : String) (folder : Place) : Prop :=
  ∃ text k es, Spells fs.home fs.users path text ∧ '\x00' ∉ text.toList ∧ text.utf8ByteSize < pathLimit ∧
    k ≤ linkLimit ∧
    Follows fs (startOf fs.workingFolder text.toList) (partsOf text.toList) k folder [] ∧
    fs.root.at? folder = some (.folder es)

/-- A part of a text has no more bytes. -/
theorem utf8ByteSize_le_of_sublist {s t : String} (h : s.toList.Sublist t.toList) :
    s.utf8ByteSize ≤ t.utf8ByteSize := by
  have hlist : ∀ {cs ds : List Char}, cs.Sublist ds →
      (String.ofList cs).utf8ByteSize ≤ (String.ofList ds).utf8ByteSize := by
    intro cs ds hsub
    induction hsub with
    | slnil => exact Nat.le_refl _
    | cons c _ ih =>
      rw [String.ofList_cons, String.utf8ByteSize_append]
      exact Nat.le_trans ih (Nat.le_add_left _ _)
    | cons_cons c _ ih =>
      rw [String.ofList_cons, String.ofList_cons, String.utf8ByteSize_append,
        String.utf8ByteSize_append]
      exact Nat.add_le_add_left ih _
  have hbytes := hlist h
  rwa [String.ofList_toList, String.ofList_toList] at hbytes

/-- A path that is written again starts where its text starts. -/
theorem startOf_text {a : Anchor} {cs : List Char} (ha : a.Starts cs) {ps : List (List Char)}
    (hps : ∀ p ∈ ps, p ≠ [] ∧ '/' ∉ p) (here : Place) :
    startOf here (Path.text ⟨a, ps.map String.ofList⟩).toList = startOf here cs := by
  rw [toList_text]
  cases a with
  | here =>
    have hfirst : ∀ ds : List Char, ds.head? ≠ some '/' → startOf here ds = here := by
      intro ds hds
      simp [startOf, hds]
    rw [hfirst cs ha]
    cases ps with
    | nil => rfl
    | cons p ps =>
      refine hfirst _ ?_
      obtain ⟨hp, hslash⟩ := hps p List.mem_cons_self
      rw [if_neg (by simp)]
      cases p with
      | nil => exact absurd rfl hp
      | cons c p =>
        have hc : c ≠ '/' := fun hc => hslash (hc ▸ List.mem_cons_self)
        cases ps <;> simpa [join, Anchor.text] using hc
  | root =>
    obtain ⟨rest, rfl⟩ := ha
    rfl
  | doubleRoot =>
    obtain ⟨rest, rfl⟩ := ha
    rfl

/-- A path that is written again is a part of its text, but for a single dot. -/
theorem text_sublist {a : Anchor} {cs : List Char} (ha : a.Starts cs) :
    (Path.text ⟨a, (componentParts cs).map String.ofList⟩).toList = ['.'] ∨
      (Path.text ⟨a, (componentParts cs).map String.ofList⟩).toList.Sublist cs := by
  rw [toList_text]
  split
  · exact .inl rfl
  · right
    cases a with
    | here => exact join_componentParts_sublist cs
    | root =>
      obtain ⟨rest, rfl⟩ := ha
      rw [componentParts_slash]
      exact (join_componentParts_sublist rest).cons_cons '/'
    | doubleRoot =>
      obtain ⟨rest, rfl⟩ := ha
      rw [componentParts_slash, componentParts_slash]
      exact ((join_componentParts_sublist rest).cons_cons '/').cons_cons '/'

variable {fs : FileSystem}

/-- **A text that leads to a folder leads there when it is taken apart and written again.** -/
theorem locate_text {a : Anchor} {t : String} (ha : a.Starts t.toList) (hne : t ≠ "")
    (hnul : '\x00' ∉ t.toList) (hshort : t.utf8ByteSize < pathLimit) {folder : Place} {k : Nat}
    (hk : k ≤ linkLimit)
    (hfollows : Follows fs (startOf fs.workingFolder t.toList) (partsOf t.toList) k folder [])
    {es : List (String × Node)} (hfolder : fs.root.at? folder = some (.folder es)) :
    fs.locate (Path.text ⟨a, componentsOf t⟩) = .ok folder := by
  rw [componentsOf_eq]
  have hparts : ∀ p ∈ componentParts t.toList, p ≠ [] ∧ '/' ∉ p := fun p hp =>
    ⟨(of_mem_componentParts hp).1, (of_mem_componentParts hp).2.2⟩
  have hnul' : '\x00' ∉ (Path.text ⟨a, (componentParts t.toList).map String.ofList⟩).toList := by
    rcases text_sublist ha with h | h
    · rw [h]
      decide
    · exact fun hmem => hnul (h.mem hmem)
  have hshort' : (Path.text ⟨a, (componentParts t.toList).map String.ofList⟩).utf8ByteSize <
      pathLimit := by
    rcases text_sublist ha with h | h
    · have hdot : Path.text ⟨a, (componentParts t.toList).map String.ofList⟩ = "." :=
        String.toList_inj.mp h
      rw [hdot]
      decide
    · exact Nat.lt_of_le_of_lt (utf8ByteSize_le_of_sublist h) hshort
  have hthin := hfollows.thin rfl (thin_componentParts t.toList)
  unfold locate locateFrom
  dsimp only
  rw [if_neg (by simpa using hnul'), if_neg (Nat.not_le.mpr hshort'), startOf_text ha hparts,
    partsOf_text a hparts]
  refine walk_eq_ok_iff.mpr ⟨k, hk, ?_⟩
  by_cases hnil : componentParts t.toList = []
  · -- nothing is left of the path: it ends where it starts
    rw [if_pos (by rw [hnil])]
    rw [hnil] at hthin
    -- a single dot is looked up where the path starts, and the text has one too
    have hopen : a = .here → startOf fs.workingFolder t.toList ∉ fs.closed := by
      intro hhere
      subst hhere
      have hne' : t.toList ≠ [] := fun h => hne (String.toList_eq_nil_iff.mp h)
      obtain ⟨rest, hrest⟩ := partsOf_eq_dot_cons hne' ha hnil
      exact (hrest ▸ hfollows).open_of_ne (by decide)
    cases hthin with
    | step first _ => cases first
    | refl =>
      cases a with
      | here => exact .step (.dot hfolder (hopen rfl)) .refl
      | _ => exact .step (.slash hfolder) .refl
  · rw [if_neg (by simpa using hnil)]
    exact hthin

/-- The components of a home directory and of what follows it. -/
theorem componentsOf_home {path home : String} {c : String} {rest : List String}
    (h : componentsOf path = c :: rest) :
    componentsOf (home ++ "/" ++ "/".intercalate rest) = componentsOf home ++ rest := by
  obtain ⟨ps, hps, hrest⟩ : ∃ ps : List (List Char), (∀ p ∈ ps, p ≠ [] ∧ p ≠ ['.'] ∧ '/' ∉ p) ∧
      rest = ps.map String.ofList := by
    rw [componentsOf_eq] at h
    cases hparts : componentParts path.toList with
    | nil => rw [hparts] at h; cases h
    | cons p ps =>
      rw [hparts] at h
      refine ⟨ps, fun q hq => ?_, ?_⟩
      · have hq' : q ∈ componentParts path.toList := hparts ▸ List.mem_cons_of_mem _ hq
        exact of_mem_componentParts hq'
      · exact (List.cons.inj h).2.symm
  have hjoin : componentParts (join '/' ps) = ps := by
    unfold componentParts
    cases ps with
    | nil => rfl
    | cons p ps =>
      rw [parts_join (List.cons_ne_nil _ _) fun q hq => (hps q hq).2.2, List.filter_eq_self]
      intro q hq
      simp [hps q hq]
  have htext : (home ++ "/" ++ "/".intercalate rest).toList =
      home.toList ++ '/' :: join '/' ps := by
    rw [hrest, String.toList_append, String.toList_append, toList_intercalate, List.append_assoc]
    rfl
  rw [componentsOf_eq, htext, componentParts, parts_append, List.filter_append, List.map_append,
    hrest]
  exact congrArg (componentsOf home ++ List.map String.ofList ·) hjoin

/-- A path without a tilde at its start stands for itself. -/
theorem expandHome_of_plain {path : String} (home : String) (users : List (String × String))
    (h : Path.anchorOf path.toList ≠ .here ∨
      ∀ c rest, componentsOf path = c :: rest → c.toList.head? ≠ some '~') :
    (Path.parse path).expandHome home users = .ok (Path.parse path) := by
  unfold Path.expandHome Path.parse
  dsimp only
  split
  · rename_i c rest hhere hcomponents
    have hc : c.toList.head? ≠ some '~' := h.resolve_left (fun hne => hne hhere) c rest hcomponents
    split
    · rename_i htilde
      exact absurd (by rw [htilde]; rfl) hc
    · rfl
  · rfl

/-- The path of a home directory is a way to write its text again. -/
theorem homeOf?_eq {home : String} (h : home.toList.head? ≠ some '~') (more : List Char) :
    ∃ a : Anchor, Path.homeOf? home = some ⟨a, componentsOf home⟩ ∧
      a.Starts (home.toList ++ '/' :: more) := by
  unfold Path.homeOf?
  by_cases hroot : home.toList.all (· == '/') = true
  · rw [if_pos hroot]
    have hslashes : ∀ cs : List Char, cs.all (· == '/') = true →
        componentParts cs = [] ∧ ∃ rest, cs ++ '/' :: more = '/' :: rest := by
      intro cs
      induction cs with
      | nil => exact fun _ => ⟨rfl, more, rfl⟩
      | cons c cs ih =>
        intro hall
        rw [List.all_cons, Bool.and_eq_true, beq_iff_eq] at hall
        obtain ⟨rfl, hall⟩ := hall
        exact ⟨(ih hall).1, cs ++ '/' :: more, rfl⟩
    obtain ⟨hnone, hstarts⟩ := hslashes _ hroot
    exact ⟨.root, by rw [componentsOf_eq, hnone]; rfl, hstarts⟩
  · rw [if_neg hroot, if_neg (by simpa using h)]
    refine ⟨_, rfl, (starts_anchorOf _).append (fun hnil => hroot ?_) _⟩
    rw [hnil, List.all_nil]

/-- **A path that denotes a folder is found to lead there.** -/
theorem locate_of_denotes {path : String} {folder : Place} (h : fs.Denotes path folder) :
    ∃ p, (Path.parse path).expandHome fs.home fs.users = .ok p ∧
      fs.locate p.text = .ok folder := by
  obtain ⟨text, k, es, hspells, hnul, hshort, hk, hfollows, hfolder⟩ := h
  cases hspells with
  | empty h =>
    subst h
    refine ⟨⟨.here, []⟩, rfl, ?_⟩
    have hstarts : Anchor.here.Starts ".".toList := starts_anchorOf ['.']
    exact locate_text hstarts (by decide) hnul hshort hk hfollows hfolder
  | plain hne h =>
    exact ⟨Path.parse path, expandHome_of_plain _ _ h,
      locate_text (starts_anchorOf _) hne hnul hshort hk hfollows hfolder⟩
  | @home c dir name rest hhere hfirst htilde hdir hhome =>
    obtain ⟨a, ha, hstarts⟩ := homeOf?_eq hhome ("/".intercalate rest).toList
    have htext : (dir ++ "/" ++ "/".intercalate rest).toList =
        dir.toList ++ '/' :: ("/".intercalate rest).toList := by
      rw [String.toList_append, String.toList_append, List.append_assoc]
      rfl
    refine ⟨⟨a, componentsOf dir ++ rest⟩, ?_, ?_⟩
    · unfold Path.expandHome Path.parse
      dsimp only
      simp only [hhere, hfirst, htilde, hdir, ha]
    · rw [← componentsOf_home hfirst]
      refine locate_text (htext ▸ hstarts) (fun hnil => ?_) hnul hshort hk hfollows hfolder
      rw [← String.toList_eq_nil_iff, htext] at hnil
      simp at hnil

end FileSystem

end CodeSession.Folder
