import CodeSession.Folder.Selection

/-!
# Following a path

What it means that a path leads somewhere, one component at a time and with the links counted, and
that `FileSystem.walk` finds where it leads.

* `Step` -- one step: a single dot, a component up, a component down, or a link that is replaced by
  its target;
* `Follows` -- some steps in a row, with the number of links among them;
* `Bars` -- a component at which a walk is stopped: the folder may not be entered, or a name is too
  long;
* `walk_eq_ok_iff`, `walk_eq_error_iff` -- where a walk arrives, and when it is stopped.
-/

namespace CodeSession.Folder.FileSystem

/-! ## 1. Steps -/

/-- A component that names an entry, and not the folder itself or the one above. -/
structure IsName (part : String) : Prop where
  ne_empty : part ≠ ""
  ne_dot : part ≠ "."
  ne_dots : part ≠ ".."
  short : part.utf8ByteSize ≤ nameLimit

/-- One step along a path, from a place and what is left of the path; links count one. Only for what
    follows a slash at the end the folder need not be open. -/
inductive Step (fs : FileSystem) : Place → List String → Nat → Place → List String → Prop
  | slash {here : Place} {es : List (String × Node)} {rest : List String}
      (hfolder : fs.root.at? here = some (.folder es)) : Step fs here ("" :: rest) 0 here rest
  | dot {here : Place} {es : List (String × Node)} {rest : List String}
      (hfolder : fs.root.at? here = some (.folder es)) (hopen : here ∉ fs.closed) :
      Step fs here ("." :: rest) 0 here rest
  | up {here : Place} {es : List (String × Node)} {rest : List String}
      (hfolder : fs.root.at? here = some (.folder es)) (hopen : here ∉ fs.closed) :
      Step fs here (".." :: rest) 0 here.dropLast rest
  | down {here : Place} {es : List (String × Node)} {part : String} {rest : List String}
      {node : Node} (hfolder : fs.root.at? here = some (.folder es)) (hopen : here ∉ fs.closed)
      (hname : IsName part) (hentry : es.lookup part = some node)
      (hnode : ∀ target, node ≠ .link target) :
      Step fs here (part :: rest) 0 (here ++ [part]) rest
  | link {here : Place} {es : List (String × Node)} {part : String} {rest : List String}
      {target : String} (hfolder : fs.root.at? here = some (.folder es)) (hopen : here ∉ fs.closed)
      (hname : IsName part) (hentry : es.lookup part = some (.link target))
      (hshort : target.utf8ByteSize < pathLimit) :
      Step fs here (part :: rest) 1 (startOf here target.toList) (partsOf target.toList ++ rest)

/-- Some steps along a path, with the number of links among them. -/
inductive Follows (fs : FileSystem) : Place → List String → Nat → Place → List String → Prop
  | refl {here : Place} {parts : List String} : Follows fs here parts 0 here parts
  | step {here mid there : Place} {parts ms ts : List String} {j k : Nat}
      (first : Step fs here parts j mid ms) (rest : Follows fs mid ms k there ts) :
      Follows fs here parts (j + k) there ts

/-- A component at which a walk is stopped: it is looked up in a folder that may not be entered, or
    it is too long, or the target of the link that it names is. -/
inductive Bars (fs : FileSystem) (here : Place) (part : String) : WalkTrouble → Prop
  | closed {es : List (String × Node)} (hfolder : fs.root.at? here = some (.folder es))
      (hpart : part ≠ "") (hclosed : here ∈ fs.closed) : Bars fs here part .denied
  | name {es : List (String × Node)} (hfolder : fs.root.at? here = some (.folder es))
      (hopen : here ∉ fs.closed) (hlong : nameLimit < part.utf8ByteSize) :
      Bars fs here part .nameTooLong
  | target {es : List (String × Node)} {target : String}
      (hfolder : fs.root.at? here = some (.folder es)) (hopen : here ∉ fs.closed)
      (hname : IsName part) (hentry : es.lookup part = some (.link target))
      (hlong : pathLimit ≤ target.utf8ByteSize) : Bars fs here part .nameTooLong

variable {fs : FileSystem}

theorem Follows.trans {here mid there : Place} {parts ms ts : List String} {j k : Nat}
    (h : Follows fs here parts j mid ms) (h' : Follows fs mid ms k there ts) :
    Follows fs here parts (j + k) there ts := by
  induction h with
  | refl => rwa [Nat.zero_add]
  | step first _ ih =>
    rw [Nat.add_assoc]
    exact .step first (ih h')

theorem Step.append {here there : Place} {parts ts : List String} {k : Nat}
    (h : Step fs here parts k there ts) (more : List String) :
    Step fs here (parts ++ more) k there (ts ++ more) := by
  cases h with
  | slash hfolder => exact .slash hfolder
  | dot hfolder hopen => exact .dot hfolder hopen
  | up hfolder hopen => exact .up hfolder hopen
  | down hfolder hopen hname hentry hnode => exact .down hfolder hopen hname hentry hnode
  | link hfolder hopen hname hentry hshort =>
    rw [List.append_assoc]
    exact .link hfolder hopen hname hentry hshort

/-- What is left of a path does not matter to its beginning. -/
theorem Follows.append {here there : Place} {parts ts : List String} {k : Nat}
    (h : Follows fs here parts k there ts) (more : List String) :
    Follows fs here (parts ++ more) k there (ts ++ more) := by
  induction h with
  | refl => exact .refl
  | step first _ ih => exact .step (first.append more) ih

/-! ## 2. Walks -/

theorem walk_nil (n : Nat) (here : Place) : fs.walk n here [] = .ok here := by
  cases n <;> rfl

/-- A walk takes every step that there is. -/
theorem walk_of_step {here mid : Place} {parts ms : List String} {j : Nat}
    (h : Step fs here parts j mid ms) (n : Nat) :
    fs.walk (j + n) here parts = fs.walk n mid ms := by
  cases h with
  | slash hfolder =>
    rw [Nat.zero_add]
    cases n <;> simp [walk, walkWith, hfolder]
  | dot hfolder hopen =>
    rw [Nat.zero_add]
    cases n <;> simp [walk, walkWith, hfolder, hopen]
  | up hfolder hopen =>
    rw [Nat.zero_add]
    cases n <;> simp [walk, walkWith, hfolder, hopen]
  | @down es part _ node hfolder hopen hname hentry hnode =>
    have hshort := Nat.not_lt.mpr hname.short
    rw [Nat.zero_add]
    cases node with
    | link target => exact absurd rfl (hnode target)
    | _ =>
      cases n <;> simp [walk, walkWith, hfolder, hopen, hname.ne_empty, hname.ne_dot,
        hname.ne_dots, hshort, hentry]
  | link hfolder hopen hname hentry hshort =>
    have hname' := Nat.not_lt.mpr hname.short
    have hshort' := Nat.not_le.mpr hshort
    rw [Nat.add_comm]
    simp [walk, walkWith, hfolder, hopen, hname.ne_empty, hname.ne_dot, hname.ne_dots, hname',
      hshort', hentry]

theorem walk_of_follows {here there : Place} {parts ts : List String} {k : Nat}
    (h : Follows fs here parts k there ts) (n : Nat) :
    fs.walk (k + n) here parts = fs.walk n there ts := by
  induction h with
  | refl => rw [Nat.zero_add]
  | step first _ ih => rw [Nat.add_assoc, walk_of_step first, ih]

/-- A component that is too long is none of the short ones. -/
theorem ne_of_long {part short : String} (h : nameLimit < part.utf8ByteSize)
    (hshort : short.utf8ByteSize ≤ nameLimit) : part ≠ short := by
  intro heq
  rw [heq] at h
  exact Nat.not_le_of_lt h hshort

theorem walk_of_bars {here : Place} {part : String} {e : WalkTrouble} (h : Bars fs here part e)
    (rest : List String) (n : Nat) : fs.walk n here (part :: rest) = .error e := by
  cases h with
  | closed hfolder hpart hclosed => cases n <;> simp [walk, walkWith, hfolder, hpart, hclosed]
  | name hfolder hopen hlong =>
    have hempty := ne_of_long hlong (by decide : ("" : String).utf8ByteSize ≤ nameLimit)
    have hdot := ne_of_long hlong (by decide : ".".utf8ByteSize ≤ nameLimit)
    have hdots := ne_of_long hlong (by decide : "..".utf8ByteSize ≤ nameLimit)
    cases n <;> simp [walk, walkWith, hfolder, hopen, hempty, hdot, hdots, hlong]
  | target hfolder hopen hname hentry hlong =>
    have hname' := Nat.not_lt.mpr hname.short
    cases n <;> simp [walk, walkWith, hfolder, hopen, hname.ne_empty, hname.ne_dot, hname.ne_dots,
      hname', hentry, hlong]

/-- Where a walk stands that goes no further. -/
inductive Halts (fs : FileSystem) (n : Nat) : Place → List String → Except WalkTrouble Place → Prop
  | arrived {here : Place} : Halts fs n here [] (.ok here)
  | barred {here : Place} {part : String} {rest : List String} {e : WalkTrouble}
      (h : Bars fs here part e) : Halts fs n here (part :: rest) (.error e)
  | lost {here : Place} {parts : List String} {e : WalkTrouble} (he : e.stops = false) :
      Halts fs n here parts (.error e)

/-- A walk that has not ended takes a step within its links, or halts. -/
theorem step_or_halts (fs : FileSystem) (n : Nat) (here : Place) (part : String) (rest : List String) :
    (∃ j mid ms, j ≤ n ∧ Step fs here (part :: rest) j mid ms ∧ (j = 0 → ms = rest)) ∨
      Halts fs n here (part :: rest) (fs.walk n here (part :: rest)) := by
  have hbarred : ∀ e, Bars fs here part e →
      Halts fs n here (part :: rest) (fs.walk n here (part :: rest)) := by
    intro e h
    rw [walk_of_bars h]
    exact .barred h
  have hlost : ∀ e : WalkTrouble, e.stops = false → fs.walk n here (part :: rest) = .error e →
      Halts fs n here (part :: rest) (fs.walk n here (part :: rest)) := by
    intro e he h
    rw [h]
    exact .lost he
  cases hnode : fs.root.at? here with
  | none =>
    refine .inr (hlost .missing rfl ?_)
    cases n <;> simp [walk, walkWith, hnode]
  | some node =>
    cases node with
    | folder es =>
      by_cases hempty : part = ""
      · subst hempty
        exact .inl ⟨0, here, rest, Nat.zero_le n, .slash hnode, fun _ => rfl⟩
      by_cases hclosed : here ∈ fs.closed
      · exact .inr (hbarred _ (.closed hnode hempty hclosed))
      by_cases hdot : part = "."
      · subst hdot
        exact .inl ⟨0, here, rest, Nat.zero_le n, .dot hnode hclosed, fun _ => rfl⟩
      by_cases hdots : part = ".."
      · subst hdots
        exact .inl ⟨0, here.dropLast, rest, Nat.zero_le n, .up hnode hclosed, fun _ => rfl⟩
      by_cases hlong : nameLimit < part.utf8ByteSize
      · exact .inr (hbarred _ (.name hnode hclosed hlong))
      have hname : IsName part := ⟨hempty, hdot, hdots, Nat.not_lt.mp hlong⟩
      cases hentry : es.lookup part with
      | none =>
        refine .inr (hlost .missing rfl ?_)
        cases n <;> simp [walk, walkWith, hnode, hempty, hclosed, hdot, hdots, hlong, hentry]
      | some entry =>
        cases entry with
        | link target =>
          by_cases htarget : pathLimit ≤ target.utf8ByteSize
          · exact .inr (hbarred _ (.target hnode hclosed hname hentry htarget))
          cases n with
          | zero =>
            refine .inr (hlost .tooManyLinks rfl ?_)
            simp [walk, walkWith, hnode, hempty, hclosed, hdot, hdots, hlong, hentry, htarget]
          | succ n =>
            exact .inl ⟨1, _, _, Nat.succ_pos n,
              .link hnode hclosed hname hentry (Nat.not_le.mp htarget), fun h => nomatch h⟩
        | _ =>
          exact .inl ⟨0, _, rest, Nat.zero_le n,
            .down hnode hclosed hname hentry (fun _ => Node.noConfusion), fun _ => rfl⟩
    | _ =>
      refine .inr (hlost .notAFolder rfl ?_)
      cases n <;> simp [walk, walkWith, hnode]

/-- Every walk follows the path to where it halts. Steps down shorten what is left of the path, a
    link uses up one of the links. -/
theorem exists_follows (fs : FileSystem) (n : Nat) (here : Place) (parts : List String) :
    ∃ k there ts, k ≤ n ∧ Follows fs here parts k there ts ∧
      Halts fs (n - k) there ts (fs.walk n here parts) := by
  induction n using Nat.strongRecOn generalizing here parts with
  | _ n ihn =>
    induction parts generalizing here with
    | nil =>
      refine ⟨0, here, [], Nat.zero_le n, .refl, ?_⟩
      rw [walk_nil]
      exact .arrived
    | cons part rest ih =>
      rcases step_or_halts fs n here part rest with ⟨j, mid, ms, hj, hstep, hms⟩ | h
      · have hwalk := walk_of_step hstep (n - j)
        rw [Nat.add_sub_cancel' hj] at hwalk
        have hnext : ∃ k there ts, k ≤ n - j ∧ Follows fs mid ms k there ts ∧
            Halts fs (n - j - k) there ts (fs.walk (n - j) mid ms) := by
          rcases Nat.eq_zero_or_pos j with rfl | hpos
          · rw [hms rfl]
            exact ih mid
          · exact ihn (n - j) (by omega) mid ms
        obtain ⟨k, there, ts, hk, hfollows, hhalts⟩ := hnext
        refine ⟨j + k, there, ts, by omega, .step hstep hfollows, ?_⟩
        rw [hwalk, ← Nat.sub_sub]
        exact hhalts
      · exact ⟨0, here, part :: rest, Nat.zero_le n, .refl, h⟩

/-- **A walk arrives where the path leads** through at most as many links. -/
theorem walk_eq_ok_iff {n : Nat} {here there : Place} {parts : List String} :
    fs.walk n here parts = .ok there ↔ ∃ k ≤ n, Follows fs here parts k there [] := by
  constructor
  · intro h
    obtain ⟨k, place, ts, hk, hfollows, hhalts⟩ := exists_follows fs n here parts
    rw [h] at hhalts
    cases hhalts
    exact ⟨k, hk, hfollows⟩
  · rintro ⟨k, hk, hfollows⟩
    have h := walk_of_follows hfollows (n - k)
    rwa [Nat.add_sub_cancel' hk, walk_nil] at h

theorem Bars.stops {here : Place} {part : String} {e : WalkTrouble} (h : Bars fs here part e) :
    e.stops = true := by
  cases h <;> rfl

/-- **A walk is stopped just where the path leads to a component that stops it.** -/
theorem walk_eq_error_iff {n : Nat} {here : Place} {parts : List String} {e : WalkTrouble}
    (he : e.stops = true) : fs.walk n here parts = .error e ↔
      ∃ k ≤ n, ∃ there part rest, Follows fs here parts k there (part :: rest) ∧
        Bars fs there part e := by
  constructor
  · intro h
    obtain ⟨k, place, ts, hk, hfollows, hhalts⟩ := exists_follows fs n here parts
    rw [h] at hhalts
    cases hhalts with
    | barred hbars => exact ⟨k, hk, _, _, _, hfollows, hbars⟩
    | lost hlost => rw [he] at hlost; cases hlost
  · intro ⟨k, hk, there, part, rest, hfollows, hbars⟩
    have h := walk_of_follows hfollows (n - k)
    rwa [Nat.add_sub_cancel' hk, walk_of_bars hbars] at h

/-- A path is stopped on its way, through at most forty links. -/
def Barred (fs : FileSystem) (here : Place) (parts : List String) : Prop :=
  ∃ k ≤ linkLimit, ∃ there part rest e, Follows fs here parts k there (part :: rest) ∧
    Bars fs there part e

theorem barred_iff {here : Place} {parts : List String} :
    fs.Barred here parts ↔ ∃ e : WalkTrouble, e.stops = true ∧
      fs.walk linkLimit here parts = .error e := by
  constructor
  · intro ⟨k, hk, there, part, rest, e, hfollows, hbars⟩
    exact ⟨e, hbars.stops, (walk_eq_error_iff hbars.stops).mpr
      ⟨k, hk, there, part, rest, hfollows, hbars⟩⟩
  · intro ⟨e, he, hwalk⟩
    obtain ⟨k, hk, there, part, rest, hfollows, hbars⟩ := (walk_eq_error_iff he).mp hwalk
    exact ⟨k, hk, there, part, rest, e, hfollows, hbars⟩

end CodeSession.Folder.FileSystem
