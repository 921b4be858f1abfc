import CodeSession.Proofs.Folder.Walk
import Mathlib.Data.List.Induction
import Mathlib.Data.List.Nodup

/-!
# What stands in a tree

Trees as a file system keeps them, what a walk through a folder comes to, and the files that entries
are or lead to.

* `Node.Sound` -- the names in a folder are names, and differ;
* `Met` -- what stands below a folder, no folder on the way to it being unlisted;
* `entry_mem_visits_iff`, `tooDeep_mem_visits_iff`, `nodup_places_visits` -- a walk comes to just this,
  each once, as deep as it goes;
* `FileAt` -- the file that stands at a place, or that a link there leads to;
* `fileAt?_of_testable`, `fileAt?_of_untestable` -- `FileSystem.fileAt?` finds just this file, unless
  the entry cannot be looked at.
-/

namespace CodeSession.Folder

open FileSystem Text

/-! ## 1. Sound trees -/

/-- A name that an entry of a folder may have. -/
structure IsEntryName (name : String) : Prop extends IsName name where
  no_slash : '/' ∉ name.toList
  no_nul : '\x00' ∉ name.toList

theorem isEntryName_iff {name : String} :
    IsEntryName name ↔
      (name ≠ "" ∧ name ≠ "." ∧ name ≠ ".." ∧ name.utf8ByteSize ≤ nameLimit) ∧
        '/' ∉ name.toList ∧ '\x00' ∉ name.toList :=
  ⟨fun ⟨⟨hempty, hdot, hdots, hshort⟩, hslash, hnul⟩ => ⟨⟨hempty, hdot, hdots, hshort⟩, hslash, hnul⟩,
    fun ⟨⟨hempty, hdot, hdots, hshort⟩, hslash, hnul⟩ => ⟨⟨hempty, hdot, hdots, hshort⟩, hslash, hnul⟩⟩

instance : DecidablePred IsEntryName := fun _ => decidable_of_iff _ isEntryName_iff.symm

namespace Node

mutual

/-- A tree as a file system keeps it: the names in a folder are names of entries and differ, and the
    target of a link is short enough to be a path. -/
def Sound : Node → Prop
  | .file _ => True
  | .link target => target.utf8ByteSize < pathLimit
  | .folder es => (es.map Prod.fst).Nodup ∧ SoundEntries es

/-- Entries of a sound folder. -/
def SoundEntries : List (String × Node) → Prop
  | [] => True
  | (name, n) :: rest => IsEntryName name ∧ n.Sound ∧ SoundEntries rest

end

mutual

/-- Whether a tree is sound can be decided. -/
def decidableSound : ∀ n : Node, Decidable n.Sound
  | .file _ => decidable_of_iff True (by rw [Sound])
  | .link target => decidable_of_iff (target.utf8ByteSize < pathLimit) (by rw [Sound])
  | .folder es =>
    have := decidableSoundEntries es
    decidable_of_iff ((es.map Prod.fst).Nodup ∧ SoundEntries es) (by rw [Sound])

def decidableSoundEntries : ∀ es : List (String × Node), Decidable (SoundEntries es)
  | [] => decidable_of_iff True (by rw [SoundEntries])
  | (name, n) :: rest =>
    have := decidableSound n
    have := decidableSoundEntries rest
    decidable_of_iff (IsEntryName name ∧ n.Sound ∧ SoundEntries rest) (by rw [SoundEntries])

end

instance : DecidablePred Sound := decidableSound

theorem soundEntries_iff {es : List (String × Node)} :
    SoundEntries es ↔ ∀ e ∈ es, IsEntryName e.1 ∧ e.2.Sound := by
  induction es with
  | nil => simp [SoundEntries]
  | cons e es ih =>
    obtain ⟨name, n⟩ := e
    simp [SoundEntries, ih, and_assoc]

/-- An entry is found under its name, which it has alone. -/
theorem lookup_eq_some_iff {α : Type} {name : String} {a : α} {es : List (String × α)}
    (h : (es.map Prod.fst).Nodup) : es.lookup name = some a ↔ (name, a) ∈ es := by
  induction es with
  | nil => simp
  | cons e es ih =>
    obtain ⟨n, b⟩ := e
    rw [List.map_cons, List.nodup_cons] at h
    rw [List.lookup_cons, List.mem_cons]
    by_cases hn : name = n
    · subst hn
      have hrest : (name, a) ∉ es := fun hmem => h.1 (List.mem_map.mpr ⟨_, hmem, rfl⟩)
      simp [hrest, eq_comm]
    · rw [beq_false_of_ne hn]
      simp [hn, ih h.2]

theorem at?_append (p q : Place) (n : Node) : n.at? (p ++ q) = (n.at? p).bind (at? q) := by
  induction p generalizing n with
  | nil => rfl
  | cons name p ih =>
    cases n with
    | folder es =>
      show (es.lookup name).bind (at? (p ++ q)) = ((es.lookup name).bind (at? p)).bind (at? q)
      cases es.lookup name with
      | none => rfl
      | some m => exact ih m
    | _ => rfl

theorem at?_cons_eq_some_iff {name : String} {p : Place} {n m : Node} :
    n.at? (name :: p) = some m ↔
      ∃ es entry, n = .folder es ∧ es.lookup name = some entry ∧ entry.at? p = some m := by
  cases n with
  | folder es =>
    show (es.lookup name).bind (at? p) = some m ↔ _
    rw [Option.bind_eq_some_iff]
    constructor
    · rintro ⟨entry, hentry, hm⟩
      exact ⟨es, entry, rfl, hentry, hm⟩
    · rintro ⟨_, entry, hes, hentry, hm⟩
      cases hes
      exact ⟨entry, hentry, hm⟩
  | _ =>
    constructor
    · intro h
      cases h
    · rintro ⟨_, _, h, _⟩
      cases h

/-- What stands above an entry is a folder that holds it. -/
theorem at?_concat_eq_some_iff {p : Place} {name : String} {n m : Node} :
    n.at? (p ++ [name]) = some m ↔
      ∃ es, n.at? p = some (.folder es) ∧ es.lookup name = some m := by
  rw [at?_append, Option.bind_eq_some_iff]
  constructor
  · rintro ⟨folder, hfolder, h⟩
    obtain ⟨es, entry, rfl, hentry, hm⟩ := at?_cons_eq_some_iff.mp h
    cases hm
    exact ⟨es, hfolder, hentry⟩
  · rintro ⟨es, hfolder, hentry⟩
    exact ⟨_, hfolder, at?_cons_eq_some_iff.mpr ⟨es, m, rfl, hentry, rfl⟩⟩

theorem Sound.lookup {es : List (String × Node)} (h : Sound (.folder es)) {name : String}
    {n : Node} (hentry : es.lookup name = some n) : IsEntryName name ∧ n.Sound := by
  rw [Sound] at h
  exact soundEntries_iff.mp h.2 _ ((lookup_eq_some_iff h.1).mp hentry)

/-- Every part of a sound tree is sound. -/
theorem Sound.at? {p : Place} {n m : Node} (h : n.Sound) (hm : n.at? p = some m) : m.Sound := by
  induction p generalizing n with
  | nil =>
    cases hm
    exact h
  | cons name p ih =>
    obtain ⟨es, entry, rfl, hentry, hm⟩ := at?_cons_eq_some_iff.mp hm
    exact ih (h.lookup hentry).2 hm

end Node

/-! ## 2. What a walk comes to -/

/-- The place of an entry that a walk comes to. -/
def Visit.place? : Visit → Option Place
  | .entry place => some place
  | .tooDeep => none

namespace FileSystem

/-- What stands below a folder is come to by a walk: no folder on the way to it is unlisted. -/
structure Met (fs : FileSystem) (folder below : Place) : Prop where
  found : (fs.root.at? (folder ++ below)).isSome = true
  listed : ∀ dir name rest, below = dir ++ name :: rest → folder ++ dir ∉ fs.unlisted

variable {fs : FileSystem}

theorem met_nil {folder : Place} {n : Node} (h : fs.root.at? folder = some n) : fs.Met folder [] :=
  ⟨by rw [List.append_nil, h]; rfl, fun dir name rest heq => by cases dir <;> cases heq⟩

/-- What is met below an entry is met below the folder that holds it, if this may be listed. -/
theorem met_cons_iff {here below : Place} {name : String} :
    fs.Met here (name :: below) ↔ here ∉ fs.unlisted ∧ fs.Met (here ++ [name]) below := by
  have hplace : ∀ q : Place, here ++ name :: q = here ++ [name] ++ q := fun q => by simp
  constructor
  · intro h
    have hhere := h.listed [] name below rfl
    rw [List.append_nil] at hhere
    refine ⟨hhere, hplace below ▸ h.found, fun dir next rest heq => ?_⟩
    rw [← hplace]
    exact h.listed (name :: dir) next rest (by rw [heq]; rfl)
  · intro ⟨hhere, h⟩
    refine ⟨(hplace below).symm ▸ h.found, fun dir next rest heq => ?_⟩
    cases dir with
    | nil =>
      rw [List.append_nil]
      exact hhere
    | cons first dir =>
      obtain ⟨rfl, heq'⟩ := List.cons.inj heq
      rw [hplace]
      exact h.listed dir next rest heq'

/-- Something stands where an entry is met below. -/
theorem met_first {here below : Place} (h : fs.Met here below) :
    ∃ m, fs.root.at? here = some m := by
  have hfound := h.found
  rw [Node.at?_append] at hfound
  cases hhere : fs.root.at? here with
  | none => rw [hhere] at hfound; cases hfound
  | some m => exact ⟨m, rfl⟩

/-- What is above something met is met. -/
theorem Met.above {folder dir below : Place} (h : fs.Met folder (dir ++ below)) :
    fs.Met folder dir := by
  refine ⟨?_, fun first name rest heq => h.listed first name (rest ++ below) (by rw [heq]; simp)⟩
  have hfound := h.found
  rw [← List.append_assoc, Node.at?_append] at hfound
  cases hdir : fs.root.at? (folder ++ dir) with
  | none => rw [hdir] at hfound; cases hfound
  | some n => rfl

/-- What is right above something met is a folder. -/
theorem Met.folder_above {folder dir : Place} {name : String} {below : Place}
    (h : fs.Met folder (dir ++ name :: below)) :
    ∃ es, fs.root.at? (folder ++ dir) = some (.folder es) := by
  obtain ⟨m, hm⟩ := Option.isSome_iff_exists.mp h.found
  rw [← List.append_assoc, Node.at?_append, Option.bind_eq_some_iff] at hm
  obtain ⟨n, hn, hm⟩ := hm
  obtain ⟨es, entry, rfl, -, -⟩ := Node.at?_cons_eq_some_iff.mp hm
  exact ⟨es, hn⟩

theorem visitsAmong_eq (here : Place) (es : List (String × Node)) (levels : Nat) :
    fs.visitsAmong here es levels = es.flatMap fun e => fs.visits (here ++ [e.1]) e.2 levels := by
  induction es with
  | nil => rw [visitsAmong]; rfl
  | cons e es ih =>
    obtain ⟨name, n⟩ := e
    rw [visitsAmong, ih, List.flatMap_cons]

/-- Nothing stands below what is no folder. -/
theorem not_met_of_not_folder {here : Place} {n : Node} (h : fs.root.at? here = some n)
    (hn : ∀ es, n ≠ .folder es) {name : String} {below : Place} : ¬fs.Met here (name :: below) := by
  intro hmet
  have hfound := hmet.found
  rw [Node.at?_append, h, Option.bind_some] at hfound
  cases n with
  | folder es => exact hn es rfl
  | _ => cases hfound

theorem mem_places_iff {vs : List Visit} {q : Place} :
    q ∈ vs.filterMap Visit.place? ↔ .entry q ∈ vs := by
  rw [List.mem_filterMap]
  constructor
  · rintro ⟨_ | _, hv, hq⟩
    · cases hq
      exact hv
    · cases hq
  · exact fun hv => ⟨_, hv, rfl⟩

section Sound

variable (hfs : fs.root.Sound)

include hfs

/-- The entries of a folder are what stands there. -/
theorem mem_entries_iff {here : Place} {es : List (String × Node)}
    (h : fs.root.at? here = some (.folder es)) {name : String} {m : Node} :
    (name, m) ∈ es ↔ fs.root.at? (here ++ [name]) = some m := by
  have hsound := hfs.at? h
  rw [Node.Sound] at hsound
  rw [Node.at?_concat_eq_some_iff]
  constructor
  · exact fun hmem => ⟨es, h, (Node.lookup_eq_some_iff hsound.1).mpr hmem⟩
  · intro ⟨es', h', hentry⟩
    cases h.symm.trans h'
    exact (Node.lookup_eq_some_iff hsound.1).mp hentry

/-- What a walk comes to in a folder: its entries, what it comes to in each of them, and its end. -/
theorem mem_visits_folder {here : Place} {es : List (String × Node)}
    (h : fs.root.at? here = some (.folder es)) {levels : Nat} {v : Visit} :
    v ∈ fs.visits here (.folder es) levels ↔
      (here ∉ fs.unlisted ∧ ∃ name m, fs.root.at? (here ++ [name]) = some m ∧
        (v = .entry (here ++ [name]) ∨
          ∃ l, levels = l + 1 ∧ v ∈ fs.visits (here ++ [name]) m l)) ∨
      levels = 0 ∧ v = .tooDeep := by
  have hentries : ∀ P : String → Node → Prop,
      (∃ e ∈ es, P e.1 e.2) ↔ ∃ name m, fs.root.at? (here ++ [name]) = some m ∧ P name m := by
    intro P
    constructor
    · exact fun ⟨e, he, hp⟩ => ⟨e.1, e.2, (mem_entries_iff hfs h).mp he, hp⟩
    · exact fun ⟨name, m, hm, hp⟩ => ⟨(name, m), (mem_entries_iff hfs h).mpr hm, hp⟩
  have hown : v ∈ fs.entriesOf here es ↔
      here ∉ fs.unlisted ∧ ∃ name m, fs.root.at? (here ++ [name]) = some m ∧
        v = .entry (here ++ [name]) := by
    rw [← hentries fun name _ => v = .entry (here ++ [name]), entriesOf]
    by_cases hhere : here ∈ fs.unlisted <;> simp [hhere, eq_comm]
  cases levels with
  | zero =>
    rw [visits, List.mem_append, hown]
    simp
  | succ l =>
    have hbelow : v ∈ (if fs.unlisted.contains here then [] else fs.visitsAmong here es l) ↔
        here ∉ fs.unlisted ∧ ∃ name m, fs.root.at? (here ++ [name]) = some m ∧
          v ∈ fs.visits (here ++ [name]) m l := by
      rw [← hentries fun name m => v ∈ fs.visits (here ++ [name]) m l, visitsAmong_eq]
      by_cases hhere : here ∈ fs.unlisted <;> simp [hhere]
    rw [visits, List.mem_append, hown, hbelow, ← and_or_left, ← exists_or]
    simp only [← exists_or, ← and_or_left, Nat.add_right_cancel_iff, exists_eq_left',
      Nat.add_one_ne_zero, false_and, or_false]

/-- **A walk comes to just the entries that are met**, as deep as it goes. -/
theorem entry_mem_visits_iff {here : Place} {n : Node} (h : fs.root.at? here = some n)
    {levels : Nat} {q : Place} : .entry q ∈ fs.visits here n levels ↔
      ∃ below, below ≠ [] ∧ below.length ≤ levels + 1 ∧ q = here ++ below ∧ fs.Met here below := by
  induction levels using Nat.strongRecOn generalizing here n with
  | _ levels ih =>
    cases n with
    | folder es =>
      rw [mem_visits_folder hfs h]
      constructor
      · rintro (⟨hhere, name, m, hm, hq | ⟨l, rfl, hq⟩⟩ | ⟨_, hq⟩)
        · cases hq
          exact ⟨[name], by simp, by simp, rfl, met_cons_iff.mpr ⟨hhere, met_nil hm⟩⟩
        · obtain ⟨below, _, hlength, rfl, hmet⟩ := (ih l (Nat.lt_succ_self l) hm).mp hq
          exact ⟨name :: below, by simp, by simpa using hlength, by simp,
            met_cons_iff.mpr ⟨hhere, hmet⟩⟩
        · cases hq
      · intro ⟨below, hne, hlength, hq, hmet⟩
        obtain ⟨name, below, rfl⟩ := List.exists_cons_of_ne_nil hne
        obtain ⟨hhere, hmet⟩ := met_cons_iff.mp hmet
        obtain ⟨m, hm⟩ := met_first hmet
        refine .inl ⟨hhere, name, m, hm, ?_⟩
        cases below with
        | nil => exact .inl (by rw [hq])
        | cons next below =>
          rw [List.length_cons, Nat.succ_le_succ_iff] at hlength
          obtain ⟨l, rfl⟩ : ∃ l, levels = l + 1 := ⟨levels - 1, by simp at hlength; omega⟩
          exact .inr ⟨l, rfl, (ih l (Nat.lt_succ_self l) hm).mpr
            ⟨next :: below, by simp, hlength, by rw [hq]; simp, hmet⟩⟩
    | _ =>
      refine ⟨fun hv => (by simp [visits] at hv), fun ⟨below, hne, _, _, hmet⟩ => ?_⟩
      obtain ⟨name, below, rfl⟩ := List.exists_cons_of_ne_nil hne
      exact absurd hmet (not_met_of_not_folder h (fun _ => Node.noConfusion))

/-- **A walk ends in a folder that lies too deep** if it meets one at the end of its levels. -/
theorem tooDeep_mem_visits_iff {here : Place} {n : Node} (h : fs.root.at? here = some n)
    {levels : Nat} : .tooDeep ∈ fs.visits here n levels ↔
      ∃ below es, below.length = levels ∧ fs.root.at? (here ++ below) = some (.folder es) ∧
        fs.Met here below := by
  induction levels generalizing here n with
  | zero =>
    cases n with
    | folder es =>
      rw [mem_visits_folder hfs h]
      exact ⟨fun _ => ⟨[], es, rfl, by rw [List.append_nil, h], met_nil h⟩,
        fun _ => .inr ⟨rfl, rfl⟩⟩
    | _ =>
      refine ⟨fun hv => (by simp [visits] at hv), fun ⟨below, es, hlength, hfolder, _⟩ => ?_⟩
      rw [List.length_eq_zero_iff.mp hlength, List.append_nil, h] at hfolder
      cases hfolder
  | succ levels ih =>
    cases n with
    | folder es =>
      rw [mem_visits_folder hfs h]
      constructor
      · rintro (⟨hhere, name, m, hm, hv | ⟨l, hl, hv⟩⟩ | ⟨hl, _⟩)
        · cases hv
        · cases hl
          obtain ⟨below, es', hlength, hfolder, hmet⟩ := (ih hm).mp hv
          exact ⟨name :: below, es', by simpa using hlength, by simpa using hfolder,
            met_cons_iff.mpr ⟨hhere, hmet⟩⟩
        · cases hl
      · intro ⟨below, es', hlength, hfolder, hmet⟩
        obtain ⟨name, below, rfl⟩ : ∃ name rest, below = name :: rest :=
          List.exists_cons_of_length_eq_add_one hlength
        obtain ⟨hhere, hmet⟩ := met_cons_iff.mp hmet
        obtain ⟨m, hm⟩ := met_first hmet
        exact .inl ⟨hhere, name, m, hm, .inr ⟨levels, rfl, (ih hm).mpr
          ⟨below, es', by simpa using hlength, by simpa using hfolder, hmet⟩⟩⟩
    | _ =>
      refine ⟨fun hv => (by simp [visits] at hv), fun ⟨below, es, hlength, _, hmet⟩ => ?_⟩
      obtain ⟨name, below, rfl⟩ : ∃ name rest, below = name :: rest :=
        List.exists_cons_of_length_eq_add_one hlength
      exact absurd hmet (not_met_of_not_folder h (fun _ => Node.noConfusion))

/-- The entries of a folder differ. -/
theorem nodup_entriesOf {here : Place} {es : List (String × Node)}
    (h : fs.root.at? here = some (.folder es)) :
    ((fs.entriesOf here es).filterMap Visit.place?).Nodup := by
  have hsound := hfs.at? h
  rw [Node.Sound] at hsound
  unfold entriesOf
  split
  · exact List.nodup_nil
  · have hplaces : (es.map fun e => Visit.entry (here ++ [e.1])).filterMap Visit.place? =
        (es.map Prod.fst).map fun name => here ++ [name] := by
      rw [List.filterMap_map, List.map_map]
      exact congrFun (List.filterMap_eq_map (f := fun e : String × Node => here ++ [e.1])) es
    rw [hplaces]
    exact hsound.1.map fun name name' heq => (List.cons.inj (List.append_cancel_left heq)).1

/-- **A walk comes to no entry twice.** -/
theorem nodup_places_visits {here : Place} {n : Node} (h : fs.root.at? here = some n)
    (levels : Nat) : ((fs.visits here n levels).filterMap Visit.place?).Nodup := by
  induction levels generalizing here n with
  | zero =>
    cases n with
    | folder es =>
      rw [visits, List.filterMap_append]
      exact (List.append_nil _).symm ▸ nodup_entriesOf hfs h
    | _ => simp [visits]
  | succ levels ih =>
    cases n with
    | folder es =>
      have hsound := hfs.at? h
      rw [Node.Sound] at hsound
      have hbelow : ∀ e ∈ es, ∀ q, q ∈ (fs.visits (here ++ [e.1]) e.2 levels).filterMap
          Visit.place? → ∃ below, below ≠ [] ∧ q = here ++ e.1 :: below := by
        intro e he q hq
        obtain ⟨below, hne, _, rfl, _⟩ := (entry_mem_visits_iff hfs
          ((mem_entries_iff hfs h).mp he)).mp (mem_places_iff.mp hq)
        exact ⟨below, hne, by simp⟩
      rw [visits, List.filterMap_append, List.nodup_append]
      refine ⟨nodup_entriesOf hfs h, ?_, ?_⟩
      · split
        · exact List.nodup_nil
        · rw [visitsAmong_eq, List.filterMap_flatMap, List.nodup_flatMap]
          refine ⟨fun e he => ih ((mem_entries_iff hfs h).mp he), ?_⟩
          refine (List.pairwise_map.mp hsound.1).imp_of_mem fun {e e'} he he' hne => ?_
          intro q hq hq'
          obtain ⟨below, _, rfl⟩ := hbelow e he q hq
          obtain ⟨below', _, heq⟩ := hbelow e' he' _ hq'
          exact hne (List.cons.inj (List.append_cancel_left heq)).1
      · intro q hq q' hq' heq
        obtain ⟨name, rfl⟩ : ∃ name, q = here ++ [name] := by
          rw [mem_places_iff, entriesOf] at hq
          split at hq
          · cases hq
          · obtain ⟨e, _, hentry⟩ := List.mem_map.mp hq
            exact ⟨e.1, (Visit.entry.inj hentry).symm⟩
        rw [← heq] at hq'
        split at hq'
        · cases hq'
        · rw [visitsAmong_eq, List.filterMap_flatMap, List.mem_flatMap] at hq'
          obtain ⟨e, he, hq'⟩ := hq'
          obtain ⟨below, hne, hplace⟩ := hbelow e he _ hq'
          exact hne (List.cons.inj (List.append_cancel_left hplace)).2.symm
    | _ => simp [visits]

end Sound

/-! ## 3. Files -/

/-- A file stands at a place, or a link that leads to it through at most forty links, itself
    counted. -/
inductive FileAt (fs : FileSystem) (q : Place) : Place → Bytes → Prop
  | file {content : Bytes} (h : fs.root.at? q = some (.file content)) : FileAt fs q q content
  | link {target : String} {there : Place} {content : Bytes} {k : Nat}
      (h : fs.root.at? q = some (.link target)) (hlinks : k < linkLimit)
      (hfollows : Follows fs (startOf q.dropLast target.toList) (partsOf target.toList) k there [])
      (hfile : fs.root.at? there = some (.file content)) : FileAt fs q there content

theorem FileAt.isSome {q there : Place} {content : Bytes} (h : FileAt fs q there content) :
    (fs.root.at? q).isSome := by
  cases h with
  | file h => rw [h]; rfl
  | link h => rw [h]; rfl

/-- No file stands where a folder does. -/
theorem not_fileAt_folder {q there : Place} {es : List (String × Node)} {content : Bytes}
    (hq : fs.root.at? q = some (.folder es)) : ¬FileAt fs q there content := by
  intro h
  cases h with
  | file h => cases hq.symm.trans h
  | link h => cases hq.symm.trans h

/-- An entry is or leads to one file. -/
theorem FileAt.unique {q there there' : Place} {content content' : Bytes}
    (h : FileAt fs q there content) (h' : FileAt fs q there' content') :
    there = there' ∧ content = content' := by
  cases h with
  | file hfile =>
    cases h' with
    | file hfile' =>
      cases hfile.symm.trans hfile'
      exact ⟨rfl, rfl⟩
    | link hlink' => cases hfile.symm.trans hlink'
  | link hlink hk hfollows hfile =>
    cases h' with
    | file hfile' => cases hlink.symm.trans hfile'
    | link hlink' hk' hfollows' hfile' =>
      cases hlink.symm.trans hlink'
      have hwalk := walk_eq_ok_iff.mpr ⟨_, Nat.le_of_lt hk, hfollows⟩
      have hwalk' := walk_eq_ok_iff.mpr ⟨_, Nat.le_of_lt hk', hfollows'⟩
      cases hwalk.symm.trans hwalk'
      cases hfile.symm.trans hfile'
      exact ⟨rfl, rfl⟩

/-- An entry that cannot be looked at: the path to it is too long, or is stopped on its way. -/
def Untestable (fs : FileSystem) (q : Place) : Prop :=
  pathLimit ≤ (placeText q).utf8ByteSize ∨ fs.Barred [] q

/-- A place that cannot be looked at is an error. -/
theorem lookAt_of_untestable {q : Place} (h : fs.Untestable q) :
    ∃ cause, fs.lookAt q = .error cause := by
  unfold lookAt
  by_cases hlong : pathLimit ≤ (placeText q).utf8ByteSize
  · exact ⟨_, by rw [if_pos hlong]⟩
  · obtain ⟨e, he, hwalk⟩ := barred_iff.mp (h.resolve_left hlong)
    rw [if_neg hlong, hwalk]
    cases e with
    | nameTooLong => exact ⟨_, rfl⟩
    | denied => exact ⟨_, rfl⟩
    | _ => cases he

/-- Where a path leads to that can be looked at. -/
theorem lookAt_of_testable {q : Place} (h : ¬fs.Untestable q) :
    fs.lookAt q = .ok (fs.walk linkLimit [] q).toOption := by
  have hwalk : ∀ e : WalkTrouble, e.stops = true → fs.walk linkLimit [] q ≠ .error e :=
    fun e he heq => h (.inr (barred_iff.mpr ⟨e, he, heq⟩))
  unfold lookAt
  rw [if_neg fun hlong => h (.inl hlong)]
  cases hq : fs.walk linkLimit [] q with
  | ok there => rfl
  | error e =>
    cases e with
    | nameTooLong => exact absurd hq (hwalk _ rfl)
    | denied => exact absurd hq (hwalk _ rfl)
    | _ => rfl

/-- A place that can be looked at is a file just if its path leads to one. -/
theorem exists_fileAt? {q : Place} (h : ¬fs.Untestable q) : ∃ file, fs.fileAt? q = .ok file ∧
    ∀ there content, file = some (there, content) ↔
      fs.walk linkLimit [] q = .ok there ∧ fs.root.at? there = some (.file content) := by
  rw [fileAt?, lookAt_of_testable h]
  cases hwalk : fs.walk linkLimit [] q with
  | error e => exact ⟨none, rfl, by simp⟩
  | ok there =>
    dsimp only [Except.toOption]
    split
    · rename_i content hfile
      refine ⟨_, rfl, fun there' content' => ?_⟩
      constructor
      · intro heq
        cases heq
        exact ⟨rfl, hfile⟩
      · intro ⟨heq, hfile'⟩
        cases heq
        cases hfile.symm.trans hfile'
        rfl
    · rename_i hno
      refine ⟨none, rfl, fun there' content' => ⟨fun heq => (nomatch heq), fun ⟨heq, hfile'⟩ => ?_⟩⟩
      cases heq
      exact absurd hfile' (hno content')

/-- The entries that cannot be looked at are those that are an error. -/
theorem fileAt?_eq_error_iff {q : Place} :
    (∃ cause, fs.fileAt? q = .error cause) ↔ fs.Untestable q := by
  constructor
  · intro ⟨cause, hcause⟩
    by_contra h
    obtain ⟨file, hok, -⟩ := exists_fileAt? h
    cases hcause.symm.trans hok
  · intro h
    obtain ⟨cause, hcause⟩ := lookAt_of_untestable h
    exact ⟨cause, by rw [fileAt?, hcause]⟩

/-- A folder on a path that is not stopped is open, if a component of it is looked up there. -/
theorem open_of_follows {here dir : Place} {parts : List String} {part : String}
    {rest : List String} {k : Nat} (h : ¬fs.Barred here parts) (hk : k ≤ linkLimit)
    (hfollows : Follows fs here parts k dir (part :: rest)) (hpart : part ≠ "")
    {es : List (String × Node)} (hfolder : fs.root.at? dir = some (.folder es)) :
    dir ∉ fs.closed :=
  fun hclosed => h ⟨k, hk, dir, part, rest, .denied, hfollows, .closed hfolder hpart hclosed⟩

section Sound

variable (hfs : fs.root.Sound)

include hfs

/-- The path to an entry goes down to the folder that holds it. -/
theorem follows_parent {dir : Place} {es : List (String × Node)}
    (hdir : fs.root.at? dir = some (.folder es)) {more : List String}
    (h : ¬fs.Barred [] (dir ++ more)) : Follows fs [] (dir ++ more) 0 dir more := by
  induction dir using List.reverseRecOn generalizing es more with
  | nil => exact .refl
  | append_singleton dir name ih =>
    obtain ⟨es', hfolder, hentry⟩ := Node.at?_concat_eq_some_iff.mp hdir
    have hname := ((hfs.at? hfolder).lookup hentry).1
    rw [List.append_assoc] at h ⊢
    have habove := ih hfolder h
    have hopen := open_of_follows h (Nat.zero_le _) habove hname.ne_empty hfolder
    exact habove.trans (.step (.down hfolder hopen hname.toIsName hentry
      (fun _ => Node.noConfusion)) .refl)

/-- The path to an entry that is no link arrives at its place. -/
theorem walk_place {q : Place} {n : Node} (hq : fs.root.at? q = some n)
    (hn : ∀ target, n ≠ .link target) (h : ¬fs.Barred [] q) :
    fs.walk linkLimit [] q = .ok q := by
  rcases List.eq_nil_or_concat q with rfl | ⟨dir, name, rfl⟩
  · exact walk_nil _ _
  rw [List.concat_eq_append] at hq h ⊢
  obtain ⟨es, hfolder, hentry⟩ := Node.at?_concat_eq_some_iff.mp hq
  have hname := ((hfs.at? hfolder).lookup hentry).1
  have habove := follows_parent hfs hfolder h
  have hopen := open_of_follows h (Nat.zero_le _) habove hname.ne_empty hfolder
  exact walk_eq_ok_iff.mpr ⟨0, Nat.zero_le _,
    habove.trans (.step (.down hfolder hopen hname.toIsName hentry hn) .refl)⟩

/-- The path to a link goes on with its target. -/
theorem walk_link {q : Place} (hne : q ≠ []) {target : String}
    (hq : fs.root.at? q = some (.link target)) (h : ¬fs.Barred [] q) :
    fs.walk linkLimit [] q =
      fs.walk (linkLimit - 1) (startOf q.dropLast target.toList) (partsOf target.toList) := by
  rcases List.eq_nil_or_concat q with rfl | ⟨dir, name, rfl⟩
  · exact absurd rfl hne
  rw [List.concat_eq_append] at hq h ⊢
  rw [List.dropLast_concat]
  obtain ⟨es, hfolder, hentry⟩ := Node.at?_concat_eq_some_iff.mp hq
  obtain ⟨hname, hshort⟩ := (hfs.at? hfolder).lookup hentry
  rw [Node.Sound] at hshort
  have habove := follows_parent hfs hfolder h
  have hopen := open_of_follows h (Nat.zero_le _) habove hname.ne_empty hfolder
  have hlink : Follows fs [] (dir ++ [name]) 1 (startOf dir target.toList)
      (partsOf target.toList ++ []) :=
    habove.trans (.step (.link hfolder hopen hname.toIsName hentry hshort) .refl)
  rw [List.append_nil] at hlink
  exact walk_of_follows hlink (linkLimit - 1)

/-- The path to an entry arrives at a file just where one stands or a link leads to it. -/
theorem fileAt_iff_walk {q : Place} (hne : q ≠ []) {n : Node} (hq : fs.root.at? q = some n)
    (h : ¬fs.Barred [] q) {there : Place} {content : Bytes} : FileAt fs q there content ↔
      fs.walk linkLimit [] q = .ok there ∧ fs.root.at? there = some (.file content) := by
  constructor
  · intro hat
    cases hat with
    | file hfile => exact ⟨walk_place hfs hfile (fun _ => Node.noConfusion) h, hfile⟩
    | link hlink hk hfollows hfile =>
      rw [walk_link hfs hne hlink h]
      exact ⟨walk_eq_ok_iff.mpr ⟨_, Nat.le_sub_one_of_lt hk, hfollows⟩, hfile⟩
  · intro ⟨hwalk, hfile⟩
    cases n with
    | link target =>
      rw [walk_link hfs hne hq h] at hwalk
      obtain ⟨k, hk, hfollows⟩ := walk_eq_ok_iff.mp hwalk
      exact .link hq (Nat.lt_of_le_of_lt hk (by decide)) hfollows hfile
    | _ =>
      rw [walk_place hfs hq (fun _ => Node.noConfusion) h] at hwalk
      cases hwalk
      exact .file hfile

/-- **The file that an entry is or leads to is found**, if the entry can be looked at. -/
theorem fileAt?_of_testable {q : Place} (hne : q ≠ []) {n : Node} (hq : fs.root.at? q = some n)
    (h : ¬fs.Untestable q) : ∃ file, fs.fileAt? q = .ok file ∧
      ∀ there content, file = some (there, content) ↔ FileAt fs q there content := by
  simp only [fileAt_iff_walk hfs hne hq fun hbarred => h (.inr hbarred)]
  exact exists_fileAt? h

end Sound

end FileSystem

end CodeSession.Folder
