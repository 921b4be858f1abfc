import CodeSession.Proofs.Folder.Trees

/-!
# The order of entries

Two trees that differ only in the order in which their folders list the entries: the same stands at
every place, so paths lead to the same places and the same files are found.

* `Relisted` -- a tree whose folders list their entries in another order;
* `shapeAt_of_relisted` -- what stands at a place does not depend on the order;
* `Alike` -- file systems with the same at every place: `Alike.follows`, `Alike.fileAt`,
  `Alike.untestable` and `Alike.met` carry over what is said of paths, files and entries.
-/

namespace CodeSession.Folder

open FileSystem Text

/-! ## 1. Trees -/

mutual

/-- A tree with the entries of its folders in another order. -/
inductive Relisted : Node → Node → Prop
  | file (content : Bytes) : Relisted (.file content) (.file content)
  | link (target : String) : Relisted (.link target) (.link target)
  | folder {es es' es'' : List (String × Node)} (below : RelistedEntries es es')
      (order : es'.Perm es'') : Relisted (.folder es) (.folder es'')

/-- Entries in their order, each with its tree relisted. -/
inductive RelistedEntries : List (String × Node) → List (String × Node) → Prop
  | nil : RelistedEntries [] []
  | cons {name : String} {n n' : Node} {es es' : List (String × Node)} (first : Relisted n n')
      (rest : RelistedEntries es es') : RelistedEntries ((name, n) :: es) ((name, n') :: es')

end

mutual

theorem Relisted.refl : ∀ n : Node, Relisted n n
  | .file content => .file content
  | .link target => .link target
  | .folder es => .folder (RelistedEntries.refl es) (List.Perm.refl es)

theorem RelistedEntries.refl : ∀ es : List (String × Node), RelistedEntries es es
  | [] => .nil
  | (_, n) :: es => .cons (Relisted.refl n) (RelistedEntries.refl es)

end

namespace RelistedEntries

variable {es es' : List (String × Node)}

theorem names (h : RelistedEntries es es') : es'.map Prod.fst = es.map Prod.fst := by
  induction es generalizing es' with
  | nil => cases h; rfl
  | cons e es ih =>
    cases h with
    | cons _ rest => rw [List.map_cons, List.map_cons, ih rest]

theorem lookup (h : RelistedEntries es es') (name : String) :
    Option.Rel Relisted (es.lookup name) (es'.lookup name) := by
  induction es generalizing es' with
  | nil => cases h; exact .none
  | cons e es ih =>
    cases h with
    | @cons entry _ _ _ _ first rest =>
      rw [List.lookup_cons, List.lookup_cons]
      cases name == entry with
      | true => exact .some first
      | false => exact ih rest

end RelistedEntries

/-- An entry is found in whatever order a folder lists its entries. -/
theorem Relisted.lookup {es es'' : List (String × Node)}
    (h : Relisted (.folder es) (.folder es'')) (hes : (es.map Prod.fst).Nodup) (name : String) :
    Option.Rel Relisted (es.lookup name) (es''.lookup name) := by
  cases h with
  | @folder _ es' _ below order =>
    have hnodup : (es'.map Prod.fst).Nodup := below.names ▸ hes
    have hlookup : es''.lookup name = es'.lookup name := by
      apply Option.ext
      intro n
      rw [Node.lookup_eq_some_iff hnodup,
        Node.lookup_eq_some_iff ((order.map Prod.fst).nodup hnodup), order.mem_iff]
    rw [hlookup]
    exact below.lookup name

mutual

/-- A sound tree stays sound. -/
theorem Node.Sound.relisted : ∀ {n n' : Node}, n.Sound → Relisted n n' → n'.Sound
  | .file _, _, h, .file _ => h
  | .link _, _, h, .link _ => h
  | .folder es, _, h, .folder below order => by
      rw [Node.Sound] at h ⊢
      have hnodup := below.names ▸ h.1
      refine ⟨(order.map Prod.fst).nodup hnodup, ?_⟩
      rw [Node.soundEntries_iff]
      intro e he
      exact Node.soundEntries_iff.mp (Node.SoundEntries.relisted h.2 below) e (order.mem_iff.mpr he)

theorem Node.SoundEntries.relisted : ∀ {es es' : List (String × Node)}, Node.SoundEntries es →
    RelistedEntries es es' → Node.SoundEntries es'
  | [], _, h, .nil => h
  | (_, _) :: _, _, h, .cons first rest => by
      rw [Node.SoundEntries] at h ⊢
      exact ⟨h.1, Node.Sound.relisted h.2.1 first, Node.SoundEntries.relisted h.2.2 rest⟩

end

/-! ## 2. What stands at a place -/

/-- What stands at a place, without what stands below it. -/
inductive Shape where
  | file (content : Bytes)
  | folder
  | link (target : String)

/-- A node without what stands below it. -/
def Node.shape : Node → Shape
  | .file content => .file content
  | .folder _ => .folder
  | .link target => .link target

/-- What stands at a place of a tree. -/
def Node.shapeAt (n : Node) (p : Place) : Option Shape :=
  (n.at? p).map Node.shape

theorem Relisted.shape {n n' : Node} (h : Relisted n n') : n.shape = n'.shape := by
  cases h <;> rfl

/-- **What stands at a place does not depend on the order of entries.** -/
theorem shapeAt_of_relisted {n n' : Node} (hn : n.Sound) (h : Relisted n n') (p : Place) :
    n.shapeAt p = n'.shapeAt p := by
  induction p generalizing n n' with
  | nil => exact congrArg some h.shape
  | cons name p ih =>
    cases h with
    | file => rfl
    | link => rfl
    | @folder es _ es'' below order =>
      have hlookup := Relisted.lookup (.folder below order) (by rw [Node.Sound] at hn; exact hn.1) name
      have hat : ∀ es : List (String × Node), (Node.folder es).shapeAt (name :: p) =
          (es.lookup name).bind fun m => m.shapeAt p := by
        intro es
        show ((es.lookup name).bind (Node.at? p)).map Node.shape = _
        rw [Option.map_bind]
        rfl
      rw [hat, hat]
      cases hentry : es.lookup name with
      | none =>
        rw [hentry] at hlookup
        cases hentry' : es''.lookup name with
        | none => rfl
        | some m' => rw [hentry'] at hlookup; cases hlookup
      | some m =>
        rw [hentry] at hlookup
        cases hentry' : es''.lookup name with
        | none => rw [hentry'] at hlookup; cases hlookup
        | some m' =>
          rw [hentry'] at hlookup
          cases hlookup with
          | some hm => exact ih (hn.lookup hentry).2 hm

/-! ## 3. File systems -/

namespace FileSystem

/-- File systems that have the same at every place, and are the same but for their trees. -/
structure Alike (fs fs' : FileSystem) : Prop where
  shapeAt : ∀ p, fs.root.shapeAt p = fs'.root.shapeAt p
  same : { fs with root := fs'.root } = fs'

variable {fs fs' : FileSystem}

theorem Alike.symm (h : Alike fs fs') : Alike fs' fs := by
  refine ⟨fun p => (h.shapeAt p).symm, ?_⟩
  rw [← h.same]

theorem alike_of_relisted (hfs : fs.root.Sound) {root : Node} (h : Relisted fs.root root) :
    Alike fs { fs with root := root } :=
  ⟨shapeAt_of_relisted hfs h, rfl⟩

theorem Alike.workingFolder (h : Alike fs fs') : fs.workingFolder = fs'.workingFolder := by
  rw [← h.same]

theorem Alike.home (h : Alike fs fs') : fs.home = fs'.home := by
  rw [← h.same]

theorem Alike.users (h : Alike fs fs') : fs.users = fs'.users := by
  rw [← h.same]

theorem Alike.unreadable (h : Alike fs fs') : fs.unreadable = fs'.unreadable := by
  rw [← h.same]

theorem Alike.closed (h : Alike fs fs') : fs.closed = fs'.closed := by
  rw [← h.same]

theorem Alike.unlisted (h : Alike fs fs') : fs.unlisted = fs'.unlisted := by
  rw [← h.same]

theorem Alike.garbled (h : Alike fs fs') : fs.garbled = fs'.garbled := by
  rw [← h.same]

theorem Alike.levels (h : Alike fs fs') : fs.levels = fs'.levels := by
  rw [← h.same]

/-- The same stands at every place. -/
theorem Alike.at? (h : Alike fs fs') {p : Place} {n : Node} (hp : fs.root.at? p = some n) :
    ∃ n', fs'.root.at? p = some n' ∧ n'.shape = n.shape := by
  have hshape := h.shapeAt p
  rw [Node.shapeAt, Node.shapeAt, hp, Option.map_some] at hshape
  exact Option.map_eq_some_iff.mp hshape.symm

theorem Alike.folder (h : Alike fs fs') {p : Place} {es : List (String × Node)}
    (hp : fs.root.at? p = some (.folder es)) : ∃ es', fs'.root.at? p = some (.folder es') := by
  obtain ⟨n, hn, hshape⟩ := h.at? hp
  cases n with
  | folder es' => exact ⟨es', hn⟩
  | _ => cases hshape

theorem Alike.file (h : Alike fs fs') {p : Place} {content : Bytes}
    (hp : fs.root.at? p = some (.file content)) : fs'.root.at? p = some (.file content) := by
  obtain ⟨n, hn, hshape⟩ := h.at? hp
  cases n <;> cases hshape
  exact hn

theorem Alike.link (h : Alike fs fs') {p : Place} {target : String}
    (hp : fs.root.at? p = some (.link target)) : fs'.root.at? p = some (.link target) := by
  obtain ⟨n, hn, hshape⟩ := h.at? hp
  cases n <;> cases hshape
  exact hn

theorem Alike.isSome (h : Alike fs fs') (p : Place) :
    (fs.root.at? p).isSome = (fs'.root.at? p).isSome := by
  simpa [Node.shapeAt] using congrArg Option.isSome (h.shapeAt p)

/-- A folder that is open is so in the other file system. -/
theorem Alike.opened (h : Alike fs fs') {p : Place} (hp : p ∉ fs.closed) : p ∉ fs'.closed :=
  h.closed ▸ hp

/-- Paths take the same steps. -/
theorem Alike.step (h : Alike fs fs') {here mid : Place} {parts ms : List String} {j : Nat}
    (hstep : Step fs here parts j mid ms) : Step fs' here parts j mid ms := by
  cases hstep with
  | slash hfolder =>
    obtain ⟨es', hfolder'⟩ := h.folder hfolder
    exact .slash hfolder'
  | dot hfolder hopen =>
    obtain ⟨es', hfolder'⟩ := h.folder hfolder
    exact .dot hfolder' (h.opened hopen)
  | up hfolder hopen =>
    obtain ⟨es', hfolder'⟩ := h.folder hfolder
    exact .up hfolder' (h.opened hopen)
  | @down es part _ node hfolder hopen hname hentry hnode =>
    have hplace : fs.root.at? (here ++ [part]) = some node :=
      Node.at?_concat_eq_some_iff.mpr ⟨es, hfolder, hentry⟩
    obtain ⟨node', hplace', hshape⟩ := h.at? hplace
    obtain ⟨es', hfolder', hentry'⟩ := Node.at?_concat_eq_some_iff.mp hplace'
    refine .down hfolder' (h.opened hopen) hname hentry' fun target htarget => ?_
    rw [htarget] at hshape
    cases node with
    | link target' => exact hnode target' rfl
    | _ => cases hshape
  | @link es part _ target hfolder hopen hname hentry hshort =>
    have hplace : fs.root.at? (here ++ [part]) = some (.link target) :=
      Node.at?_concat_eq_some_iff.mpr ⟨es, hfolder, hentry⟩
    obtain ⟨es', hfolder', hentry'⟩ := Node.at?_concat_eq_some_iff.mp (h.link hplace)
    exact .link hfolder' (h.opened hopen) hname hentry' hshort

/-- Paths lead to the same places. -/
theorem Alike.follows (h : Alike fs fs') {here there : Place} {parts ts : List String} {k : Nat}
    (hfollows : Follows fs here parts k there ts) : Follows fs' here parts k there ts := by
  induction hfollows with
  | refl => exact .refl
  | step first _ ih => exact .step (h.step first) ih

/-- The same components stop a walk. -/
theorem Alike.bars (h : Alike fs fs') {here : Place} {part : String} {e : WalkTrouble}
    (hbars : Bars fs here part e) : Bars fs' here part e := by
  cases hbars with
  | closed hfolder hpart hclosed =>
    obtain ⟨es', hfolder'⟩ := h.folder hfolder
    exact .closed hfolder' hpart (h.closed ▸ hclosed)
  | name hfolder hopen hlong =>
    obtain ⟨es', hfolder'⟩ := h.folder hfolder
    exact .name hfolder' (h.opened hopen) hlong
  | @target es target hfolder hopen hname hentry hlong =>
    have hplace : fs.root.at? (here ++ [part]) = some (.link target) :=
      Node.at?_concat_eq_some_iff.mpr ⟨es, hfolder, hentry⟩
    obtain ⟨es', hfolder', hentry'⟩ := Node.at?_concat_eq_some_iff.mp (h.link hplace)
    exact .target hfolder' (h.opened hopen) hname hentry' hlong

/-- The same files are found. -/
theorem Alike.fileAt (h : Alike fs fs') {q there : Place} {content : Bytes}
    (hfile : FileAt fs q there content) : FileAt fs' q there content := by
  cases hfile with
  | file hq => exact .file (h.file hq)
  | link hq hk hfollows hfile => exact .link (h.link hq) hk (h.follows hfollows) (h.file hfile)

/-- The same entries cannot be looked at. -/
theorem Alike.untestable (h : Alike fs fs') {q : Place} (hq : fs.Untestable q) :
    fs'.Untestable q := by
  rcases hq with hlong | ⟨k, hk, there, part, rest, e, hfollows, hbars⟩
  · exact .inl hlong
  · exact .inr ⟨k, hk, there, part, rest, e, h.follows hfollows, h.bars hbars⟩

/-- The same is met below a folder. -/
theorem Alike.met (h : Alike fs fs') {folder below : Place} (hmet : fs.Met folder below) :
    fs'.Met folder below :=
  ⟨(h.isSome _).symm.trans hmet.found,
    fun dir name rest heq => h.unlisted ▸ hmet.listed dir name rest heq⟩

end FileSystem

end CodeSession.Folder
