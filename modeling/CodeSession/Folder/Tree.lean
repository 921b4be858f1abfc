import CodeSession.Folder.Path
import CodeSession.Text.Utf8

/-!
# File trees

Folders, files and symbolic links as a tree, and the way a path leads through it. `FileSystem.walk`
follows a path component by component: links are followed where they stand, `..` leads to the
folder above the place reached so far, and more than forty links end in a loop. No component is
looked up in a folder that may not be entered. There are neither devices nor sockets in a tree, its
disk does not fail, and nothing in it changes while a folder is read.
-/

namespace CodeSession.Folder

open Text

/-- What stands under a name. -/
inductive Node where
  | file (content : Bytes)
  | folder (entries : List (String × Node))
  | link (target : String)

instance : Inhabited Node := ⟨.folder []⟩

/-- A place in the tree: the names from the root to it. -/
abbrev Place := List String

/-- Why a path leads nowhere. -/
inductive WalkTrouble where
  | missing
  | notAFolder
  | tooManyLinks
  | nameTooLong
  | denied
  | badName
  deriving DecidableEq, Repr

/-- Whether a walk that ends so has been stopped, and not just found nothing. -/
def WalkTrouble.stops : WalkTrouble → Bool
  | .nameTooLong | .denied => true
  | _ => false

/-! ## 1. Looking up and putting in -/

namespace Node

/-- The entries of a folder; none for what is no folder. -/
def entries : Node → List (String × Node)
  | .folder es => es
  | _ => []

/-- The node at a place below a node. -/
def at? : Place → Node → Option Node
  | [], n => some n
  | name :: rest, .folder es => (es.lookup name).bind (at? rest)
  | _ :: _, _ => none

/-- Entries with one put in, in the place of one with its name or at the end. -/
def putEntry (name : String) (node : Node) : List (String × Node) → List (String × Node)
  | [] => [(name, node)]
  | (n, old) :: rest => if n = name then (name, node) :: rest else (n, old) :: putEntry name node rest

/-- A tree with a node put in at a place; the folders above it are made where they are missing. -/
def put (new : Node) : Place → Node → Node
  | [], .folder es => match new with
    | .folder _ => .folder es
    | n => n
  | [], _ => new
  | name :: rest, n =>
    let below := (n.entries.lookup name).getD (.folder [])
    .folder (putEntry name (put new rest below) n.entries)

end Node

/-! ## 2. File systems -/

/-- A tree of files, where its user stands in it and what may be done there. A file that is
    `unreadable` may not be read, a folder that is `closed` not be entered, one that is `unlisted` not
    be listed. Of the names in the tree those that are `garbled` are no texts, but stand for such, and
    a walk goes into as many folders within one another as it has `levels`. -/
structure FileSystem where
  root : Node
  workingFolder : Place
  home : String
  users : List (String × String) := []
  unreadable : List Place := []
  closed : List Place := []
  unlisted : List Place := []
  garbled : List String := []
  levels : Nat := 950

instance : Inhabited FileSystem :=
  ⟨{ root := .folder [], workingFolder := [], home := "/" }⟩

namespace FileSystem

/-- How many links a path may lead through. -/
def linkLimit : Nat := 40

/-- The most bytes that a component may have. -/
def nameLimit : Nat := 255

/-- The first number of bytes that a path may not have. -/
def pathLimit : Nat := 4096

/-- The place where a path starts. -/
def startOf (here : Place) (cs : List Char) : Place :=
  if cs.head? == some '/' then [] else here

/-- The parts of a path that the walk goes through; after a slash at the end stands an empty one. -/
def partsOf (cs : List Char) : List String :=
  ((parts '/' cs).filter fun p => !p.isEmpty).map String.ofList
    ++ (if cs.getLast? == some '/' then [""] else [])

/-- The place that a path leads to from a place. A link goes on with `follow`, from the folder it
    stands in, to its target and what is left. An empty part asks for a folder and looks up nothing. -/
def walkWith (fs : FileSystem) (follow : Place → List String → Except WalkTrouble Place) :
    Place → List String → Except WalkTrouble Place
  | here, [] => .ok here
  | here, part :: rest =>
    match fs.root.at? here with
    | some (.folder es) =>
      if part == "" then walkWith fs follow here rest
      else if fs.closed.contains here then .error .denied
      else if part == "." then walkWith fs follow here rest
      else if part == ".." then walkWith fs follow here.dropLast rest
      else if nameLimit < part.utf8ByteSize then .error .nameTooLong
      else
        match es.lookup part with
        | none => .error .missing
        | some (.link target) =>
          if pathLimit ≤ target.utf8ByteSize then .error .nameTooLong
          else follow (startOf here target.toList) (partsOf target.toList ++ rest)
        | some _ => walkWith fs follow (here ++ [part]) rest
    | some _ => .error .notAFolder
    | none => .error .missing

/-- The place that a path leads to through at most so many links. -/
def walk (fs : FileSystem) : Nat → Place → List String → Except WalkTrouble Place
  | 0 => walkWith fs fun _ _ => .error .tooManyLinks
  | links + 1 => walkWith fs (walk fs links)

/-- The place that a path text leads to from a place. -/
def locateFrom (fs : FileSystem) (here : Place) (path : String) : Except WalkTrouble Place :=
  let cs := path.toList
  if cs.contains '\x00' then .error .badName
  else if pathLimit ≤ path.utf8ByteSize then .error .nameTooLong
  else walk fs linkLimit (startOf here cs) (partsOf cs)

/-- The place that a path text leads to. -/
def locate (fs : FileSystem) (path : String) : Except WalkTrouble Place :=
  fs.locateFrom fs.workingFolder path

/-- The absolute path text of a place. -/
def placeText (p : Place) : String :=
  "/" ++ "/".intercalate p

end FileSystem

end CodeSession.Folder
