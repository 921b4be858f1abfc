import CodeSession.Folder.ContentType
import CodeSession.Folder.Tree
import CodeSession.Model.SelectedFile
import CodeSession.Text.Quoted

/-!
# Folder selections

The files below a folder, as a folder picker would give them. Links to files count as files,
linked folders are not entered, links that lead nowhere are skipped, and so are folders that may not
be listed. The files are in the order of their lists of path components.

* `FileSystem.collect` -- the selection of a folder path, or why there is none;
* `FileSystem.visits` -- what a walk through a folder comes to, in the order in which it does;
* `FileSystem.fileAt?` -- the file that an entry is or leads to: the path to the entry is followed,
  so the links on the way count and the path may be too long;
* `sortFiles_perm` -- no file is lost or doubled when they are put in order.
-/

namespace CodeSession.Folder

open Text

/-! ## 1. Troubles -/

/-- Why something cannot be looked at or read. -/
inductive ReadTrouble where
  | denied (path : String)
  | nameTooLong (path : String)
  deriving DecidableEq, Repr

/-- What is said about a file that cannot be read. -/
def ReadTrouble.message : ReadTrouble → String
  | .denied path => "[Errno 13] Permission denied: " ++ quoted path
  | .nameTooLong path => "[Errno 36] File name too long: " ++ quoted path

/-- Why the files of a folder are not had: one of them cannot be looked at or read, the folder is
    nested too deep, or the path of a file is no text. -/
inductive FolderTrouble where
  | read (cause : ReadTrouble)
  | tooDeep
  | notText
  deriving DecidableEq, Repr

/-- Why there is no selection. -/
inductive SelectionTrouble where
  | home (cause : Path.HomeTrouble)
  | untestable (cause : ReadTrouble)
  | notAFolder (path : String)
  | unreadable (path : String) (cause : ReadTrouble)
  | tooDeep
  | notText
  deriving DecidableEq, Repr

/-- What is said about a trouble. -/
def SelectionTrouble.message : SelectionTrouble → String
  | .home .unknown => "Could not determine home directory."
  | .home .badName => "embedded null byte"
  | .untestable cause => cause.message
  | .notAFolder path => "Not a directory: " ++ path
  | .unreadable path cause => "Cannot read folder " ++ path ++ ": " ++ cause.message
  | .tooDeep => "maximum recursion depth exceeded"
  | .notText => "relative_path: Input should be a valid string, unable to parse raw data as a "
      ++ "unicode string [string_unicode]"

/-- Whether a trouble is told as one of the folder. -/
def SelectionTrouble.isOfFolder : SelectionTrouble → Bool
  | .notAFolder _ => true
  | .unreadable _ _ => true
  | _ => false

/-! ## 2. What stands below a folder -/

/-- What a walk through a folder comes to: an entry, or a folder that lies too deep to go on. -/
inductive Visit where
  | entry (place : Place)
  | tooDeep
  deriving DecidableEq, Repr

namespace FileSystem

/-- The entries of a folder, as a walk comes to them: all, or none if it may not be listed. -/
def entriesOf (fs : FileSystem) (here : Place) (es : List (String × Node)) : List Visit :=
  if fs.unlisted.contains here then [] else es.map fun e => .entry (here ++ [e.1])

mutual

/-- What a walk that has so many levels left comes to in a folder: its entries, and then what is in
    the folders among them, one after the other. -/
def visits (fs : FileSystem) (here : Place) : Node → Nat → List Visit
  | .folder es, 0 => fs.entriesOf here es ++ [.tooDeep]
  | .folder es, levels + 1 =>
    fs.entriesOf here es ++
      (if fs.unlisted.contains here then [] else visitsAmong fs here es levels)
  | .file _, _ => []
  | .link _, _ => []

/-- What a walk comes to in the folders among entries. -/
def visitsAmong (fs : FileSystem) (here : Place) : List (String × Node) → Nat → List Visit
  | [], _ => []
  | (name, n) :: rest, levels =>
    visits fs (here ++ [name]) n levels ++ visitsAmong fs here rest levels

end

end FileSystem

/-- The order of places: component by component. -/
def placeLE (a b : Place) : Bool :=
  !decide (b < a)

/-- Files in the order of their places. -/
def sortFiles (files : List (Place × Place × Bytes)) : List (Place × Place × Bytes) :=
  files.mergeSort fun a b => placeLE a.1 b.1

theorem sortFiles_perm (files : List (Place × Place × Bytes)) : (sortFiles files).Perm files :=
  List.mergeSort_perm _ _

/-! ## 3. Reading -/

namespace FileSystem

/-- Where the path to a place leads; nowhere if nothing stands there. -/
def lookAt (fs : FileSystem) (place : Place) : Except ReadTrouble (Option Place) :=
  if pathLimit ≤ (placeText place).utf8ByteSize then .error (.nameTooLong (placeText place))
  else
    match fs.walk linkLimit [] place with
    | .ok there => .ok (some there)
    | .error .nameTooLong => .error (.nameTooLong (placeText place))
    | .error .denied => .error (.denied (placeText place))
    | .error _ => .ok none

/-- The place and the content of the file that stands at a place, or that a link there leads to;
    none if there is no such file. -/
def fileAt? (fs : FileSystem) (place : Place) : Except ReadTrouble (Option (Place × Bytes)) :=
  match fs.lookAt place with
  | .error cause => .error cause
  | .ok none => .ok none
  | .ok (some there) =>
    match fs.root.at? there with
    | some (.file content) => .ok (some (there, content))
    | _ => .ok none

/-- The files among what a walk comes to, links followed: the place of the entry, the place of the
    file and its content. -/
def followAll (fs : FileSystem) : List Visit → Except FolderTrouble (List (Place × Place × Bytes))
  | [] => .ok []
  | .tooDeep :: _ => .error .tooDeep
  | .entry place :: rest =>
    match fs.fileAt? place with
    | .error cause => .error (.read cause)
    | .ok none => fs.followAll rest
    | .ok (some (there, content)) =>
      (fs.followAll rest).map fun others => (place, there, content) :: others

/-- The selected file of an entry; `depth` components lead to the folder that holds the selected
    one. -/
def select (fs : FileSystem) (depth : Nat) (place there : Place) (content : Bytes) :
    Except FolderTrouble SelectedFile :=
  if fs.unreadable.contains there then .error (.read (.denied (placeText place)))
  else if (place.drop depth).any fs.garbled.contains then .error .notText
  else .ok
    ⟨"/".intercalate (place.drop depth), content,
      (contentType? (place.getLastD "")).getD unknownContentType⟩

/-- The selected files of entries, up to the first that cannot be read or is refused. -/
def selectAll (fs : FileSystem) (depth : Nat) :
    List (Place × Place × Bytes) → Except FolderTrouble (List SelectedFile)
  | [] => .ok []
  | (place, there, content) :: rest => do
    let file ← fs.select depth place there content
    let others ← fs.selectAll depth rest
    return file :: others

/-- The selected files below a folder. -/
def readFolder (fs : FileSystem) (place : Place) (folder : Node) :
    Except FolderTrouble (List SelectedFile) :=
  match fs.lookAt place with
  | .error cause => .error (.read cause)
  | .ok _ => do
    let files ← fs.followAll (fs.visits place folder fs.levels)
    fs.selectAll (place.length - 1) (sortFiles files)

/-- What a trouble with the files of a folder means to a selection. -/
def troubleOf (path : String) : FolderTrouble → SelectionTrouble
  | .read cause => .unreadable path cause
  | .tooDeep => .tooDeep
  | .notText => .notText

/-- The selection of a folder path. -/
def collect (fs : FileSystem) (path : String) : Except SelectionTrouble (List SelectedFile) :=
  match (Path.parse path).expandHome fs.home fs.users with
  | .error cause => .error (.home cause)
  | .ok p =>
    match fs.locate p.text with
    | .error .nameTooLong => .error (.untestable (.nameTooLong p.text))
    | .error .denied => .error (.untestable (.denied p.text))
    | .error _ => .error (.notAFolder p.text)
    | .ok place =>
      match fs.root.at? place with
      | some (.folder es) => (fs.readFolder place (.folder es)).mapError (troubleOf p.text)
      | _ => .error (.notAFolder p.text)

end FileSystem

end CodeSession.Folder
