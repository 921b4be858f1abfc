import CodeSession.Text.Parts

/-!
# Paths

A path as its components. Empty components and single dots go when a path is read
(`Path.parse`), so `a//b/./c/` is `a/b/c`; the path without components is written as a dot.
-/

namespace CodeSession.Folder

/-- What a path starts from: where the reader stands, the root, or the root written with exactly
    two slashes. -/
inductive Anchor where
  | here
  | root
  | doubleRoot
  deriving DecidableEq, Repr

/-- A path. -/
structure Path where
  anchor : Anchor
  components : List String
  deriving DecidableEq, Repr

/-! ## 1. Components -/

/-- The components of a path text, without empty ones and single dots. -/
def componentsOf (s : String) : List String :=
  ((Text.parts '/' s.toList).filter fun p => !p.isEmpty && p != ['.']).map String.ofList

namespace Path

/-! ## 2. Reading and writing -/

/-- What a path text starts from. -/
def anchorOf (cs : List Char) : Anchor :=
  match cs.takeWhile (· == '/') with
  | [] => .here
  | [_, _] => .doubleRoot
  | _ => .root

/-- The path of a text. -/
def parse (s : String) : Path :=
  ⟨anchorOf s.toList, componentsOf s⟩

/-- The text of a path. -/
def text (p : Path) : String :=
  let rest := "/".intercalate p.components
  match p.anchor with
  | .here => if p.components.isEmpty then "." else rest
  | .root => "/" ++ rest
  | .doubleRoot => "//" ++ rest

/-! ## 3. Home directories -/

/-- Why there is no home directory. -/
inductive HomeTrouble where
  | unknown
  | badName
  deriving DecidableEq, Repr

/-- The path of a home directory; none if its text starts with a tilde itself. -/
def homeOf? (home : String) : Option Path :=
  if home.toList.all (· == '/') then some ⟨.root, []⟩
  else if home.toList.head? == some '~' then none
  else some (parse home)

/-- The home directory that a tilde and the name after it stand for: one's own without a name, else
    that of the user who has the name. -/
def homeText (home : String) (users : List (String × String)) (name : List Char) :
    Except HomeTrouble String :=
  if name.isEmpty then .ok home
  else if name.contains '\x00' then .error .badName
  else
    match users.lookup (String.ofList name) with
    | some text => .ok text
    | none => .error .unknown

/-- The path with a first component that starts with a tilde replaced by the home directory that it
    stands for. -/
def expandHome (home : String) (users : List (String × String)) (p : Path) :
    Except HomeTrouble Path :=
  match p.anchor, p.components with
  | .here, c :: rest =>
    match c.toList with
    | '~' :: name =>
      match homeText home users name with
      | .error t => .error t
      | .ok text =>
        match homeOf? text with
        | some h => .ok ⟨h.anchor, h.components ++ rest⟩
        | none => .error .unknown
    | _ => .ok p
  | _, _ => .ok p

end Path

end CodeSession.Folder
