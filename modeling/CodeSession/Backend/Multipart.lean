import CodeSession.Backend.Url
import CodeSession.Model.SelectedFile

/-!
# Multipart bodies

The body of an upload: one part per file, each after a line with the boundary, with the name of
the field, the path as the file name, and the content type in its header. In file names quotes
and control characters are percent-encoded and backslashes doubled, so no name can end its header.
-/

namespace CodeSession.Backend.Multipart

open Text

/-- The line end of headers. -/
def lineEnd : Bytes := [0x0D, 0x0A]

/-- The name of the form field that holds the files. -/
def fieldName : String := "files"

/-- A character of a file name as it stands in a header. -/
def nameChar (c : Char) : List Char :=
  if c == '"' then percentChar c
  else if c == '\\' then ['\\', '\\']
  else if c.toNat < 0x20 && c.toNat != 0x1B then percentChar c
  else [c]

/-- A file name as it stands in a header. -/
def fileName (s : String) : String :=
  String.ofList (s.toList.flatMap nameChar)

/-- The header of a part. -/
def header (f : SelectedFile) : Bytes :=
  Utf8.encode ("Content-Disposition: form-data; name=\"" ++ fieldName ++ "\"; filename=\""
      ++ fileName f.relativePath ++ "\"")
    ++ lineEnd ++ Utf8.encode ("Content-Type: " ++ f.contentType) ++ lineEnd ++ lineEnd

/-- The line that starts a part. -/
def delimiter (boundary : String) : Bytes :=
  Utf8.encode ("--" ++ boundary)

/-- A part with the line that starts it and the line end after its content. -/
def part (boundary : String) (f : SelectedFile) : Bytes :=
  delimiter boundary ++ lineEnd ++ header f ++ f.content ++ lineEnd

/-- The body of an upload; without files it is empty. -/
def body (boundary : String) (files : List SelectedFile) : Bytes :=
  if files.isEmpty then []
  else files.flatMap (part boundary) ++ delimiter boundary ++ Utf8.encode "--" ++ lineEnd

/-- The content type of an upload. -/
def contentType (boundary : String) (files : List SelectedFile) : Option String :=
  if files.isEmpty then none else some ("multipart/form-data; boundary=" ++ boundary)

end CodeSession.Backend.Multipart
