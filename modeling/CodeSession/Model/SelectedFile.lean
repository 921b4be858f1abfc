import CodeSession.Text.Utf8
import CodeSession.Validation.Field

/-! # Selected files -/

namespace CodeSession

open Validation Json

/-- The content type of what is not known better. -/
def unknownContentType : String := "application/octet-stream"

/-- A file of a folder selection; the path starts with the folder's own name. -/
structure SelectedFile where
  relativePath : String
  content : Text.Bytes
  contentType : String
  deriving DecidableEq, Repr

namespace SelectedFile

/-- What may be given as the content of a file: bytes, or some other value. -/
inductive Content where
  | bytes (bs : Text.Bytes)
  | value (v : Value)

/-- Bytes; a text counts as its bytes in UTF-8. -/
def readContent : Content → Checked Text.Bytes
  | .bytes bs => .ok bs
  | .value (.string s) => .ok (Text.Utf8.encode s)
  | .value _ => .refuse .notBytes

/-- The file that a content and the other fields of an object describe. -/
def ofFields (content : Option Content) (fields : Members) : Checked SelectedFile :=
  let checkedContent := match content with
    | some c => (readContent c).under (.field "content")
    | none => (Checked.refuse .missing).under (.field "content")
  (Checked.both (required "relative_path" someText fields)
    (Checked.both checkedContent
      (withDefault "content_type" unknownContentType text fields))).map
    fun p => ⟨p.1, p.2.1, p.2.2⟩

end SelectedFile

end CodeSession
