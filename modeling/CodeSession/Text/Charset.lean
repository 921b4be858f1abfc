import CodeSession.Text.Blank
import CodeSession.Text.Wide

/-!
# Character sets

The text that a byte sequence is read as under a content type. Whoever reads it brings the
encodings with the names they are known by (`Codecs`); without a parameter for the character set,
or with one that is not known, the text is UTF-8, and no bytes are no text in every encoding.

* `namesCharset` -- whether a content type has a parameter for the character set;
* `Codecs.read` -- the text of a byte sequence;
* `Charset.codecs` -- a few encodings with their names.
-/

namespace CodeSession.Text

/-! ## 1. The parameters of a content type -/

namespace ContentType

/-- The parts between the semicolons outside double quotes. `inside` says that a quote is open,
    `escaped` that the character before is a backslash, `part` is the part under way, reversed. -/
def splitParts (inside escaped : Bool) (part : List Char) : List Char → List (List Char)
  | [] => [part.reverse]
  | c :: cs =>
    if c == ';' && !inside then part.reverse :: splitParts false false [] cs
    else splitParts (if c == '"' && !escaped then !inside else inside) (c == '\\') (c :: part) cs

/-- A value without the quotes or angle brackets around it; in quotes, backslashes that escape a
    backslash or a quote go. -/
def unquote (cs : List Char) : List Char :=
  if 2 ≤ cs.length then
    let inner := (cs.drop 1).dropLast
    if cs.head? == some '"' && cs.getLast? == some '"' then unescape inner
    else if cs.head? == some '<' && cs.getLast? == some '>' then inner
    else cs
  else cs
where
  unescape : List Char → List Char
    | '\\' :: '\\' :: rest => '\\' :: unescape rest
    | '\\' :: '"' :: rest => '"' :: unescape rest
    | c :: rest => c :: unescape rest
    | [] => []

/-- The name and the value of a parameter. -/
def parameter (part : List Char) : List Char × List Char :=
  ((trim isBlank (part.takeWhile (· != '='))).map Char.toLower,
    trim isBlank ((part.dropWhile (· != '=')).drop 1))

/-- The names and values of the parameters of a content type. -/
def parameters (contentType : String) : List (List Char × List Char) :=
  (splitParts false false [] contentType.toList).map parameter

/-- Whether a parameter is for the character set; its name may carry a star and what numbers or
    marks an extended value. -/
def isCharset (name : List Char) : Bool :=
  name == "charset".toList || "charset*".toList.isPrefixOf name

end ContentType

/-- Whether a content type has a parameter for the character set. -/
def namesCharset (contentType : String) : Bool :=
  (ContentType.parameters contentType).any fun p => ContentType.isCharset p.1

/-! ## 2. Codecs -/

/-- What content types that have a parameter for the character set read byte sequences as: a text,
    or a reason to give up; nothing for a set that is not known. -/
abbrev Codecs (ε : Type) :=
  String → Option (Bytes → Except ε String)

/-- The text that a byte sequence is under a content type. -/
def Codecs.read {ε : Type} (codecs : Codecs ε) (contentType : Option String) (bs : Bytes) :
    Except ε String :=
  if bs.isEmpty then .ok ""
  else
    match (contentType.filter namesCharset).bind codecs with
    | some decode => decode bs
    | none => .ok (text (Utf8.decode bs))

/-! ## 3. Encodings -/

/-- A few encodings; UTF-16 in one order, or in the one that its first bytes show. -/
inductive Charset where
  | utf8
  | latin1
  | ascii
  | windows1252
  | utf16 (order : Option ByteOrder)
  deriving DecidableEq, Repr

namespace Charset

/-- The names of each encoding, separators written as underscores. -/
def names : List (Charset × List String) :=
  [(.utf8, ["utf_8", "u8", "utf", "utf8", "utf8_ucs2", "utf8_ucs4", "cp65001"]),
   (.latin1, ["latin_1", "8859", "cp819", "csisolatin1", "ibm819", "iso8859", "iso8859_1",
     "iso_8859_1", "iso_8859_1_1987", "iso_ir_100", "l1", "latin", "latin1"]),
   (.ascii, ["ascii", "646", "ansi_x3.4_1968", "ansi_x3_4_1968", "ansi_x3.4_1986", "cp367",
     "csascii", "ibm367", "iso646_us", "iso_646.irv_1991", "iso_ir_6", "us", "us_ascii"]),
   (.windows1252, ["cp1252", "1252", "windows_1252"]),
   (.utf16 none, ["utf_16", "u16", "utf16"]),
   (.utf16 (some .little), ["utf_16_le", "unicodelittleunmarked", "utf_16le"]),
   (.utf16 (some .big), ["utf_16_be", "unicodebigunmarked", "utf_16be"])]

/-- A name in lower case with one underscore for each inner run of separators. `pending` says that
    separators stand before the rest, `begun` that letters stand before them. -/
def plainName (begun pending : Bool) : List Char → List Char
  | [] => []
  | c :: cs =>
    if c.isAlphanum || c == '.' then
      let rest := c.toLower :: plainName true false cs
      if pending && begun then '_' :: rest else rest
    else plainName begun true cs

/-- The encoding of a name. -/
def ofName? (name : List Char) : Option Charset :=
  let plain := String.ofList (plainName false false name)
  (names.find? fun entry => entry.2.contains plain).map (·.1)

/-- The encoding that a content type names. -/
def ofContentType? (contentType : String) : Option Charset := do
  let p ← (ContentType.parameters contentType).find? fun p => p.1 == "charset".toList
  let name := ContentType.unquote p.2
  if name.any fun c => 0x7F < c.toNat then none else ofName? name

/-- The characters of the bytes from 0x80 to 0x9F in windows-1252. -/
def windowsSigns : List Char :=
  "€\uFFFD‚ƒ„…†‡ˆ‰Š‹Œ\uFFFDŽ\uFFFD\uFFFD‘’“”•–—˜™š›œ\uFFFDžŸ".toList

/-- The character of a byte in windows-1252. -/
def windowsChar (b : UInt8) : Char :=
  if 0x80 ≤ b && b < 0xA0 then windowsSigns.getD (b.toNat - 0x80) replacement
  else Char.ofNat b.toNat

/-- A byte sequence read in an encoding, with U+FFFD for what is no character. UTF-16 of no order
    gives up where no byte order mark stands in front. -/
def read : Charset → Bytes → Except String String
  | .utf8, bs => .ok (text (Utf8.decode bs))
  | .latin1, bs => .ok (String.ofList (bs.map fun b => Char.ofNat b.toNat))
  | .ascii, bs =>
    .ok (String.ofList (bs.map fun b => if b < 0x80 then Char.ofNat b.toNat else replacement))
  | .windows1252, bs => .ok (String.ofList (bs.map windowsChar))
  | .utf16 (some order), bs => .ok (text (Utf16.decode order bs))
  | .utf16 none, 0xFF :: 0xFE :: bs => .ok (text (Utf16.decode .little bs))
  | .utf16 none, 0xFE :: 0xFF :: bs => .ok (text (Utf16.decode .big bs))
  | .utf16 none, [_] => .ok (String.singleton replacement)
  | .utf16 none, _ => .error "UTF-16 stream does not start with BOM"

/-- These encodings as codecs. -/
def codecs : Codecs String := fun contentType =>
  (ofContentType? contentType).map read

end Charset

end CodeSession.Text
