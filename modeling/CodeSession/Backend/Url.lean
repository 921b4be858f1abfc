import CodeSession.Decimal.Reading
import CodeSession.Text.Parts
import CodeSession.Text.Quoted
import CodeSession.Text.Utf8

/-!
# Addresses

The address of the backend and the addresses of its endpoints. Reading an address brings it into
one form: scheme and host in lower case, no default port, dot segments removed, characters that
may not stand in an address percent-encoded.

* `Url.parse` -- the address of a text;
* `Url.endpoint` -- the address of a path below a base address.
-/

namespace CodeSession.Backend

open Text

/-- An address in its parts. -/
structure Url where
  scheme : String
  userinfo : String
  host : String
  port : Option Int
  path : String
  query : Option String
  fragment : Option String
  deriving DecidableEq, Repr

/-- Why a text is no address. -/
inductive UrlTrouble where
  | tooLong
  | partTooLong (part : String)
  | unprintable (c : Char) (position : Nat)
  | badPort (text : String)
  | badIpv4 (text : String)
  | badHost (text : String)
  | pathWithoutSlash
  | doubleSlash
  | colonFirst
  deriving DecidableEq, Repr

/-- What is said about a text that is no address. -/
def UrlTrouble.message : UrlTrouble → String
  | .tooLong => "URL too long"
  | .partTooLong part => "URL component " ++ quoted part ++ " too long"
  | .unprintable c position =>
    "Invalid non-printable ASCII character in URL, " ++ quoted (String.singleton c)
      ++ " at position " ++ toString position ++ "."
  | .badPort s => "Invalid port: " ++ quoted s
  | .badIpv4 s => "Invalid IPv4 address: " ++ quoted s
  | .badHost s => "Invalid IDNA hostname: " ++ quoted s
  | .pathWithoutSlash => "For absolute URLs, path must be empty or begin with '/'"
  | .doubleSlash => "Relative URLs cannot have a path starting with '//'"
  | .colonFirst => "Relative URLs cannot have a path starting with ':'"

/-! ## 1. Percent encoding -/

/-- An upper-case hexadecimal digit. -/
def upperHexDigit (n : Nat) : Char :=
  (hexDigit n).toUpper

/-- A byte as a percent sign and two hexadecimal digits. -/
def percentByte (b : UInt8) : List Char :=
  ['%', upperHexDigit (b.toNat / 16), upperHexDigit (b.toNat % 16)]

/-- A character as its percent-encoded bytes. -/
def percentChar (c : Char) : List Char :=
  (Utf8.encodeChar c).flatMap percentByte

/-- A text with the characters outside a class percent-encoded. -/
def percentEncode (safe : Char → Bool) (cs : List Char) : List Char :=
  cs.flatMap fun c => if safe c then [c] else percentChar c

/-- Printable ASCII without some characters. -/
def asciiExcept (unsafeOnes : List Char) (c : Char) : Bool :=
  0x21 ≤ c.toNat && c.toNat < 0x7F && !unsafeOnes.contains c

/-- The characters that a path may hold. -/
def pathSafe : Char → Bool :=
  asciiExcept ['"', '#', '<', '>', '?', '\x60', '\x7b', '\x7d']

/-- The characters that a query may hold. -/
def querySafe : Char → Bool :=
  asciiExcept ['"', '#', '<', '>']

/-- The characters that a fragment may hold. -/
def fragmentSafe : Char → Bool :=
  asciiExcept ['"', '<', '>', '\x60']

/-- The characters that the user part may hold. -/
def userinfoSafe : Char → Bool :=
  asciiExcept ['"', '#', '<', '>', '?', '\x60', '\x7b', '\x7d', '/', ';', '=', '@', '[', '\\', ']',
    '^', '|']

/-- The characters that a host may hold. -/
def hostSafe : Char → Bool :=
  asciiExcept ['#', '/', ':', '<', '>', '?', '@', '[', ']', '^']

/-! ## 2. Hosts, ports and paths -/

/-- Whether a text is four numbers with points between them. -/
def looksLikeIpv4 (cs : List Char) : Bool :=
  let numbers := parts '.' cs
  numbers.length == 4 && numbers.all fun p => !p.isEmpty && p.all Decimal.isDigit

/-- Whether four numbers with points between them are an address: none is above 255 or has a zero
    in front. -/
def isIpv4 (cs : List Char) : Bool :=
  (parts '.' cs).all fun p =>
    p.length ≤ 3 && ofDigits (Decimal.splitDigits p).1 ≤ 255
      && (p.length == 1 || p.head? != some '0')

/-- The host of an address. -/
def readHost (cs : List Char) : Except UrlTrouble String :=
  if looksLikeIpv4 cs then
    if isIpv4 cs then .ok (String.ofList cs) else .error (.badIpv4 (String.ofList cs))
  else if cs.head? == some '[' && cs.getLast? == some ']' then
    .ok (String.ofList (cs.drop 1).dropLast)
  else if cs.all fun c => c.toNat < 0x80 then
    .ok (String.ofList (percentEncode hostSafe (cs.map Char.toLower)))
  else .error (.badHost (String.ofList cs))

/-- The port that a scheme stands for. -/
def defaultPort (scheme : String) : Option Int :=
  [("ftp", 21), ("http", 80), ("https", 443), ("ws", 80), ("wss", 443)].lookup scheme

/-- The port of an address, none if it is the one of the scheme. -/
def readPort (scheme : String) (cs : List Char) : Except UrlTrouble (Option Int) :=
  if cs.isEmpty then .ok none
  else
    match Decimal.flexibleInt (String.ofList cs) with
    | .ok n => .ok (if defaultPort scheme == some n then none else some n)
    | .error _ => .error (.badPort (String.ofList cs))

/-- The segments of a path with the dot segments carried out; `before` holds the segments so far,
    reversed. -/
def resolveDots (before : List (List Char)) : List (List Char) → List (List Char)
  | [] => before.reverse
  | s :: rest =>
    if s == ['.'] then resolveDots before rest
    else if s == ['.', '.'] then
      resolveDots (if before.isEmpty || before == [[]] then before else before.drop 1) rest
    else resolveDots (s :: before) rest

/-- A path without dot segments. -/
def normalisePath (cs : List Char) : List Char :=
  let segments := parts '/' cs
  if segments.any fun s => s == ['.'] || s == ['.', '.'] then
    join '/' (resolveDots [] segments)
  else cs

/-! ## 3. Reading -/

/-- A text up to a character of a class, and from it on. -/
def spanUntil (stop : Char → Bool) (cs : List Char) : List Char × List Char :=
  (cs.takeWhile fun c => !stop c, cs.dropWhile fun c => !stop c)

/-- The scheme at the start of an address and what follows its colon. -/
def splitUrlScheme (cs : List Char) : List Char × List Char :=
  let word := cs.takeWhile fun c => c.isAlphanum || c == '+' || c == '.' || c == '-'
  match cs.drop word.length with
  | ':' :: rest => if word.head?.any Char.isAlpha || word.isEmpty then (word, rest) else ([], cs)
  | _ => ([], cs)

/-- The part after two slashes, if there is one, and what follows it. -/
def splitAuthority : List Char → List Char × List Char
  | '/' :: '/' :: cs => spanUntil (fun c => c == '/' || c == '?' || c == '#') cs
  | cs => ([], cs)

/-- The user part, the host and the port of an authority. -/
def splitHost (authority : List Char) : List Char × List Char × List Char :=
  let hostAndPort := (authority.reverse.takeWhile (· != '@')).reverse
  let user := (authority.take (authority.length - hostAndPort.length)).dropLast
  let host :=
    if hostAndPort.head? == some '[' && hostAndPort.contains ']' then
      hostAndPort.take (hostAndPort.length - (hostAndPort.reverse.takeWhile (· != ']')).length)
    else hostAndPort.takeWhile (· != ':')
  let port := hostAndPort.drop host.length
  (user, host, if port.head? == some ':' then port.drop 1 else port)

/-- The parts of an address, each in its one form. -/
def Url.ofParts (scheme authority path : List Char) (query fragment : Option (List Char)) :
    Except UrlTrouble Url := do
  let (user, host, port) := splitHost authority
  let scheme := String.ofList (scheme.map Char.toLower)
  let userinfo := String.ofList (percentEncode userinfoSafe user)
  let host ← readHost host
  let port ← readPort scheme port
  let hasAuthority := userinfo != "" || host != "" || port.isSome
  if hasAuthority && !path.isEmpty && path.head? != some '/' then throw .pathWithoutSlash
  let relative := scheme == "" && !hasAuthority
  if relative && path.take 2 == ['/', '/'] then throw .doubleSlash
  if relative && path.head? == some ':' then throw .colonFirst
  let path := if relative then path else normalisePath path
  return ⟨scheme, userinfo, host, port, String.ofList (percentEncode pathSafe path),
    query.map fun q => String.ofList (percentEncode querySafe q),
    fragment.map fun f => String.ofList (percentEncode fragmentSafe f)⟩

/-- The first control character of ASCII and its position. -/
def firstControl? (position : Nat) : List Char → Option (Char × Nat)
  | [] => none
  | c :: cs =>
    if c.toNat < 0x20 || c.toNat == 0x7F then some (c, position)
    else firstControl? (position + 1) cs

/-- How many characters an address or a part of it has at most. -/
def urlLimit : Nat := 65536

/-- The address of a text. -/
def Url.parse (s : String) : Except UrlTrouble Url :=
  if urlLimit < s.length then .error .tooLong
  else
    match firstControl? 0 s.toList with
    | some (c, position) => .error (.unprintable c position)
    | none =>
      let (scheme, rest) := splitUrlScheme s.toList
      let (authority, rest) := splitAuthority rest
      let (path, rest) := spanUntil (fun c => c == '?' || c == '#') rest
      let (query, fragment) := spanUntil (· == '#') rest
      Url.ofParts scheme authority path
        (if query.isEmpty then none else some (query.drop 1))
        (if fragment.isEmpty then none else some (fragment.drop 1))

/-! ## 4. Writing -/

namespace Url

/-- The user, the host and the port of an address. -/
def authority (u : Url) : String :=
  (if u.userinfo == "" then "" else u.userinfo ++ "@")
    ++ (if u.host.toList.contains ':' then "[" ++ u.host ++ "]" else u.host)
    ++ (match u.port with
      | some p => ":" ++ toString p
      | none => "")

/-- The text of an address. -/
def toText (u : Url) : String :=
  (if u.scheme == "" then "" else u.scheme ++ ":")
    ++ (if u.authority == "" then "" else "//" ++ u.authority)
    ++ u.path
    ++ (match u.query with
      | some q => "?" ++ q
      | none => "")
    ++ (match u.fragment with
      | some f => "#" ++ f
      | none => "")

/-- The path and the query of an address. -/
def target (u : Url) : List Char :=
  (if u.path == "" then ['/'] else u.path.toList)
    ++ (match u.query with
      | some q => '?' :: q.toList
      | none => [])

/-- An address with another path and query. -/
def withTarget (u : Url) (cs : List Char) : Except UrlTrouble Url :=
  let (path, query) := spanUntil (· == '?') cs
  let fragment := u.fragment.map String.toList
  let lengths := [("scheme", u.scheme.length), ("authority", u.authority.length),
    ("path", path.length), ("query", query.length - 1), ("fragment", (fragment.getD []).length)]
  match lengths.find? fun p => urlLimit < p.2 with
  | some p => .error (.partTooLong p.1)
  | none =>
    Url.ofParts u.scheme.toList u.authority.toList path
      (if query.isEmpty then none else some (query.drop 1)) fragment

/-- A base address: its path and query end with a slash. -/
def base (s : String) : Except UrlTrouble Url := do
  let u ← Url.parse s
  if u.target.getLast? == some '/' then return u else u.withTarget (u.target ++ ['/'])

/-- The address of an endpoint, whose path has no slash in front, below a base address. -/
def endpoint (u : Url) (path : String) : Except UrlTrouble Url :=
  u.withTarget (u.target ++ path.toList)

end Url

end CodeSession.Backend
