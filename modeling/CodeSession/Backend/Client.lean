import CodeSession.Backend.Multipart
import CodeSession.Backend.Reply
import CodeSession.Text.Points

/-!
# The client of the backend

The three requests to the backend as data, what stands on the wire for each, and the client that
sends them. Replies may be prepared per endpoint; a request that finds none stays open until a
reply is given to it.

* `Client.send` -- a request goes out, and what becomes of it;
* `Client.call` -- a call with the reply that its request ends in, and what the caller gets.
-/

namespace CodeSession.Backend

open Text

/-! ## 1. Requests -/

/-- What is asked of the backend. -/
inductive Request where
  | query (text : String)
  | records
  | upload (files : List SelectedFile)
  deriving DecidableEq, Repr

/-- The endpoints of the backend. -/
inductive Endpoint where
  | chat
  | records
  | upload
  deriving DecidableEq, Repr

namespace Request

/-- The endpoint of a request. -/
def endpoint : Request → Endpoint
  | .query _ => .chat
  | .records => .records
  | .upload _ => .upload

/-- The method of a request. -/
def method : Request → String
  | .records => "GET"
  | _ => "POST"

/-- The path of a request below the base address. -/
def path : Request → String
  | .query _ => "api/chat"
  | .records => "api/vectors/content"
  | .upload _ => "api/ingest/upload"

/-- The content type of a request. -/
def contentType (boundary : String) : Request → Option String
  | .query _ => some "text/plain; charset=utf-8"
  | .records => none
  | .upload files => Multipart.contentType boundary files

/-- The body of a request. -/
def body (boundary : String) : Request → Bytes
  | .query text => Utf8.encode text
  | .records => []
  | .upload files => Multipart.body boundary files

end Request

/-! ## 2. Prepared replies -/

/-- The replies prepared for an endpoint: one for every request, or a list that is used up. -/
inductive Prepared where
  | always (r : Reply)
  | inTurn (rs : List Reply)
  deriving DecidableEq, Repr

/-- The next prepared reply and what is left. -/
def Prepared.next : Prepared → Option (Reply × Prepared)
  | .always r => some (r, .always r)
  | .inTurn [] => none
  | .inTurn (r :: rs) => some (r, .inTurn rs)

/-! ## 3. The client -/

/-- The client: where it sends, whether it is closed, what it has sent, and the prepared
    replies. -/
structure Client where
  base : Url
  closed : Bool
  sent : List Request
  prepared : Endpoint → Prepared

/-- An open client that has sent nothing. -/
def Client.opened (base : Url) : Client :=
  ⟨base, false, [], fun _ => .inTurn []⟩

/-- What becomes of a request. -/
inductive Sending where
  | refused (f : Fault)
  | answered (number : Nat) (r : Reply)
  | outstanding (number : Nat)
  deriving DecidableEq, Repr

namespace Client

/-- The address of a request. -/
def address (c : Client) (r : Request) : Except UrlTrouble Url :=
  c.base.endpoint r.path

/-- The replies prepared for an endpoint. -/
def prepare (e : Endpoint) (p : Prepared) (c : Client) : Client :=
  { c with prepared := fun x => if x = e then p else c.prepared x }

/-- Send a request: refused once the client is closed, else numbered and noted, and answered at
    once if a reply is prepared. -/
def send (r : Request) (c : Client) : Client × Sending :=
  match c.address r with
  | .error t => (c, .refused ⟨.url, t.message⟩)
  | .ok _ =>
    if c.closed then (c, .refused Fault.closed)
    else
      let number := c.sent.length
      let noted := { c with sent := c.sent ++ [r] }
      match (c.prepared r.endpoint).next with
      | some (reply, rest) => (noted.prepare r.endpoint rest, .answered number reply)
      | none => (noted, .outstanding number)

/-- Close the client. -/
def close (c : Client) : Client :=
  { c with closed := true }

end Client

/-! ## 4. Calls -/

/-- A call of the client with its argument. -/
inductive Ask where
  | query (text : List CodePoint)
  | records
  | upload (files : List SelectedFile)
  deriving DecidableEq, Repr

/-- What a call gives. -/
inductive Answer where
  | text (s : String)
  | records (r : RecordSet)

/-- The request of a call. A question is a text, of which every code point has its bytes. -/
def Ask.request : Ask → Except Fault Request
  | .query points =>
    match CodePoint.text points with
    | .ok s => .ok (.query s)
    | .error detail => .error (.unencodable detail)
  | .records => .ok .records
  | .upload files => .ok (.upload files)

/-- What a reply means to a call. -/
def Ask.answer (reply : Reply) : Ask → Except CallTrouble Answer
  | .records => reply.records.map .records
  | _ => reply.answer.map .text

/-- A call whose request ends in a reply, should it go out. -/
def Client.call (a : Ask) (reply : Reply) (c : Client) : Client × Except CallTrouble Answer :=
  match a.request with
  | .error f => (c, .error (.fault f))
  | .ok r =>
    match (c.prepare r.endpoint (.inTurn [reply])).send r with
    | (c, .refused f) => (c, .error (.fault f))
    | (c, .answered _ reply) => (c, a.answer reply)
    | (c, .outstanding _) => (c, a.answer reply)

end CodeSession.Backend
