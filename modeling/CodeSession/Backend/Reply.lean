import CodeSession.Json.Reader
import CodeSession.Model.Record
import CodeSession.Text.Charset
import CodeSession.Text.Quoted

/-!
# Replies

What a request may end in, and what it means for the caller. A failure of the connection, a status
outside 200 to 299 and a malformed payload are troubles with a description for the user; any other
fault passes through, and so does what the text or the nesting of a body leads to.

* `Reply.answer` -- the text of a good reply;
* `Reply.records` -- the snapshot in a good reply; a body that is no JSON means an empty store;
* `Reply.received` -- a reply as it comes, read with given codecs and to a given depth.
-/

namespace CodeSession.Backend

open Text Validation

/-! ## 1. Faults and troubles -/

/-- The kinds of faults that are no troubles of the backend. -/
inductive FaultKind where
  | runtime
  | value
  | type
  | key
  | url
  | decoding
  | encoding
  | recursion
  deriving DecidableEq, Repr

/-- A fault that is no trouble of the backend. -/
structure Fault where
  kind : FaultKind
  detail : String
  deriving DecidableEq, Repr

/-- What is said about a fault; a missing key is quoted. -/
def Fault.message (f : Fault) : String :=
  match f.kind with
  | .key => quoted f.detail
  | _ => f.detail

/-- The fault of a request through a closed client. -/
def Fault.closed : Fault :=
  ⟨.runtime, "Cannot send a request, as the client has been closed."⟩

/-- The fault of a text that holds half a surrogate pair. -/
def Fault.unencodable (detail : String) : Fault :=
  ⟨.encoding, detail⟩

/-- The fault of a body whose encoding gives up. -/
def Fault.undecodable (detail : String) : Fault :=
  ⟨.decoding, detail⟩

/-- The fault of a body that is nested too deep, at an array or an object. -/
def Fault.tooDeep (container : Json.Container) : Fault :=
  let name := match container with
    | .array => "array"
    | .object => "object"
  ⟨.recursion, "maximum recursion depth exceeded while decoding a JSON " ++ name
    ++ " from a unicode string"⟩

/-- A trouble of the backend. -/
inductive Trouble where
  | status (code : Nat) (body : String)
  | connection (detail : String)
  | malformed (issues : List Issue)
  deriving DecidableEq, Repr

/-- What the user is told about a trouble. -/
def Trouble.description : Trouble → String
  | .status code body =>
    let told := strip body
    if told.isEmpty then "Request failed with status code " ++ toString code else told
  | .connection detail => "Connection failed: " ++ detail
  | .malformed issues =>
    "Malformed inspection payload: " ++ (issues.head?.map fun i => i.cause.message).getD ""

/-- Why a call gives no answer. -/
inductive CallTrouble where
  | backend (t : Trouble)
  | fault (f : Fault)
  deriving DecidableEq, Repr

/-! ## 2. Replies -/

instance Fault.decideText : DecidableEq (Except Fault String)
  | .ok s, .ok s' => decidable_of_iff (s = s') ⟨congrArg _, Except.ok.inj⟩
  | .error f, .error f' => decidable_of_iff (f = f') ⟨congrArg _, Except.error.inj⟩
  | .ok _, .error _ => isFalse fun h => (nomatch h)
  | .error _, .ok _ => isFalse fun h => (nomatch h)

/-- How a body is read: the text it is, unless its encoding gives up, and how many arrays and objects
    within one another a reader of JSON goes into. -/
structure Reading where
  text : Except Fault String
  depth : Nat
  deriving DecidableEq, Repr

/-- What a request ends in. -/
inductive Reply where
  | response (status : Nat) (body : Bytes) (reading : Reading)
  | broken (detail : String)
  | fault (f : Fault)
  deriving DecidableEq, Repr

/-- A status from 200 to 299. -/
def IsGood (status : Nat) : Prop :=
  200 ≤ status ∧ status < 300

instance (status : Nat) : Decidable (IsGood status) :=
  inferInstanceAs (Decidable (_ ∧ _))

namespace Reply

/-- A body as a text, or the fault of its encoding. -/
def textOf (reading : Reading) : Except CallTrouble String :=
  match reading.text with
  | .ok s => .ok s
  | .error f => .error (.fault f)

/-- The body of a good reply, and how it is read. -/
def accept : Reply → Except CallTrouble (Bytes × Reading)
  | .response status body reading =>
    if IsGood status then .ok (body, reading)
    else
      match textOf reading with
      | .ok s => .error (.backend (.status status s))
      | .error t => .error t
  | .broken detail => .error (.backend (.connection detail))
  | .fault f => .error (.fault f)

/-- The text of a good reply. -/
def answer (r : Reply) : Except CallTrouble String :=
  match accept r with
  | .ok (_, reading) => textOf reading
  | .error t => .error t

/-- The snapshot in the body of a good reply. One that is no JSON is looked at as a text. -/
def recordsOf (body : Bytes) (reading : Reading) : Except CallTrouble RecordSet :=
  match Json.decode reading.depth body with
  | .error (.tooDeep container) => .error (.fault (.tooDeep container))
  | .error .malformed =>
    match textOf reading with
    | .ok _ => .ok RecordSet.empty
    | .error t => .error t
  | .ok payload =>
    match RecordSet.ofPayload payload with
    | .ok r => .ok r
    | .error issues => .error (.backend (.malformed issues))

/-- The snapshot in a good reply. -/
def records (r : Reply) : Except CallTrouble RecordSet :=
  match accept r with
  | .ok (body, reading) => recordsOf body reading
  | .error t => .error t

/-! ## 3. What a response means -/

section Response

variable {status : Nat} {body : Bytes} {reading : Reading}

theorem textOf_ok {s : String} (h : reading.text = .ok s) : textOf reading = .ok s := by
  rw [textOf, h]

theorem textOf_error {f : Fault} (h : reading.text = .error f) :
    textOf reading = .error (.fault f) := by
  rw [textOf, h]

/-- A good reply is its text, or the records of its body. -/
theorem answer_of_good (h : IsGood status) :
    (response status body reading).answer = textOf reading := by
  have haccept : (response status body reading).accept = .ok (body, reading) := if_pos h
  rw [answer, haccept]

theorem records_of_good (h : IsGood status) :
    (response status body reading).records = recordsOf body reading := by
  have haccept : (response status body reading).accept = .ok (body, reading) := if_pos h
  rw [records, haccept]

/-- Any other reply is a trouble if it has a text, for every call. -/
theorem accept_of_bad (h : ¬IsGood status) {s : String} (htext : reading.text = .ok s) :
    (response status body reading).accept = .error (.backend (.status status s)) := by
  refine (if_neg h).trans ?_
  rw [textOf_ok htext]

theorem accept_of_bad_error (h : ¬IsGood status) {f : Fault} (htext : reading.text = .error f) :
    (response status body reading).accept = .error (.fault f) := by
  refine (if_neg h).trans ?_
  rw [textOf_error htext]

/-- A reply means a text, a trouble or a fault to whoever asks for its text. -/
theorem answer_of_text {s : String} (h : reading.text = .ok s) :
    (response status body reading).answer =
      if IsGood status then .ok s else .error (.backend (.status status s)) := by
  split
  · rename_i hstatus
    rw [answer_of_good hstatus, textOf_ok h]
  · rename_i hstatus
    rw [answer, accept_of_bad hstatus h]

theorem answer_of_unread {f : Fault} (h : reading.text = .error f) :
    (response status body reading).answer = .error (.fault f) := by
  by_cases hstatus : IsGood status
  · rw [answer_of_good hstatus, textOf_error h]
  · rw [answer, accept_of_bad_error hstatus h]

end Response

/-! ## 4. Replies as they come -/

/-- A reply with a body of some content type, read with codecs and as deep as `depth`. -/
def received (codecs : Codecs Fault) (depth status : Nat) (body : Bytes)
    (contentType : Option String) : Reply :=
  .response status body ⟨codecs.read contentType body, depth⟩

/-- How deep a reader goes as a rule. -/
def commonDepth : Nat := 950

/-- A reply with a body of some content type, read with a few codecs and as deep as a rule. -/
def common (status : Nat) (body : Bytes) (contentType : Option String) : Reply :=
  received (fun ct => (Charset.codecs ct).map fun decode bs =>
    (decode bs).mapError Fault.undecodable) commonDepth status body contentType

end Reply

end CodeSession.Backend
