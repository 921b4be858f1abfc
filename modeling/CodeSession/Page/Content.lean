import CodeSession.Json.Printer
import CodeSession.Session.World

/-!
# What a page shows

The content of the window for each tab, as data, and how it is rendered from the state of a
session. The content is rendered from scratch (`Content.render`), except that the transcript and
the send button of the chat are also renewed in place.

* `Signature.of` -- what of the state decides whether the page is renewed.
-/

namespace CodeSession.Page

open Session

/-! ## 1. Content -/

/-- The transcript and the controls of the chat; `typing` while an answer is awaited. -/
structure ChatView where
  bubbles : List Message
  typing : Bool
  sendEnabled : Bool
  deriving DecidableEq, Repr

/-- A row of the table of records. -/
structure Row where
  id : String
  document : String
  metadata : String
  deriving DecidableEq, Repr

/-- The records, or what stands in their place. -/
inductive Records where
  | table (rows : List Row)
  | placeholder (text : String) (error : Option String)
  deriving DecidableEq, Repr

/-- The inspection of the store. -/
structure InspectView where
  fetching : Bool
  records : Records
  deriving DecidableEq, Repr

/-- A banner and whether it tells of a failure. -/
structure Banner where
  text : String
  failed : Bool
  deriving DecidableEq, Repr

/-- The ingestion; `folder` is what the user has typed. -/
structure IngestView where
  folder : String
  uploading : Bool
  chooseEnabled : Bool
  banner : Option Banner
  deriving DecidableEq, Repr

/-- What a page shows beside its tabs. -/
inductive Content where
  | chat (v : ChatView)
  | inspect (v : InspectView)
  | ingest (v : IngestView)
  deriving DecidableEq, Repr

/-! ## 2. Rendering -/

/-- The chat of a session. -/
def ChatView.of (c : Chat) : ChatView :=
  ⟨c.messages, c.pending, c.canSend⟩

/-- A record as a row. -/
def Row.of (r : Record) : Row :=
  ⟨r.id, r.document.getD "", ((r.metadata.map Json.Value.object).getD .null).toText⟩

/-- The inspection of a session. -/
def InspectView.of (i : Inspection) : InspectView :=
  ⟨i.loading,
    if i.showTable then .table (i.rows.map Row.of)
    else .placeholder i.placeholder (i.error.filter fun e => !e.isEmpty)⟩

/-- The banner of a status: an upload that has ended. -/
def Banner.of (s : IngestStatus) : Option Banner :=
  match s.phase with
  | .succeeded => some ⟨s.message, false⟩
  | .failed => some ⟨s.message, true⟩
  | _ => none

/-- The ingestion of a session, with nothing typed. -/
def IngestView.of (i : Ingest) : IngestView :=
  ⟨"", i.status.phase == .uploading, i.canChoose, Banner.of i.status⟩

/-- The content for the state of a session. -/
def Content.render (w : World) : Content :=
  match w.tabs.active with
  | .chat => .chat (ChatView.of w.chat)
  | .inspect => .inspect (InspectView.of w.inspection)
  | .ingest => .ingest (IngestView.of w.ingest)

/-- The content with the transcript and the send button renewed. -/
def Content.refreshChat (c : Chat) : Content → Content
  | .chat _ => .chat (ChatView.of c)
  | other => other

/-- The content with the send button renewed. -/
def Content.refreshSend (c : Chat) : Content → Content
  | .chat v => .chat { v with sendEnabled := c.canSend }
  | other => other

/-- The content with a folder typed. -/
def Content.typeFolder (text : String) : Content → Content
  | .ingest v => .ingest { v with folder := text }
  | other => other

/-! ## 3. Signatures -/

/-- What of a state decides whether a page is renewed. A snapshot is told by its fetch. -/
structure Signature where
  tab : Tab
  messages : Nat
  pending : Bool
  snapshot : Option Nat
  loading : Bool
  error : Option String
  status : IngestStatus
  deriving DecidableEq, Repr

/-- The signature of a state. -/
def Signature.of (w : World) : Signature :=
  { tab := w.tabs.active
    messages := w.chat.messages.length
    pending := w.chat.pending
    snapshot := w.inspection.snapshot.map Snapshot.fetch
    loading := w.inspection.loading
    error := w.inspection.error
    status := w.ingest.status }

end CodeSession.Page
