import CodeSession.Page.Window

/-!
# The elements of a page

The window as a list of elements in document order, the tabs first.
-/

namespace CodeSession.Page

/-- What a button does. -/
inductive Action where
  | activate (t : Tab)
  | send
  | choose (path : String)
  deriving DecidableEq, Repr

/-- The texts that a user may type. -/
inductive Field where
  | draft
  | folder
  deriving DecidableEq, Repr

/-- An element, with its marks. -/
inductive Element where
  | label (text : String) (marks : List String)
  | icon (name : String)
  | button (text icon : Option String) (enabled : Bool) (action : Action) (marks : List String)
  | input (field : Field) (value : String)
  | table (rows : List Row)
  | dot
  deriving DecidableEq, Repr

/-- The hint in an empty field. -/
def Field.placeholder : Field → String
  | .draft => "Ask a question about your code..."
  | .folder => "/path/to/project"

/-- The columns of the table of records: name, label and field. -/
def recordColumns : List (String × String × String) :=
  [("id", "ID", "id"), ("document", "Content", "document"), ("metadata", "Metadata", "metadata")]

/-- The column that tells rows apart. -/
def recordKey : String := "id"

/-! ## 1. The parts of a page -/

/-- The label and the icon of a tab. -/
def tabLabel : Tab → String × String
  | .chat => ("Chat", "send")
  | .inspect => ("Inspect DB", "storage")
  | .ingest => ("Ingest", "folder_open")

/-- The button of a tab. -/
def tabButton (highlighted t : Tab) : Element :=
  .button (some (tabLabel t).1) (some (tabLabel t).2) true (.activate t)
    (if t = highlighted then ["tab-active"] else [])

/-- The side bar. -/
def sidebar (highlighted : Tab) : List Element :=
  [.icon "terminal", .label "CodeIntel" []]
    ++ (Choice.all : List Tab).map (tabButton highlighted)
    ++ [.label "Status:" [], .label "Online" []]

/-- A message of the transcript. -/
def bubble (m : Message) : Element :=
  .label m.content [match m.role with
    | .user => "message-user"
    | .agent => "message-agent"]

/-- The elements of the content; the draft is the session's. -/
def Content.elements (draft : String) : Content → List Element
  | .chat v =>
    v.bubbles.map bubble
      ++ (if v.typing then [.dot, .dot, .dot] else [])
      ++ [.input .draft draft, .button none (some "send") v.sendEnabled .send []]
  | .inspect v =>
    .label "Inspection" []
      :: (if v.fetching then [.label "Fetching..." []] else [])
      ++ (match v.records with
        | .table rows => [.table rows]
        | .placeholder text error => .label text [] :: error.toList.map fun e => .label e [])
  | .ingest v =>
    [.icon "folder_open", .label "Upload Project" [],
      .label "Select a local folder to ingest code into the Knowledge Graph." [],
      .input .folder v.folder,
      .button (some (if v.uploading then "Uploading..." else "Choose Folder")) none
        v.chooseEnabled (.choose v.folder) []]
      ++ v.banner.toList.map fun b =>
        .label b.text [if b.failed then "banner-error" else "banner-ok"]

/-- The elements of a window. -/
def Window.elements (w : Window) : List Element :=
  sidebar w.highlighted ++ w.content.elements w.session.chat.draft

/-! ## 2. Finding elements -/

/-- The name of a button: its text, else its icon. -/
def buttonName (text icon : Option String) : String :=
  text.getD (icon.getD "")

/-- The first button of a name: whether it is enabled and what it does. -/
def findButton? (name : String) : List Element → Option (Bool × Action)
  | [] => none
  | .button text icon enabled action _ :: rest =>
    if buttonName text icon = name then some (enabled, action) else findButton? name rest
  | _ :: rest => findButton? name rest

/-- The first field of a placeholder. -/
def findField? (placeholder : String) : List Element → Option Field
  | [] => none
  | .input field _ :: rest =>
    if field.placeholder = placeholder then some field else findField? placeholder rest
  | _ :: rest => findField? placeholder rest

end CodeSession.Page
