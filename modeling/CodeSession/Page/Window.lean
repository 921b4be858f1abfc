import CodeSession.Page.Content

/-!
# The window

A session with what is shown of it. The window is renewed by `sync`, which looks at the signature
only and renews no more than has changed, and by switching tabs.
-/

namespace CodeSession.Page

open Session

/-- A notification to the user. -/
structure Notification where
  kind : String
  text : String
  deriving DecidableEq, Repr

/-- A session with what is shown of it: the content, the highlighted tab, the signature of the
    state that was last shown, and the notifications so far. -/
structure Window where
  session : World
  content : Content
  highlighted : Tab
  signature : Signature
  notifications : List Notification

namespace Window

/-- The window of a session at its start. -/
def opened (w : World) : Window :=
  ⟨w, Content.render w, w.tabs.active, Signature.of w, []⟩

/-- Render everything from scratch. -/
def render (w : Window) : Window :=
  { w with content := Content.render w.session, highlighted := w.session.tabs.active }

/-- Note what is shown. -/
def sign (w : Window) : Window :=
  { w with signature := Signature.of w.session }

/-- Show what has changed. -/
def sync (w : Window) : Window :=
  let onChat := w.session.tabs.active = .chat
  if Signature.of w.session = w.signature then
    if onChat then { w with content := w.content.refreshSend w.session.chat } else w
  else
    let sameTab := (Signature.of w.session).tab = w.signature.tab
    if onChat ∧ sameTab then
      { w with content := w.content.refreshChat w.session.chat }.sign
    else w.render.sign

/-- Notify the user. -/
def notify (n : Notification) (w : Window) : Window :=
  { w with notifications := w.notifications ++ [n] }

end Window

end CodeSession.Page
