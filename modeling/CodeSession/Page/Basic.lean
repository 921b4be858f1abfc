import CodeSession.Config
import CodeSession.Page.Element
import CodeSession.Session.Host

/-!
# Pages

A page is a loop around a session: its tasks are the session's calls, some with something left to
do on the page at their end. Clicks and key strokes run at once or launch such a call.

* `Page.connect`, `Page.opened` -- the settings and the client for an environment, and their page;
* `Page.click`, `Page.type`, `Page.enter`, `Page.tick`, `Page.disconnect` -- what may happen on it.
-/

namespace CodeSession.Page

open Session Backend Folder

/-! ## 1. Tasks -/

/-- What is left to do on the page when a call has returned: nothing, to show what has changed, or
    that and to report a folder that cannot be used. -/
inductive After where
  | nothing
  | refresh
  | report
  deriving DecidableEq, Repr

/-- A task of a page. -/
structure Job where
  call : Call
  after : After

/-- Whether a task has nothing to do: a message cannot be sent, or no folder is typed. -/
def Job.isIdle (j : Job) (w : World) : Bool :=
  match j.call, j.after with
  | .send none, .refresh => !w.chat.canSend
  | .choose path, .report => path.isEmpty
  | _, _ => false

/-- A run of a task. -/
abbrev Run := Burst Window Job Result Failure

/-- The orders of a call as orders of a page. -/
def liftOrder : Order Call → Order Job
  | .spawn name c => .spawn name ⟨c, .nothing⟩
  | .cancel t => .cancel t
  | .seal => .seal
  | .forget => .forget

/-- What is done on the page at the end of a call. -/
def conclude (after : After) (e : Ending Result Failure) (w : Window) :
    Window × Ending Result Failure :=
  match after, e with
  | .nothing, e => (w, e)
  | _, .returned _ => (w.sync, .returned none)
  | .report, .raised (.folder t) =>
    if t.isOfFolder then ((w.notify ⟨"negative", t.message⟩).sync, .returned none)
    else (w, .raised (.folder t))
  | _, e => (w, e)

/-- What tasks do when they are resumed. -/
def behaviour : Behaviour Window Job Result Failure := fun facts j wake w =>
  if wake = .go ∧ j.isIdle w.session then ⟨w, [], .finish (.returned none)⟩
  else
    let burst := Session.behaviour facts j.call wake w.session
    let w := { w with session := burst.state }
    let orders := burst.orders.map liftOrder
    match burst.next with
    | .pause p c => ⟨w, orders, .pause p ⟨c, j.after⟩⟩
    | .finish e =>
      let (w, e) := conclude j.after e w
      ⟨w, orders, .finish e⟩

end CodeSession.Page

namespace CodeSession

open Page

/-- A page. -/
abbrev Page := Loop Window Job Session.Result Session.Failure

namespace Page

open Session Backend Folder

/-- Where the session is in a page. -/
def host : Host Window Job :=
  ⟨Window.session, Job.call, fun f j => { j with call := f j.call }⟩

/-! ## 2. Opening -/

/-- Why a page does not open. -/
inductive OpenTrouble where
  | config (t : ConfigTrouble)
  | url (t : UrlTrouble)
  deriving DecidableEq, Repr

/-- What is said about a page that does not open. -/
def OpenTrouble.message : OpenTrouble → String
  | .config t => t.message
  | .url t => t.message

/-- The seconds between two ticks of a page. -/
def tickSeconds : Binary64 := Binary64.ofDecimal false 1 (-1)

/-- The settings and the client for an environment. -/
def connect (env : Environment) : Except OpenTrouble (Config × Client) :=
  match Config.load env [] with
  | .error t => .error (.config t)
  | .ok config =>
    match Url.base config.apiBaseUrl with
    | .error t => .error (.url t)
    | .ok base => .ok (config, Client.opened base)

/-- The page of a client with the settings. -/
def opened (config : Config) (client : Client) (files : FileSystem) : Page :=
  Loop.start (Window.opened
    (World.start client config.autoNavigateDelay (some Chat.welcome) files))

/-! ## 3. Events -/

/-- Change the window. -/
def update (f : Window → Window) (p : Page) : Page :=
  { p with state := f p.state }

/-- Switch to a tab and show it. -/
def activate (t : Tab) (p : Page) : Page :=
  let switched := p.perform fun facts w =>
    let r := switchTab facts.closed (.string t.name) w.session
    ({ w with session := r.1 }, r.2.1.map liftOrder)
  update (fun w => w.render.sign) switched

/-- What becomes of a click or a key stroke: it is handled, with the task it launched, or there is
    nothing to handle it. -/
inductive Handling where
  | handled (launched : Bool)
  | disabled
  | noButton
  | noInput
  | noHandler
  deriving DecidableEq, Repr

/-- Launch the sending of the draft. -/
def launchSend (p : Page) : Page :=
  p.launch ⟨.send none, .refresh⟩

/-- Click on the first button of a name. -/
def click (name : String) (p : Page) : Page × Handling :=
  match findButton? name p.state.elements with
  | none => (p, .noButton)
  | some (false, _) => (p, .disabled)
  | some (true, .activate t) => (p.activate t, .handled false)
  | some (true, .send) => (p.launchSend, .handled true)
  | some (true, .choose path) => (p.launch ⟨.choose path, .report⟩, .handled true)

/-- Type a text into the first field of a placeholder. -/
def type (placeholder text : String) (p : Page) : Page × Handling :=
  match findField? placeholder p.state.elements with
  | none => (p, .noInput)
  | some .draft =>
    (p.update fun w => { w with session := { w.session with chat := w.session.chat.write text } },
      .handled false)
  | some .folder =>
    (p.update fun w => { w with content := w.content.typeFolder text }, .handled false)

/-- Press the enter key in the first field of a placeholder. -/
def enter (placeholder : String) (p : Page) : Page × Handling :=
  match findField? placeholder p.state.elements with
  | none => (p, .noInput)
  | some .draft => (p.launchSend, .handled true)
  | some .folder => (p, .noHandler)

/-- The timer of the page fires. -/
def tick (p : Page) : Page :=
  p.update Window.sync

/-- The page is left: the session is closed. -/
def disconnect (p : Page) : Page :=
  p.launch ⟨.close, .nothing⟩

/-- Run until nothing is left to do. -/
def settle (p : Page) : Page :=
  Loop.settle Page.behaviour host.surroundings p

/-- Move the clock on. -/
def advance (ticks : Nat) (p : Page) : Page :=
  Loop.advance Page.behaviour host.surroundings ticks p

end Page

end CodeSession
