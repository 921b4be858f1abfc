import CodeSession.Loop.Clock
import CodeSession.Loop.Tracking
import CodeSession.Session.World

/-!
# The calls of a session

What each call does when it is resumed.

* A message or an upload is refused once the session is closed, but goes on if it began before.
  One that is cancelled leaves no question pending and no selection behind.
* A fetch lands its outcome in the inspection; one that is cancelled under way is abandoned.
* An upload takes the way `prepare`, `uploading`, and then `succeeded` -- with a tracked task that
  returns to the chat after a delay -- or `failed`; the selection is dropped at its end.
* Closing seals the tracked set, cancels what is tracked, waits for it, and closes the client.
-/

namespace CodeSession.Session

open Backend Folder

/-- A run of a call. -/
abbrev Run := Burst World Call Result Failure

/-- A run that ends with a result. -/
def World.done (w : World) (orders : List (Order Call)) (r : Result) : Run :=
  ⟨w, orders, .finish (.returned r)⟩

/-- A run that ends with a failure. -/
def World.fail (w : World) (orders : List (Order Call)) (f : Failure) : Run :=
  ⟨w, orders, .finish (.raised f)⟩

/-- A run that waits for a signal. -/
def World.await (w : World) (orders : List (Order Call)) (c : Call) : Run :=
  ⟨w, orders, .pause .signal c⟩

/-! ## 1. Tabs -/

/-- A notice of the viewer: the inspection issues a fetch when it is shown. -/
def heed (w : World) (n : Notice) : World × List (Order Call) :=
  if n.listener == viewer.name && n.tab == .inspect then
    let inspection := w.inspection.issue
    ({ w with inspection := inspection }, [.spawn "inspection-refresh" (.fetch inspection.issued)])
  else (w, [])

/-- The notices in order. -/
def heedAll (w : World) : List Notice → World × List (Order Call)
  | [] => (w, [])
  | n :: rest =>
    let first := heed w n
    let others := heedAll first.1 rest
    (others.1, first.2 ++ others.2)

/-- Switch to the tab that a value names; a closed session stays where it is. -/
def switchTab (closed : Bool) (target : Json.Value) (w : World) :
    World × List (Order Call) × Option SwitchTrouble :=
  if closed then (w, [], none)
  else
    let s := w.tabs.switch target
    let r := heedAll { w with tabs := s.tabs } s.notices
    (r.1, r.2, s.trouble)

/-! ## 2. Messages -/

/-- The failure that an outcome means for the caller, if it is no trouble of the backend. -/
def faultOf {α : Type} : Except CallTrouble α → Option Fault
  | .error (.fault f) => some f
  | _ => none

/-- End a message. -/
def endSend (outcome : Except CallTrouble String) (w : World) : Run :=
  let w := { w with chat := w.chat.hear outcome }
  match faultOf outcome with
  | some f => w.fail [] (.fault f)
  | none => w.done [] (some true)

/-- Begin a message. -/
def beginSend (facts : Facts) (text : Option String) (w : World) : Run :=
  if facts.closed then w.done [] (some false)
  else
    match w.chat.ask text with
    | none => w.done [] (some false)
    | some (query, chat) =>
      let (client, sending) := w.client.send (.query query)
      let w := { w with chat := chat, client := client }
      match sending with
      | .refused f => endSend (.error (.fault f)) w
      | .answered _ r => endSend r.answer w
      | .outstanding n => w.await [] (.sending ⟨n, none⟩)

/-! ## 3. Uploads -/

/-- End an upload; a success spawns the return to the chat, unless the session is closed. -/
def endUpload (facts : Facts) (orders : List (Order Call)) (outcome : Except CallTrouble String)
    (w : World) : Run :=
  match outcome with
  | .ok message =>
    match w.ingest.set? (.succeeded message) with
    | .ok ingest =>
      let w := { w with ingest := { ingest.clear with navigation := facts.spawned? } }
      w.done (orders ++ [.spawn "ingest-auto-navigate" .navigate]) (some true)
    | .error m => { w with ingest := w.ingest.clear }.fail orders (.move m)
  | .error (.backend t) =>
    match w.ingest.set? (.failed ("Error: " ++ t.description)) with
    | .ok ingest => { w with ingest := ingest.clear }.done orders (some true)
    | .error m => { w with ingest := w.ingest.clear }.fail orders (.move m)
  | .error (.fault f) => { w with ingest := w.ingest.clear }.fail orders (.fault f)

/-- Begin an upload, unless there is nothing to upload or another upload is running. -/
def beginUpload (facts : Facts) (files : List SelectedFile) (w : World) : Run :=
  if files.isEmpty || !w.ingest.canChoose then w.done [] (some false)
  else
    let orders := w.ingest.navigation.toList.map Order.cancel
    let prepared := w.ingest.prepare
    match prepared.set? .uploading with
    | .error m => { w with ingest := prepared }.fail orders (.move m)
    | .ok ingest =>
      let (client, sending) := w.client.send (.upload files)
      let w := { w with ingest := ingest, client := client }
      match sending with
      | .refused f => endUpload facts orders (.error (.fault f)) w
      | .answered _ r => endUpload facts orders r.answer w
      | .outstanding n => w.await orders (.uploading ⟨n, none⟩)

/-- Begin to read a folder, unless an upload is running. -/
def beginChoose (facts : Facts) (path : String) (w : World) : Run :=
  if facts.closed || !w.ingest.canChoose then w.done [] (some false)
  else w.await [] (.reading path w.readsHeld none)

/-- Take up the files of a folder: they are selected and uploaded. -/
def takeSelected (facts : Facts) (selected : Selected) (w : World) : Run :=
  match selected with
  | .ok files => beginUpload facts files { w with ingest := w.ingest.select files }
  | .error t => w.fail [] (.folder t)

/-! ## 4. Fetches -/

/-- End a fetch. -/
def endFetch (number : Nat) (outcome : Except CallTrouble RecordSet) (w : World) : Run :=
  let w := { w with inspection := w.inspection.land number outcome }
  match faultOf outcome with
  | some f => w.fail [] (.fault f)
  | none => w.done [] none

/-- Begin a fetch. -/
def beginFetch (number : Nat) (w : World) : Run :=
  let (client, sending) := w.client.send .records
  let w := { w with client := client }
  match sending with
  | .refused f => endFetch number (.error (.fault f)) w
  | .answered _ r => endFetch number r.records w
  | .outstanding n => w.await [] (.fetching number ⟨n, none⟩)

/-! ## 5. The return to the chat -/

/-- Return to the chat: the banner is dismissed and the tab switched. -/
def navigateNow (facts : Facts) (w : World) : Run :=
  let w := { w with ingest := w.ingest.prepare }
  let (w, orders, trouble) := switchTab facts.closed (.string Tab.chat.name) w
  match trouble with
  | some t => w.fail orders (.switch t)
  | none => w.done orders none

/-! ## 6. Closing -/

/-- Begin to close; a closed session stays as it is. -/
def beginClose (facts : Facts) (w : World) : Run :=
  if facts.closed then w.done [] none
  else
    let orders := Tracking.closeOrders facts
    if facts.tracked.isEmpty then
      { w with client := w.client.close }.done (orders ++ [Order.forget]) none
    else ⟨w, orders, .pause (.tasks facts.tracked) .closing⟩

/-- End the closing. -/
def endClose (w : World) : Run :=
  { w with client := w.client.close }.done [.forget] none

/-! ## 7. All calls -/

/-- A call that is resumed with what it waited for. -/
def proceed (facts : Facts) (c : Call) (w : World) : Run :=
  match c with
  | .send text => beginSend facts text w
  | .sending ⟨_, some r⟩ => endSend r.answer w
  | .upload files => if facts.closed then w.done [] (some false) else beginUpload facts files w
  | .uploading ⟨_, some r⟩ => endUpload facts [] r.answer w
  | .choose path => beginChoose facts path w
  | .reading _ _ (some selected) => takeSelected facts selected w
  | .fetch number => beginFetch number w
  | .fetching number ⟨_, some r⟩ => endFetch number r.records w
  | .navigate => ⟨w, [], .pause (.sleep (Loop.ticksOf w.delay)) .navigating⟩
  | .navigating => navigateNow facts w
  | .idle => ⟨w, [], Tracking.idle facts .idle none⟩
  | .close => beginClose facts w
  | .closing => endClose w
  | waiting => w.await [] waiting

/-- What a call that is cancelled under way leaves behind. -/
def World.abandon (c : Call) (w : World) : World :=
  match c with
  | .sending _ => { w with chat := w.chat.abandon }
  | .uploading _ => { w with ingest := w.ingest.clear }
  | .fetching number _ => { w with inspection := w.inspection.abandon number }
  | _ => w

/-- A call that is cancelled under way. -/
def abort (c : Call) (w : World) : Run :=
  ⟨w.abandon c, [], .finish .cancelled⟩

/-- What calls do when they are resumed. -/
def behaviour : Behaviour World Call Result Failure := fun facts c wake w =>
  match wake with
  | .go => proceed facts c w
  | .cancelled => abort c w

end CodeSession.Session
