import CodeSession.Model.Tab

/-!
# Switching tabs

One tab is active. Switching assigns it and then notifies the listeners in the order in which they
subscribed, those included that subscribe meanwhile. A listener may raise, which ends the
notification, subscribe another listener, or switch again while it is being notified; none catches
what a switch of its own raises.

* `Tabs.switch` -- the tabs after a switch, the notices given, and what ended them early;
* a value that names no tab changes nothing and notifies nobody (`switch_unknown`).
-/

namespace CodeSession

/-- What a listener does when it is notified, beside taking note: nothing, raise, subscribe a
    listener that only takes note, or switch to a tab unless it was notified of that one. -/
inductive ListenerAction where
  | record
  | raise
  | subscribe (name : String)
  | switch (target : Json.Value)
  deriving Repr

/-- A listener. -/
structure Listener where
  name : String
  action : ListenerAction
  deriving Repr

/-- A notice to a listener: the tab it is told of, and the one active at that moment. -/
structure Notice where
  listener : String
  tab : Tab
  active : Tab
  deriving DecidableEq, Repr

/-- What ends a switch early. -/
inductive SwitchTrouble where
  | unknownTab (target : Json.Value)
  | raised (listener : String)
  | nestedTooDeep
  deriving Repr

/-- What is said about a switch that ended early. -/
def SwitchTrouble.message : SwitchTrouble → String
  | .unknownTab target => Choice.unknown Tab target
  | .raised name => "listener " ++ name
  | .nestedTooDeep => "switches are nested too deep"

/-- The active tab and the listeners, in the order of their subscriptions. -/
structure Tabs where
  active : Tab
  listeners : List Listener
  deriving Repr

/-- The tabs after a switch, the notices given, and what ended it early. -/
structure Switching where
  tabs : Tabs
  notices : List Notice
  trouble : Option SwitchTrouble
  deriving Repr

namespace Tabs

/-- The tabs at the start. -/
def start (initial : Tab) : Tabs := ⟨initial, []⟩

/-- Add a listener at the end. -/
def subscribe (l : Listener) (t : Tabs) : Tabs :=
  { t with listeners := t.listeners ++ [l] }

/-- What a listener does beside taking note. Switches from within go through `nested`. -/
def act (nested : Json.Value → Tabs → Switching) (tab : Tab) (l : Listener) (t : Tabs) :
    Switching :=
  match l.action with
  | .record => ⟨t, [], none⟩
  | .raise => ⟨t, [], some (.raised l.name)⟩
  | .subscribe name => ⟨t.subscribe ⟨name, .record⟩, [], none⟩
  | .switch (.string target) =>
    if tab.name == target then ⟨t, [], none⟩ else nested (.string target) t
  | .switch target => nested target t

/-- Notify listeners in order, up to the first that raises. -/
def notify (nested : Json.Value → Tabs → Switching) (tab : Tab) : List Listener → Tabs → Switching
  | [], t => ⟨t, [], none⟩
  | l :: rest, t =>
    let notice : Notice := ⟨l.name, tab, t.active⟩
    let acted := act nested tab l t
    match acted.trouble with
    | some trouble => ⟨acted.tabs, notice :: acted.notices, some trouble⟩
    | none =>
      let others := notify nested tab rest acted.tabs
      ⟨others.tabs, notice :: (acted.notices ++ others.notices), others.trouble⟩

/-- Notify all listeners; those that subscribe meanwhile come last, and only take note. -/
def notifyAll (nested : Json.Value → Tabs → Switching) (tab : Tab) (t : Tabs) : Switching :=
  let first := notify nested tab t.listeners t
  match first.trouble with
  | some _ => first
  | none =>
    let late := first.tabs.listeners.drop t.listeners.length
    ⟨first.tabs, first.notices ++ late.map fun l => ⟨l.name, tab, first.tabs.active⟩, none⟩

/-- Switch, with at most so many switches within one another. -/
def switchWithin : Nat → Json.Value → Tabs → Switching
  | 0, _, t => ⟨t, [], some .nestedTooDeep⟩
  | depth + 1, target, t =>
    match (Choice.ofValue? target : Option Tab) with
    | none => ⟨t, [], some (.unknownTab target)⟩
    | some tab => notifyAll (switchWithin depth) tab { t with active := tab }

/-- How deep switches may be nested. -/
def depthLimit : Nat := 300

/-- Switch to the tab that a value names. -/
def switch (target : Json.Value) (t : Tabs) : Switching :=
  switchWithin depthLimit target t

theorem switch_unknown {target : Json.Value}
    (h : (Choice.ofValue? target : Option Tab) = none) (t : Tabs) :
    t.switch target = ⟨t, [], some (.unknownTab target)⟩ := by
  simp [switch, depthLimit, switchWithin, h]

end Tabs

end CodeSession
