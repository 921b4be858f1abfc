import CodeSession.Tabs

/-!
# What a switch tells the listeners

A switch among listeners of which none switches itself.

* `Listener.isPlain` -- a listener takes note, raises or subscribes another one;
* `newcomers` -- the listeners that are subscribed while others are told;
* `notify_of_calm`, `notify_of_raiser` -- the listeners are told in order, up to the first that
  raises;
* `notices_of_switch` -- a switch tells all of them, those that subscribe meanwhile at the end, or
  those up to the first that raises; a value that names no tab changes nothing and tells nobody.
-/

namespace CodeSession

/-! ## 1. Names of tabs -/

theorem Tab.ofName?_name (tab : Tab) : Choice.ofName? tab.name = some tab := by
  cases tab <;> rfl

/-- A value names a tab if it is the name of it. -/
theorem Tab.ofValue?_eq_some_iff {v : Json.Value} {tab : Tab} :
    Choice.ofValue? v = some tab ↔ v = .string tab.name := by
  constructor
  · intro h
    cases v with
    | string s => exact congrArg Json.Value.string (Choice.name_of_ofName? h).symm
    | _ => cases h
  · rintro rfl
    exact Tab.ofName?_name tab

namespace Listener

/-! ## 2. Plain listeners -/

/-- Whether a listener switches no tab when it is told of one. -/
def isPlain (l : Listener) : Bool :=
  match l.action with
  | .switch _ => false
  | _ => true

/-- Whether a listener raises when it is told of a tab. -/
def raises (l : Listener) : Bool :=
  match l.action with
  | .raise => true
  | _ => false

/-- The listener that a listener subscribes when it is told of a tab. -/
def newcomer? (l : Listener) : Option Listener :=
  match l.action with
  | .subscribe name => some ⟨name, .record⟩
  | _ => none

end Listener

/-- The listeners that are subscribed while listeners are told of a tab. -/
def newcomers (ls : List Listener) : List Listener :=
  ls.filterMap Listener.newcomer?

theorem newcomers_append (ls ls' : List Listener) :
    newcomers (ls ++ ls') = newcomers ls ++ newcomers ls' :=
  List.filterMap_append

/-- What a listener is told in a switch: the tab is active already. -/
def Notice.of (tab : Tab) (l : Listener) : Notice :=
  ⟨l.name, tab, tab⟩

namespace Tabs

variable {nested : Json.Value → Tabs → Switching} {tab : Tab} {l : Listener} {t : Tabs}

@[simp] theorem listeners_subscribe (l : Listener) (t : Tabs) :
    (t.subscribe l).listeners = t.listeners ++ [l] := rfl

/-! ## 3. Listeners in order -/

/-- A plain listener that does not raise leaves the tab as it is, and its newcomer at the end. -/
theorem act_of_calm (hplain : l.isPlain = true) (hcalm : l.raises = false) :
    act nested tab l t = ⟨{ t with listeners := t.listeners ++ newcomers [l] }, [], none⟩ := by
  obtain ⟨name, action⟩ := l
  cases action with
  | record =>
    exact congrArg (fun ls => Switching.mk { t with listeners := ls } [] none)
      (List.append_nil _).symm
  | raise => cases hcalm
  | subscribe name' => rfl
  | switch target => cases hplain

theorem act_of_raiser (hraises : l.raises = true) :
    act nested tab l t = ⟨t, [], some (.raised l.name)⟩ := by
  obtain ⟨name, action⟩ := l
  cases action <;> first | rfl | cases hraises

/-- **Listeners of which none raises are told one after another**, and their newcomers wait at the
    end. -/
theorem notify_of_calm (nested : Json.Value → Tabs → Switching) (tab : Tab) {ls : List Listener}
    (hplain : ∀ l ∈ ls, l.isPlain = true) (hcalm : ∀ l ∈ ls, l.raises = false) (t : Tabs)
    (rest : List Listener) :
    notify nested tab (ls ++ rest) t =
      let others := notify nested tab rest { t with listeners := t.listeners ++ newcomers ls }
      ⟨others.tabs, ls.map (fun l => ⟨l.name, tab, t.active⟩) ++ others.notices,
        others.trouble⟩ := by
  induction ls generalizing t with
  | nil => simp [newcomers]
  | cons l ls ih =>
    rw [List.forall_mem_cons] at hplain hcalm
    have hnew : newcomers (l :: ls) = newcomers [l] ++ newcomers ls :=
      newcomers_append [l] ls
    rw [List.cons_append, notify, act_of_calm hplain.1 hcalm.1, hnew, ← List.append_assoc]
    dsimp only
    rw [ih hplain.2 hcalm.2]
    rfl

/-- **The first that raises ends it**: the listeners after it are not told. -/
theorem notify_of_raiser (nested : Json.Value → Tabs → Switching) (tab : Tab)
    {before : List Listener} (hplain : ∀ l ∈ before, l.isPlain = true)
    (hcalm : ∀ l ∈ before, l.raises = false) (hraises : l.raises = true) (t : Tabs)
    (after : List Listener) :
    notify nested tab (before ++ l :: after) t =
      ⟨{ t with listeners := t.listeners ++ newcomers before },
        (before ++ [l]).map (fun l => ⟨l.name, tab, t.active⟩), some (.raised l.name)⟩ := by
  rw [notify_of_calm nested tab hplain hcalm, notify, act_of_raiser hraises, List.map_append]
  rfl

/-! ## 4. A switch -/

/-- A switch to a tab assigns it before the first listener is told. -/
theorem switch_name (tab : Tab) (t : Tabs) :
    t.switch (.string tab.name) =
      notifyAll (switchWithin 299) tab { t with active := tab } := by
  show switchWithin (299 + 1) _ t = _
  rw [switchWithin, Tab.ofValue?_eq_some_iff.mpr rfl]

/-- **A switch tells the listeners in the order of their subscriptions**, none of which switches
    itself. It assigns the tab before the first is told. If none raises, all are told of it, each
    once, and then those that were subscribed meanwhile. If one raises, it is the last that is told,
    and what it raises ends the switch. A value that is the name of no tab changes nothing, and
    nobody is told. -/
theorem notices_of_switch (t : Tabs) (hplain : ∀ l ∈ t.listeners, l.isPlain = true) :
    (∀ target, (∀ tab : Tab, target ≠ .string tab.name) →
      t.switch target = ⟨t, [], some (.unknownTab target)⟩) ∧
    ∀ tab : Tab,
      ((∀ l ∈ t.listeners, l.raises = false) →
        let told := t.listeners ++ newcomers t.listeners
        t.switch (.string tab.name) = ⟨⟨tab, told⟩, told.map (Notice.of tab), none⟩) ∧
      ∀ before l after, t.listeners = before ++ l :: after →
        (∀ k ∈ before, k.raises = false) → l.raises = true →
        t.switch (.string tab.name) =
          ⟨⟨tab, t.listeners ++ newcomers before⟩, (before ++ [l]).map (Notice.of tab),
            some (.raised l.name)⟩ := by
  refine ⟨fun target htarget => ?_, fun tab => ⟨fun hcalm => ?_, ?_⟩⟩
  · have hnone : (Choice.ofValue? target : Option Tab) = none :=
      Option.eq_none_iff_forall_ne_some.mpr fun tab h =>
        htarget tab (Tab.ofValue?_eq_some_iff.mp h)
    exact switch_unknown hnone t
  · have hall := notify_of_calm (switchWithin 299) tab hplain hcalm { t with active := tab } []
    rw [List.append_nil] at hall
    rw [switch_name, notifyAll, hall]
    intro told
    show Switching.mk ⟨tab, told⟩ (t.listeners.map (Notice.of tab) ++ [] ++
      (told.drop t.listeners.length).map (Notice.of tab)) none = _
    rw [List.append_nil, List.drop_left, ← List.map_append]
  · intro before l after hlisteners hcalm hraises
    have hbefore : ∀ k ∈ before, k.isPlain = true := fun k hk =>
      hplain k (hlisteners ▸ List.mem_append_left _ hk)
    have hall := notify_of_raiser (switchWithin 299) tab hbefore hcalm hraises
      { t with active := tab } after
    rw [← hlisteners] at hall
    rw [switch_name, notifyAll, hall]
    rfl

/-- Four listeners: the second subscribes another one, the third raises. -/
def fourListeners : List Listener :=
  [⟨"a", .record⟩, ⟨"b", .subscribe "e"⟩, ⟨"c", .raise⟩, ⟨"d", .record⟩]

/-- The third of them ends a switch; without it all are told, the newcomer at the end. -/
theorem notices_of_fourListeners :
    (∀ l ∈ fourListeners, l.isPlain = true) ∧
    (Tabs.switch (.string "inspect") ⟨.chat, fourListeners⟩) =
      ⟨⟨.inspect, fourListeners ++ [⟨"e", .record⟩]⟩,
        [⟨"a", .inspect, .inspect⟩, ⟨"b", .inspect, .inspect⟩, ⟨"c", .inspect, .inspect⟩],
        some (.raised "c")⟩ ∧
    (Tabs.switch (.string "ingest") ⟨.chat, fourListeners.eraseIdx 2⟩).notices =
      [⟨"a", .ingest, .ingest⟩, ⟨"b", .ingest, .ingest⟩, ⟨"d", .ingest, .ingest⟩,
        ⟨"e", .ingest, .ingest⟩] := by
  have hplain : ∀ l ∈ fourListeners, l.isPlain = true := by decide
  have hcalm : ∀ l ∈ fourListeners.eraseIdx 2, l.raises = false := by decide
  obtain ⟨-, hraised⟩ := notices_of_switch ⟨.chat, fourListeners⟩ hplain
  obtain ⟨-, htold⟩ := notices_of_switch ⟨.chat, fourListeners.eraseIdx 2⟩ (by decide)
  refine ⟨hplain, ?_, ?_⟩
  · exact (hraised .inspect).2 [⟨"a", .record⟩, ⟨"b", .subscribe "e"⟩] ⟨"c", .raise⟩
      [⟨"d", .record⟩] rfl (by decide) rfl
  · exact congrArg Switching.notices ((htold .ingest).1 hcalm)

end Tabs

end CodeSession
