import CodeSession.Proofs.Loop.Turns
import CodeSession.Session.Basic

/-!
# What a run of a call may do

Every call, however it is woken, keeps to the same rules (`Tame`): it stays of its kind, waits only
for what it can wait for, spawns nothing but the return to the chat, and cancels nothing but an
earlier return to the chat -- unless it closes the session, and then it cancels all that is tracked.

* `switchTab_shut`, `switchTab_inspect`, `switchTab_other`, `switchTab_unknown` -- what a switch of
  the tab does when the viewer is the only listener;
* `tame_behaviour` -- every run of every call is tame;
* `touches_behaviour` -- every run of a call changes the parts of the state that are its own;
* `Fate` -- how the request of a call ends; `isRefusal` -- whether a call took nothing up.
-/

namespace CodeSession

/-! ## 1. Switching with one listener -/

theorem Tabs.switch_viewer {t : Tabs} {target : Json.Value} {tab : Tab}
    (hv : t.listeners = [Session.viewer]) (h : Choice.ofValue? target = some tab) :
    t.switch target =
      ⟨{ t with active := tab }, [⟨Session.viewer.name, tab, tab⟩], none⟩ := by
  have hstep : t.switch target =
      notifyAll (switchWithin 299) tab { t with active := tab } := by
    show switchWithin (299 + 1) target t = _
    rw [switchWithin, h]
  rw [hstep]
  simp [notifyAll, hv, notify, act, Session.viewer]

theorem Ingest.navigation_set? {i j : Ingest} {s : IngestStatus} (h : i.set? s = .ok j) :
    j.navigation = i.navigation := by
  obtain ⟨_, rfl⟩ := Ingest.set?_eq_ok_iff.mp h
  rfl

namespace Session

open Backend Folder

variable {facts : Facts} {w : World} {target : Json.Value}

theorem switchTab_shut (target : Json.Value) (w : World) :
    switchTab true target w = (w, [], none) := rfl

theorem switchTab_unknown (h : (Choice.ofValue? target : Option Tab) = none) :
    switchTab false target w = (w, [], some (.unknownTab target)) := by
  simp [switchTab, Tabs.switch_unknown h, heedAll]

theorem switchTab_inspect (hv : w.tabs.listeners = [viewer])
    (h : Choice.ofValue? target = some Tab.inspect) :
    switchTab false target w =
      ({ w with
          tabs := { w.tabs with active := .inspect }
          inspection := w.inspection.issue },
        [.spawn "inspection-refresh" (.fetch (w.inspection.issued + 1))], none) := by
  simp [switchTab, Tabs.switch_viewer hv h, heedAll, heed, Inspection.issue]

theorem switchTab_other {tab : Tab} (hv : w.tabs.listeners = [viewer])
    (h : Choice.ofValue? target = some tab) (htab : tab ≠ .inspect) :
    switchTab false target w = ({ w with tabs := { w.tabs with active := tab } }, [], none) := by
  simp [switchTab, Tabs.switch_viewer hv h, heedAll, heed, htab]

theorem cancel_notMem_switchTab (closed : Bool) (target : Json.Value) (w : World) (t : TaskId) :
    .cancel t ∉ (switchTab closed target w).2.1 := by
  have hall : ∀ notices w, .cancel t ∉ (heedAll w notices).2 := by
    intro notices
    induction notices with
    | nil => exact fun w h => by cases h
    | cons n notices ih =>
      intro w h
      rcases List.mem_append.mp h with h | h
      · unfold heed at h
        split at h
        · cases List.mem_singleton.mp h
        · cases h
      · exact ih _ h
  unfold switchTab
  split
  · exact List.not_mem_nil
  · exact hall _ _

theorem ofValue?_chat : Choice.ofValue? (.string Tab.chat.name) = some Tab.chat := rfl

/-! ## 2. Kinds of calls -/

/-- What a call is about, however far it has come. -/
inductive Kind where
  | message
  | upload
  | fetch (number : Nat)
  | navigation
  | idle
  | closing
  deriving DecidableEq

/-- Whether calls of a kind are spawned by the session, and so tracked. -/
def Kind.isBackground : Kind → Bool
  | .fetch _ | .navigation => true
  | _ => false

namespace Call

/-- The kind of a call. -/
def kind : Call → Kind
  | .send _ | .sending _ => .message
  | .upload _ | .uploading _ | .choose _ | .reading _ _ _ => .upload
  | .fetch number | .fetching number _ => .fetch number
  | .navigate | .navigating => .navigation
  | .idle => .idle
  | .close | .closing => .closing

/-- Whether a call has yet to begin. -/
def isFresh : Call → Bool
  | .send _ | .upload _ | .choose _ | .fetch _ | .navigate | .idle | .close => true
  | _ => false

/-- Whether a call has begun. -/
def isUnderWay : Call → Bool
  | .sending _ | .uploading _ | .reading _ _ _ | .fetching _ _ | .navigating | .idle | .closing =>
    true
  | _ => false

/-- Whether a call waits for a reply or for the files of a folder. -/
def awaits (c : Call) : Bool :=
  c.request?.isSome || c.path?.isSome

/-- What a call may pause for. -/
def mayPause (c : Call) : Pause → Bool
  | .signal => c.awaits
  | .sleep _ => match c with
    | .navigating => true
    | _ => false
  | .tasks _ => match c with
    | .idle | .closing => true
    | _ => false

@[simp] theorem kind_take (r : Reply) (c : Call) : (c.take r).kind = c.kind := by
  cases c <;> rfl

@[simp] theorem kind_takeFiles (s : Selected) (c : Call) : (c.takeFiles s).kind = c.kind := by
  cases c <;> rfl

theorem isUnderWay_of_mayPause {c : Call} {p : Pause} (h : c.mayPause p = true) :
    c.isUnderWay = true := by
  cases c <;> first | rfl | cases p <;> cases h

end Call

/-! ## 3. Tame runs -/

/-- The return to the chat that is noted is the one noted before, or is spawned. -/
def Navigates (facts : Facts) (w w' : World) (orders : List (Order Call)) : Prop :=
  ∀ t, w'.ingest.navigation = some t → w.ingest.navigation = some t ∨
    facts.closed = false ∧ t = facts.fresh ∧ ∃ name k, .spawn name k ∈ orders

/-- The rules that every run of a call keeps to. -/
structure Tame (facts : Facts) (c : Call) (w : World) (r : Run) : Prop where
  listeners : r.state.tabs.listeners = w.tabs.listeners
  kind : ∀ p c', r.next = .pause p c' → c'.kind = c.kind ∧ c'.mayPause p = true
  closes : ∀ p, r.next = .pause p .closing → .seal ∈ r.orders
  spawns : ∀ name k, .spawn name k ∈ r.orders → k = .navigate
  cancels : ∀ t, .cancel t ∈ r.orders → w.ingest.navigation = some t ∨ .seal ∈ r.orders
  seals : .seal ∈ r.orders → c = .close ∧ facts.closed = false ∧
    (∀ t ∈ facts.tracked, .cancel t ∈ r.orders) ∧ ∀ name k, .spawn name k ∉ r.orders
  forgets : .forget ∈ r.orders → .seal ∈ r.orders ∨ c = .closing
  navigation : Navigates facts w r.state r.orders

section Tame

variable {c : Call} {w' : World} {orders : List (Order Call)}

/-- The orders of an ordinary run: an earlier return to the chat is cancelled, a new one spawned. -/
def Ordinary (w : World) (orders : List (Order Call)) : Prop :=
  ∀ o ∈ orders, (∃ t, o = .cancel t ∧ w.ingest.navigation = some t) ∨ ∃ name, o = .spawn name .navigate

theorem ordinary_nil (w : World) : Ordinary w [] := by
  intro o ho
  cases ho

theorem ordinary_cancel (w : World) :
    Ordinary w (w.ingest.navigation.toList.map Order.cancel) := by
  intro o ho
  obtain ⟨t, ht, rfl⟩ := List.mem_map.mp ho
  exact .inl ⟨t, rfl, Option.mem_toList.mp ht⟩

theorem Ordinary.spawn (h : Ordinary w orders) (name : String) :
    Ordinary w (orders ++ [.spawn name .navigate]) := by
  intro o ho
  rcases List.mem_append.mp ho with ho | ho
  · exact h o ho
  · exact .inr ⟨name, List.mem_singleton.mp ho⟩

/-- A run with ordinary orders is tame. -/
theorem tame_of_ordinary {r : Run} (hl : r.state.tabs.listeners = w.tabs.listeners)
    (hnav : Navigates facts w r.state r.orders) (ho : Ordinary w r.orders)
    (hk : ∀ p c', r.next = .pause p c' → c'.kind = c.kind ∧ c'.mayPause p = true ∧ c' ≠ .closing) :
    Tame facts c w r where
  listeners := hl
  kind p c' h := ⟨(hk p c' h).1, (hk p c' h).2.1⟩
  closes p h := absurd rfl (hk p _ h).2.2
  spawns name k h := by
    rcases ho _ h with ⟨t, e, _⟩ | ⟨_, e⟩
    · cases e
    · cases e
      rfl
  cancels t h := by
    rcases ho _ h with ⟨_, e, hn⟩ | ⟨_, e⟩
    · cases e
      exact .inl hn
    · cases e
  seals h := by
    rcases ho _ h with ⟨_, e, _⟩ | ⟨_, e⟩ <;> cases e
  forgets h := by
    rcases ho _ h with ⟨_, e, _⟩ | ⟨_, e⟩ <;> cases e
  navigation := hnav

/-- A run that ends, with ordinary orders. -/
theorem tame_finish {e : Ending Result Failure} (hl : w'.tabs = w.tabs)
    (hnav : Navigates facts w w' orders) (ho : Ordinary w orders) :
    Tame facts c w ⟨w', orders, .finish e⟩ := by
  refine tame_of_ordinary (congrArg Tabs.listeners hl) hnav ho fun p c' h => ?_
  cases h

/-- A run that waits for a signal, with ordinary orders. -/
theorem tame_await {c' : Call} (hl : w'.tabs = w.tabs)
    (hnav : ∀ t, w'.ingest.navigation = some t → w.ingest.navigation = some t)
    (ho : Ordinary w orders) (hk : c'.kind = c.kind) (hp : c'.mayPause .signal = true) :
    Tame facts c w (w'.await orders c') := by
  refine tame_of_ordinary (congrArg Tabs.listeners hl) (fun t h => .inl (hnav t h)) ho
    fun p c'' h => ?_
  cases h
  refine ⟨hk, hp, ?_⟩
  rintro rfl
  cases hp

theorem tame_endSend (outcome : Except CallTrouble String) (hl : w'.tabs = w.tabs)
    (hi : w'.ingest = w.ingest) : Tame facts c w (endSend outcome w') := by
  unfold endSend
  dsimp only
  split <;> exact tame_finish hl (fun t h => .inl (hi ▸ h)) (ordinary_nil w)

theorem tame_endFetch (number : Nat) (outcome : Except CallTrouble RecordSet)
    (hl : w'.tabs = w.tabs) (hi : w'.ingest = w.ingest) :
    Tame facts c w (endFetch number outcome w') := by
  unfold endFetch
  dsimp only
  split <;> exact tame_finish hl (fun t h => .inl (hi ▸ h)) (ordinary_nil w)

theorem tame_endUpload (outcome : Except CallTrouble String) (ho : Ordinary w orders)
    (hl : w'.tabs = w.tabs)
    (hnav : ∀ t, w'.ingest.navigation = some t → w.ingest.navigation = some t) :
    Tame facts c w (endUpload facts orders outcome w') := by
  unfold endUpload
  split
  · split
    · refine tame_finish hl (fun t h => .inr ?_) (ho.spawn _)
      obtain ⟨hopen, hfresh⟩ := Facts.spawned?_eq_some_iff.mp h
      exact ⟨hopen, hfresh, _, _, List.mem_append_right _ (.head _)⟩
    · exact tame_finish hl (fun t h => .inl (hnav t h)) ho
  · split
    · rename_i hset
      exact tame_finish hl (fun t h => .inl (hnav t (Ingest.navigation_set? hset ▸ h))) ho
    · exact tame_finish hl (fun t h => .inl (hnav t h)) ho
  · exact tame_finish hl (fun t h => .inl (hnav t h)) ho

theorem tame_beginSend (text : Option String) (w : World) :
    Tame facts (.send text) w (beginSend facts text w) := by
  unfold beginSend
  split
  · exact tame_finish rfl (fun t h => .inl h) (ordinary_nil w)
  · split
    · exact tame_finish rfl (fun t h => .inl h) (ordinary_nil w)
    · dsimp only
      split
      · exact tame_endSend _ rfl rfl
      · exact tame_endSend _ rfl rfl
      · exact tame_await rfl (fun t h => h) (ordinary_nil w) rfl rfl

theorem tame_beginUpload (files : List SelectedFile) (hk : c.kind = .upload)
    (hl : w'.tabs = w.tabs) (hi : w'.ingest.navigation = w.ingest.navigation) :
    Tame facts c w (beginUpload facts files w') := by
  unfold beginUpload
  split
  · exact tame_finish hl (fun t h => .inl (hi ▸ h)) (ordinary_nil w)
  · have ho : Ordinary w (w'.ingest.navigation.toList.map Order.cancel) :=
      hi ▸ ordinary_cancel w
    dsimp only
    split
    · exact tame_finish hl (fun t h => by cases h) ho
    · rename_i ingest hset
      have hnone : ingest.navigation = none := Ingest.navigation_set? hset
      split
      · exact tame_endUpload _ ho hl fun t h => by rw [hnone] at h; cases h
      · exact tame_endUpload _ ho hl fun t h => by rw [hnone] at h; cases h
      · exact tame_await hl (fun t h => by rw [hnone] at h; cases h) ho hk.symm rfl

theorem tame_beginFetch (number : Nat) (w : World) :
    Tame facts (.fetch number) w (beginFetch number w) := by
  unfold beginFetch
  dsimp only
  split
  · exact tame_endFetch _ _ rfl rfl
  · exact tame_endFetch _ _ rfl rfl
  · exact tame_await rfl (fun t h => h) (ordinary_nil w) rfl rfl

theorem tame_navigateNow (hv : w.tabs.listeners = [viewer]) :
    Tame facts .navigating w (navigateNow facts w) := by
  have hnone : Navigates facts w { w with ingest := w.ingest.prepare } [] := fun t h => by cases h
  unfold navigateNow
  dsimp only
  cases hc : facts.closed with
  | true =>
    rw [switchTab_shut]
    exact tame_finish rfl hnone (ordinary_nil w)
  | false =>
    rw [switchTab_other (w := { w with ingest := w.ingest.prepare }) hv ofValue?_chat (by decide)]
    refine tame_of_ordinary rfl hnone (ordinary_nil w) fun p c' h => ?_
    cases h

/-- A call that closes an open session seals it. -/
theorem seal_mem_beginClose (w : World) (h : facts.closed = false) :
    .seal ∈ (beginClose facts w).orders := by
  have hopen : ¬facts.closed = true := by simp [h]
  unfold beginClose
  rw [if_neg hopen]
  dsimp only
  split <;> simp [World.done, Tracking.closeOrders]

theorem tame_beginClose (w : World) : Tame facts .close w (beginClose facts w) := by
  unfold beginClose
  split
  · exact tame_finish rfl (fun t h => .inl h) (ordinary_nil w)
  · rename_i hopen
    have hopen' : facts.closed = false := by simpa using hopen
    dsimp only
    split
    · rename_i hempty
      have hnil : facts.tracked = [] := by simpa using hempty
      refine ⟨rfl, ?_, ?_, ?_, ?_, ?_, ?_, fun t h => .inl h⟩ <;>
        simp [World.done, Tracking.closeOrders, hnil, hopen']
    · refine ⟨rfl, ?_, ?_, ?_, ?_, ?_, ?_, fun t h => .inl h⟩ <;>
        simp [Tracking.closeOrders, hopen', Call.kind, Call.mayPause]

theorem tame_endClose (w : World) : Tame facts .closing w (endClose w) := by
  refine ⟨rfl, ?_, ?_, ?_, ?_, ?_, ?_, fun t h => .inl h⟩ <;> simp [endClose, World.done]

theorem tame_abort (c : Call) (w : World) : Tame facts c w (abort c w) := by
  unfold abort World.abandon
  split <;> exact tame_finish rfl (fun t h => .inl h) (ordinary_nil w)

/-- A call that is resumed before what it waited for has come waits again. -/
theorem tame_again (hp : c.mayPause .signal = true) : Tame facts c w (w.await [] c) :=
  tame_await rfl (fun _ h => h) (ordinary_nil w) rfl hp

theorem tame_proceed (c : Call) (hv : w.tabs.listeners = [viewer]) :
    Tame facts c w (proceed facts c w) := by
  cases c with
  | send text => exact tame_beginSend text w
  | sending x =>
    obtain ⟨n, _ | r⟩ := x
    · exact tame_again rfl
    · exact tame_endSend r.answer rfl rfl
  | upload files =>
    show Tame facts _ w (if facts.closed then w.done [] (some false) else beginUpload facts files w)
    split
    · exact tame_finish rfl (fun t h => .inl h) (ordinary_nil w)
    · exact tame_beginUpload files rfl rfl rfl
  | uploading x =>
    obtain ⟨n, _ | r⟩ := x
    · exact tame_again rfl
    · exact tame_endUpload r.answer (ordinary_nil w) rfl fun t h => h
  | choose path =>
    show Tame facts _ w (beginChoose facts path w)
    unfold beginChoose
    split
    · exact tame_finish rfl (fun t h => .inl h) (ordinary_nil w)
    · exact tame_await rfl (fun t h => h) (ordinary_nil w) rfl rfl
  | reading path held read =>
    obtain _ | t | files := read
    · exact tame_again rfl
    · exact tame_finish rfl (fun t h => .inl h) (ordinary_nil w)
    · show Tame facts _ w (beginUpload facts files { w with ingest := w.ingest.select files })
      exact tame_beginUpload files rfl rfl rfl
  | fetch number => exact tame_beginFetch number w
  | fetching number x =>
    obtain ⟨n, _ | r⟩ := x
    · exact tame_again rfl
    · exact tame_endFetch number r.records rfl rfl
  | navigate =>
    refine tame_of_ordinary rfl (fun t h => .inl h) (ordinary_nil w) fun p c' h => ?_
    cases h
    exact ⟨rfl, rfl, fun e => by cases e⟩
  | navigating => exact tame_navigateNow hv
  | idle =>
    refine tame_of_ordinary rfl (fun t h => .inl h) (ordinary_nil w) fun p c' h => ?_
    have hidle : Tracking.idle facts Call.idle (none : Result) = .pause p c' := h
    unfold Tracking.idle at hidle
    split at hidle
    · cases hidle
    · cases hidle
      exact ⟨rfl, rfl, fun e => by cases e⟩
  | close => exact tame_beginClose w
  | closing => exact tame_endClose w

/-- **Every run of every call is tame.** -/
theorem tame_behaviour (c : Call) (wake : Wake) (hv : w.tabs.listeners = [viewer]) :
    Tame facts c w (behaviour facts c wake w) := by
  cases wake with
  | go => exact tame_proceed c hv
  | cancelled => exact tame_abort c w

end Tame

/-! ## 4. What a run of a call changes -/

theorem closed_send (r : Request) (client : Client) : (client.send r).1.closed = client.closed := by
  unfold Client.send
  split
  · rfl
  · split
    · rfl
    · dsimp only
      split <;> rfl

/-- The parts of the state that calls of a kind may change. Only closing closes the client. -/
inductive Touches : Kind → World → World → Prop where
  | message {w : World} (chat : Chat) (client : Client) (h : client.closed = w.client.closed) :
    Touches .message w { w with chat := chat, client := client }
  | upload {w : World} (ingest : Ingest) (client : Client) (h : client.closed = w.client.closed) :
    Touches .upload w { w with ingest := ingest, client := client }
  | fetch {number : Nat} {w : World} (inspection : Inspection) (client : Client)
    (h : client.closed = w.client.closed) :
    Touches (.fetch number) w { w with inspection := inspection, client := client }
  | navigation {w : World} (ingest : Ingest) (tabs : Tabs)
    (h : ingest = w.ingest ∨ ingest = w.ingest.prepare) :
    Touches .navigation w { w with ingest := ingest, tabs := tabs }
  | idle {w : World} : Touches .idle w w
  | closing {w : World} (client : Client) : Touches .closing w { w with client := client }

section Touches

variable {c : Call} {w' : World} {orders : List (Order Call)} {number : Nat}

theorem touches_endSend (outcome : Except CallTrouble String) (h : Touches .message w w') :
    Touches .message w (endSend outcome w').state := by
  cases h with
  | message chat client h =>
    unfold endSend
    dsimp only
    split <;> exact .message _ _ h

theorem touches_endFetch (outcome : Except CallTrouble RecordSet)
    (h : Touches (.fetch number) w w') : Touches (.fetch number) w (endFetch number outcome w').state := by
  cases h with
  | fetch inspection client h =>
    unfold endFetch
    dsimp only
    split <;> exact .fetch _ _ h

theorem touches_endUpload (outcome : Except CallTrouble String) (h : Touches .upload w w') :
    Touches .upload w (endUpload facts orders outcome w').state := by
  cases h with
  | upload ingest client h =>
    unfold endUpload
    split
    · split <;> exact .upload _ _ h
    · split <;> exact .upload _ _ h
    · exact .upload _ _ h

theorem touches_beginUpload (files : List SelectedFile) (h : Touches .upload w w') :
    Touches .upload w (beginUpload facts files w').state := by
  cases h with
  | upload ingest client h =>
    unfold beginUpload
    split
    · exact .upload _ _ h
    · dsimp only
      split
      · exact .upload _ _ h
      · have hsend := (closed_send (.upload files) client).trans h
        split
        · exact touches_endUpload _ (.upload _ _ hsend)
        · exact touches_endUpload _ (.upload _ _ hsend)
        · exact .upload _ _ hsend

theorem touches_navigateNow (hv : w.tabs.listeners = [viewer]) :
    Touches .navigation w (navigateNow facts w).state := by
  unfold navigateNow
  dsimp only
  cases hc : facts.closed with
  | true =>
    rw [switchTab_shut]
    exact .navigation _ _ (.inr rfl)
  | false =>
    rw [switchTab_other (w := { w with ingest := w.ingest.prepare }) hv ofValue?_chat (by decide)]
    exact .navigation _ _ (.inr rfl)

theorem touches_proceed (c : Call) (hv : w.tabs.listeners = [viewer]) :
    Touches c.kind w (proceed facts c w).state := by
  cases c with
  | send text =>
    show Touches .message w (beginSend facts text w).state
    unfold beginSend
    split
    · exact .message _ _ rfl
    · split
      · exact .message _ _ rfl
      · rename_i query chat _
        have hsend := closed_send (.query query) w.client
        dsimp only
        split
        · exact touches_endSend _ (.message _ _ hsend)
        · exact touches_endSend _ (.message _ _ hsend)
        · exact .message _ _ hsend
  | sending x =>
    obtain ⟨n, _ | r⟩ := x
    · exact .message _ _ rfl
    · exact touches_endSend r.answer (.message _ _ rfl)
  | upload files =>
    show Touches .upload w
      (if facts.closed then w.done [] (some false) else beginUpload facts files w).state
    split
    · exact .upload _ _ rfl
    · exact touches_beginUpload files (.upload _ _ rfl)
  | uploading x =>
    obtain ⟨n, _ | r⟩ := x
    · exact .upload _ _ rfl
    · exact touches_endUpload r.answer (.upload _ _ rfl)
  | choose path =>
    show Touches .upload w (beginChoose facts path w).state
    unfold beginChoose
    split <;> exact .upload _ _ rfl
  | reading path held read =>
    obtain _ | t | files := read
    · exact .upload _ _ rfl
    · exact .upload _ _ rfl
    · have hrun : proceed facts (.reading path held (some (.ok files))) w =
          beginUpload facts files { w with ingest := w.ingest.select files } := rfl
      rw [hrun]
      exact touches_beginUpload files (.upload (w.ingest.select files) w.client rfl)
  | fetch number =>
    have hsend := closed_send .records w.client
    show Touches (.fetch number) w (beginFetch number w).state
    unfold beginFetch
    dsimp only
    split
    · exact touches_endFetch _ (.fetch _ _ hsend)
    · exact touches_endFetch _ (.fetch _ _ hsend)
    · exact .fetch _ _ hsend
  | fetching number x =>
    obtain ⟨n, _ | r⟩ := x
    · exact .fetch _ _ rfl
    · exact touches_endFetch r.records (.fetch _ _ rfl)
  | navigate => exact .navigation _ _ (.inl rfl)
  | navigating => exact touches_navigateNow hv
  | idle => exact .idle
  | close =>
    show Touches .closing w (beginClose facts w).state
    unfold beginClose
    split
    · exact .closing _
    · dsimp only
      split <;> exact .closing _
  | closing => exact .closing _

/-- **A run of a call changes the parts of the state that are its own.** -/
theorem touches_behaviour (c : Call) (wake : Wake) (hv : w.tabs.listeners = [viewer]) :
    Touches c.kind w (behaviour facts c wake w).state := by
  cases wake with
  | go => exact touches_proceed c hv
  | cancelled =>
    cases c with
    | send text => exact .message _ _ rfl
    | sending x => exact .message _ _ rfl
    | fetch number => exact .fetch _ _ rfl
    | fetching number x => exact .fetch _ _ rfl
    | navigate => exact .navigation _ _ (.inl rfl)
    | navigating => exact .navigation _ _ (.inl rfl)
    | idle => exact .idle
    | close => exact .closing _
    | closing => exact .closing _
    | _ => exact .upload _ _ rfl

end Touches

/-! ## 5. How requests end -/

/-- How a request ends: with an outcome, cancelled under way, or cancelled before it began. -/
inductive Fate (α : Type) where
  | landed (outcome : Except CallTrouble α)
  | aborted
  | unbegun

/-- Whether a request ended without an answer or a trouble of the backend. -/
def Fate.isStray {α : Type} : Fate α → Bool
  | .landed (.error (.fault _)) | .aborted => true
  | _ => false

/-- The fate of a request that is not left open, with what its reply means. -/
def fateOf {α : Type} (means : Reply → Except CallTrouble α) : Sending → Option (Fate α)
  | .refused f => some (.landed (.error (.fault f)))
  | .answered _ r => some (.landed (means r))
  | .outstanding _ => none

/-! ## 6. Refusals -/

/-- Whether a run returns that it took nothing up. -/
def isRefusal : Next Call Result Failure → Bool
  | .finish (.returned (some false)) => true
  | _ => false

end Session

end CodeSession
