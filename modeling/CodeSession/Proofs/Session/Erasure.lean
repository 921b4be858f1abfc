import CodeSession.Proofs.Loop.Erasure
import CodeSession.Proofs.Session.Lone
import CodeSession.Proofs.Session.Returns

/-!
# A session without one of its calls

A call that stands alone, and whose runs change nothing, may be left out of a run: the session goes on
without it as it did with it, but for the numbers of the calls after it.

* `behaviour_rename` -- calls do the same whatever the numbers of the others are;
* `Session.without`, `spared` -- a session without a call, and a run without what concerns it;
* `without_play` -- leaving the call out of a run leaves it out of the session;
* `log_returnTime?_spared` -- the returns to the chat come at the same times.
-/

namespace CodeSession

/-! ## 1. Numbers do not matter to calls -/

/-- An ingestion with its return to the chat renamed. -/
def Ingest.rename (r : TaskId → TaskId) (i : Ingest) : Ingest :=
  { i with navigation := i.navigation.map r }

namespace Session

open Backend Folder

/-- A state with its return to the chat renamed. -/
def World.rename (r : TaskId → TaskId) (w : World) : World :=
  { w with ingest := w.ingest.rename r }

/-- A run of a call with the calls that it names renamed. -/
abbrev Run.rename (r : TaskId → TaskId) (run : Run) : Run :=
  Burst.rename (World.rename r) r run

section Rename

variable (r : TaskId → TaskId) (facts : Facts) (w : World)

@[simp] theorem status_rename (i : Ingest) : (i.rename r).status = i.status := rfl

@[simp] theorem client_rename : (w.rename r).client = w.client := rfl

@[simp] theorem chat_rename : (w.rename r).chat = w.chat := rfl

@[simp] theorem ingest_rename : (w.rename r).ingest = w.ingest.rename r := rfl

@[simp] theorem closed_rename : (facts.rename r).closed = facts.closed := rfl

@[simp] theorem canChoose_rename (i : Ingest) : (i.rename r).canChoose = i.canChoose := rfl

theorem set?_rename (status : IngestStatus) (i : Ingest) :
    (i.rename r).set? status = (i.set? status).map (Ingest.rename r) := by
  unfold Ingest.set?
  rw [status_rename]
  split <;> rfl

theorem acknowledge_rename (i : Ingest) : (i.rename r).acknowledge = i.acknowledge.rename r := by
  unfold Ingest.acknowledge
  rw [status_rename]
  cases i.status.phase <;> rfl

theorem prepare_rename (i : Ingest) : (i.rename r).prepare = i.prepare.rename r := by
  unfold Ingest.prepare
  rw [acknowledge_rename]
  rfl

theorem spawned?_rename : (facts.rename r).spawned? = facts.spawned?.map r := by
  unfold Facts.spawned?
  rw [closed_rename]
  split <;> rfl

theorem isEmpty_tracked_rename : (facts.rename r).tracked.isEmpty = facts.tracked.isEmpty := by
  show (facts.tracked.map r).isEmpty = _
  cases facts.tracked <;> rfl

/-! Messages and fetches name no call. -/

theorem endSend_rename (outcome : Except CallTrouble String) :
    endSend outcome (w.rename r) = (endSend outcome w).rename r := by
  unfold endSend
  cases faultOf outcome <;> rfl

theorem beginSend_rename (text : Option String) :
    beginSend (facts.rename r) text (w.rename r) = (beginSend facts text w).rename r := by
  unfold beginSend
  rw [closed_rename, chat_rename, client_rename]
  by_cases hclosed : facts.closed = true
  · rw [if_pos hclosed, if_pos hclosed]
    rfl
  · rw [if_neg hclosed, if_neg hclosed]
    cases w.chat.ask text with
    | none => rfl
    | some asked =>
      obtain ⟨query, chat⟩ := asked
      dsimp only
      generalize w.client.send (.query query) = sent
      obtain ⟨client, sending⟩ := sent
      cases sending with
      | refused f => exact endSend_rename r { w with chat := chat, client := client } _
      | answered n reply => exact endSend_rename r { w with chat := chat, client := client } _
      | outstanding n => rfl

theorem endFetch_rename (number : Nat) (outcome : Except CallTrouble RecordSet) :
    endFetch number outcome (w.rename r) = (endFetch number outcome w).rename r := by
  unfold endFetch
  cases faultOf outcome <;> rfl

theorem beginFetch_rename (number : Nat) :
    beginFetch number (w.rename r) = (beginFetch number w).rename r := by
  unfold beginFetch
  rw [client_rename]
  dsimp only
  generalize w.client.send .records = sent
  obtain ⟨client, sending⟩ := sent
  cases sending with
  | refused f => exact endFetch_rename r { w with client := client } number _
  | answered n reply => exact endFetch_rename r { w with client := client } number _
  | outstanding n => rfl

/-! An upload names the return to the chat that it calls off, and the one that it spawns. -/

theorem cancels_rename : ((w.ingest.rename r).navigation.toList.map (Order.cancel (κ := Call))) =
    (w.ingest.navigation.toList.map Order.cancel).map (Order.rename r) := by
  show (w.ingest.navigation.map r).toList.map _ = _
  cases w.ingest.navigation <;> rfl

theorem endUpload_rename (orders : List (Order Call)) (outcome : Except CallTrouble String) :
    endUpload (facts.rename r) (orders.map (Order.rename r)) outcome (w.rename r) =
      (endUpload facts orders outcome w).rename r := by
  unfold endUpload
  obtain (trouble | f) | message := outcome
  · dsimp only
    rw [ingest_rename, set?_rename]
    cases w.ingest.set? (.failed ("Error: " ++ trouble.description)) <;> rfl
  · rfl
  · dsimp only
    rw [ingest_rename, set?_rename, spawned?_rename]
    cases w.ingest.set? (.succeeded message) with
    | error m => rfl
    | ok ingest =>
      simp only [Burst.rename, World.done, List.map_append]
      rfl

theorem beginUpload_rename (files : List SelectedFile) :
    beginUpload (facts.rename r) files (w.rename r) = (beginUpload facts files w).rename r := by
  unfold beginUpload
  rw [ingest_rename, canChoose_rename, client_rename]
  by_cases hrefused : (files.isEmpty || !w.ingest.canChoose) = true
  · rw [if_pos hrefused, if_pos hrefused]
    rfl
  · rw [if_neg hrefused, if_neg hrefused]
    dsimp only
    rw [cancels_rename, prepare_rename, set?_rename]
    cases w.ingest.prepare.set? .uploading with
    | error m => rfl
    | ok ingest =>
      dsimp only [Except.map]
      generalize w.client.send (.upload files) = sent
      obtain ⟨client, sending⟩ := sent
      cases sending with
      | refused f =>
        exact endUpload_rename r facts { w with ingest := ingest, client := client } _ _
      | answered n reply =>
        exact endUpload_rename r facts { w with ingest := ingest, client := client } _ _
      | outstanding n => rfl

/-! The return to the chat spawns what a switch of the tab spawns. -/

theorem heedAll_rename (notices : List Notice) :
    heedAll (w.rename r) notices = ((heedAll w notices).1.rename r, (heedAll w notices).2) ∧
      (heedAll w notices).2.map (Order.rename r) = (heedAll w notices).2 := by
  induction notices generalizing w with
  | nil => exact ⟨rfl, rfl⟩
  | cons n notices ih =>
    have hheed : heed (w.rename r) n = ((heed w n).1.rename r, (heed w n).2) ∧
        (heed w n).2.map (Order.rename r) = (heed w n).2 := by
      unfold heed
      split <;> exact ⟨rfl, rfl⟩
    obtain ⟨hstate, horders⟩ := ih (heed w n).1
    constructor
    · simp only [heedAll, hheed.1, hstate]
    · simp only [heedAll, List.map_append, hheed.2, horders]

theorem switchTab_rename (closed : Bool) (target : Json.Value) :
    switchTab closed target (w.rename r) =
        ((switchTab closed target w).1.rename r, (switchTab closed target w).2) ∧
      (switchTab closed target w).2.1.map (Order.rename r) = (switchTab closed target w).2.1 := by
  cases closed with
  | true => exact ⟨rfl, rfl⟩
  | false =>
    obtain ⟨hstate, horders⟩ := heedAll_rename r { w with tabs := (w.tabs.switch target).tabs }
      (w.tabs.switch target).notices
    refine ⟨?_, horders⟩
    exact congrArg (fun x : World × List (Order Call) => (x.1, x.2, (w.tabs.switch target).trouble))
      hstate

theorem navigateNow_rename :
    navigateNow (facts.rename r) (w.rename r) = (navigateNow facts w).rename r := by
  have hprepared : { w.rename r with ingest := (w.rename r).ingest.prepare } =
      World.rename r { w with ingest := w.ingest.prepare } :=
    congrArg (fun ingest => { w with ingest := ingest }) (prepare_rename r w.ingest)
  obtain ⟨hstate, horders⟩ := switchTab_rename r { w with ingest := w.ingest.prepare } facts.closed
    (.string Tab.chat.name)
  unfold navigateNow
  dsimp only
  rw [hprepared, closed_rename, hstate]
  generalize switchTab facts.closed (.string Tab.chat.name) { w with ingest := w.ingest.prepare } =
    switched at horders ⊢
  obtain ⟨w', orders, trouble⟩ := switched
  have hrun : ∀ next : Next Call Result Failure, next.rename r = next →
      (⟨w'.rename r, orders, next⟩ : Run) = Run.rename r ⟨w', orders, next⟩ := by
    intro next hnext
    simp only [Burst.rename, hnext]
    rw [show orders.map (Order.rename r) = orders from horders]
  cases trouble with
  | none => exact hrun _ rfl
  | some trouble => exact hrun _ rfl

/-! Closing names all that is tracked, and so does waiting. -/

theorem closeOrders_rename : Tracking.closeOrders (κ := Call) (facts.rename r) =
    (Tracking.closeOrders facts).map (Order.rename r) := by
  simp [Tracking.closeOrders, Facts.rename, Order.rename]

theorem beginClose_rename :
    beginClose (facts.rename r) (w.rename r) = (beginClose facts w).rename r := by
  unfold beginClose
  rw [closed_rename, isEmpty_tracked_rename, closeOrders_rename]
  by_cases hclosed : facts.closed = true
  · rw [if_pos hclosed, if_pos hclosed]
    rfl
  · rw [if_neg hclosed, if_neg hclosed]
    dsimp only
    split
    · simp only [Burst.rename, World.done, List.map_append]
      rfl
    · rfl

theorem idle_rename : (Tracking.idle (facts.rename r) Call.idle none : Next Call Result Failure) =
    (Tracking.idle facts Call.idle none : Next Call Result Failure).rename r := by
  unfold Tracking.idle
  rw [isEmpty_tracked_rename]
  split <;> rfl

/-- **Calls do the same whatever the numbers of the others are.** -/
theorem behaviour_rename (c : Call) (wake : Wake) :
    behaviour (facts.rename r) c wake (w.rename r) = Run.rename r (behaviour facts c wake w) := by
  cases wake with
  | cancelled => cases c <;> rfl
  | go =>
    cases c with
    | send text => exact beginSend_rename r facts w text
    | sending x =>
      obtain ⟨n, _ | reply⟩ := x
      · rfl
      · exact endSend_rename r w reply.answer
    | upload files =>
      show (if facts.closed then _ else _) =
        Run.rename r (if facts.closed then _ else _)
      split
      · rfl
      · exact beginUpload_rename r facts w files
    | uploading x =>
      obtain ⟨n, _ | reply⟩ := x
      · rfl
      · exact endUpload_rename r facts w [] reply.answer
    | choose path =>
      show (if facts.closed || !w.ingest.canChoose then _ else _) =
        Run.rename r (if facts.closed || !w.ingest.canChoose then _ else _)
      split <;> rfl
    | reading path held read =>
      obtain _ | trouble | files := read
      · rfl
      · rfl
      · exact beginUpload_rename r facts { w with ingest := w.ingest.select files } files
    | fetch number => exact beginFetch_rename r w number
    | fetching number x =>
      obtain ⟨n, _ | reply⟩ := x
      · rfl
      · exact endFetch_rename r w number reply.records
    | navigate => rfl
    | navigating => exact navigateNow_rename r facts w
    | idle => exact congrArg (fun next => (⟨w.rename r, [], next⟩ : Run)) (idle_rename r facts)
    | close => exact beginClose_rename r facts w
    | closing => rfl

end Rename

/-! ## 2. A session without a call -/

/-- A session without a call; its return to the chat has its number among the others. -/
def without (t : TaskId) (s : Session) : Session :=
  Loop.without t (World.rename (skip t)) s

/-- A move without a call: a turn of the call, and what reaches the call alone, are left out. -/
def spare (t : TaskId) (s : Session) : Move → List Move
  | .turn => if s.ready.head? = some (.resume t) then [] else [.turn]
  | .revoke u => if u = t then [] else [.revoke (skip t u)]
  | .answer u r => if u = t then [] else [.answer (skip t u) r]
  | .read u selected => if u = t then [] else [.read (skip t u) selected]
  | m => [m]

/-- A run without a call. -/
def spared (t : TaskId) : Session → List Move → List Move
  | _, [] => []
  | s, m :: ms => s.spare t m ++ spared t (s.step m) ms

/-- Whether the next run of a call asks for nothing: it leaves the state as it is and gives no
    orders. -/
def Unnoticed (t : TaskId) (s : Session) : Prop :=
  ∀ c wake, s.resumption? = some ⟨t, c, some wake⟩ →
    (behaviour s.facts c wake s.state).state = s.state ∧
    (behaviour s.facts c wake s.state).orders = []

section Step

variable {s : Session} {m : Move} {t u : TaskId}

/-- A session in which a call is launched is as it was without it. -/
theorem without_step_launch (h : Loop.Scoped s) (ht : Tidy s) (d : Demand) :
    (s.step (.launch d)).without s.tasks.length = s := by
  have hnavigation : s.state.ingest.navigation.map (skip s.tasks.length) =
      s.state.ingest.navigation := by
    cases hn : s.state.ingest.navigation with
    | none => rfl
    | some u => exact congrArg some (skip_of_lt (ht.navigation u hn).1)
  have hstate : s.state.rename (skip s.tasks.length) = s.state :=
    congrArg (fun navigation => { s.state with
      ingest := { s.state.ingest with navigation := navigation } }) hnavigation
  exact (Loop.without_launch h d.call).trans
    (congrArg (fun state => { s with state := state }) hstate)

theorem continuation?_without (hu : u ≠ t) :
    (s.without t).continuation? (skip t u) = s.continuation? u := by
  have hstage : (s.without t).stage? (skip t u) = s.stage? u := Loop.stage?_without hu
  rw [Loop.continuation?, hstage]
  rfl

theorem shown?_without {α : Type} (show? : Call → Option α) (hu : u ≠ t) :
    (s.without t).shown? show? (skip t u) = s.shown? show? u := by
  rw [Loop.shown?, continuation?_without hu]
  rfl

/-- Runs of other calls go the same way without a call that stands alone. -/
theorem Lone.carries (h : Lone t s) (c : Call) (wake : Wake) :
    Loop.Carries behaviour t (World.rename (skip t)) s c wake where
  same := behaviour_rename (skip t) s.facts s.state c wake
  cancel := h.cancel_notMem c wake
  watch ids c' hnext hmem := by
    rw [watches_behaviour h.tidy.listeners hnext] at hmem
    exact h.apart.within.tracked t hmem rfl

/-- **A turn without a call that stands alone.** -/
theorem without_step_turn (h : Lone t s) (hquiet : s.Unnoticed t) :
    (s.step .turn).without t = (s.without t).play (s.spare t .turn) := by
  show _ = (s.without t).play (if s.ready.head? = some (.resume t) then [] else [.turn])
  split
  · rename_i hhead
    refine Loop.without_turned_own h.apart hhead fun c wake hrun => ?_
    obtain ⟨hstate, horders⟩ := hquiet c wake hrun
    refine ⟨hstate, horders, fun p c' hnext => ?_⟩
    obtain ⟨hkind, hpause⟩ := (h.tidy.tame c wake).kind p c' hnext
    exact Call.pause_of_upload
      (hkind.trans (h.kind c (Loop.Resumption.continuation?_eq hrun))) hpause
  · rename_i hhead
    exact Loop.without_turned h.apart hhead fun i c wake _ => h.carries c wake

theorem without_step_switch (h : Lone t s) (target : Json.Value) :
    (s.step (.switch target)).without t = (s.without t).step (.switch target) := by
  obtain ⟨hstate, horders⟩ := switchTab_rename (skip t) s.state s.closed target
  have hfold := Loop.without_foldl_obey (g := World.rename (skip t))
    (l := { s with state := (switchTab s.closed target s.state).1 }) h.apart.lt
    (cancel_notMem_switchTab s.closed target s.state t)
  rw [horders] at hfold
  rw [perform_switch, perform_switch]
  show _ = List.foldl Loop.obey
    { s.without t with state := (switchTab s.closed target (s.state.rename (skip t))).1 }
    (switchTab s.closed target (s.state.rename (skip t))).2.1
  rw [hstate]
  exact hfold

/-- **A step without a call that stands alone.** -/
theorem without_step (h : Lone t s) (hquiet : m = .turn → s.Unnoticed t) :
    (s.step m).without t = (s.without t).play (s.spare t m) := by
  cases m with
  | turn => exact without_step_turn h (hquiet rfl)
  | switch target => exact without_step_switch h target
  | write text => rfl
  | acknowledge =>
    exact congrArg (fun ingest => { s.without t with state := { s.state with ingest := ingest } })
      (acknowledge_rename (skip t) s.state.ingest).symm
  | launch d => exact Loop.without_add h.apart.lt "" false d.call
  | revoke u =>
    show (s.revoke u).without t = (s.without t).play (if u = t then [] else [.revoke (skip t u)])
    split
    · rename_i hu
      subst hu
      unfold revoke
      split
      · exact Loop.without_cancel_self
      · rfl
    · rename_i hu
      have hcontinuation : (s.without t).continuation? (skip t u) = s.continuation? u :=
        continuation?_without hu
      show _ = (s.without t).revoke (skip t u)
      unfold revoke
      rw [hcontinuation]
      split
      · exact Loop.without_cancel hu
      · rfl
  | answer u r =>
    show (s.answer u r).without t = (s.without t).play (if u = t then [] else [.answer (skip t u) r])
    split
    · rename_i hu
      subst hu
      unfold answer
      split
      · exact Loop.without_signal_self _
      · rfl
    · rename_i hu
      show _ = (s.without t).answer (skip t u) r
      unfold answer
      rw [shown?_without _ hu]
      split
      · exact Loop.without_signal hu _
      · rfl
  | read u selected =>
    show (s.deliver u selected).without t =
      (s.without t).play (if u = t then [] else [.read (skip t u) selected])
    split
    · rename_i hu
      subst hu
      unfold deliver
      split
      · exact Loop.without_signal_self _
      · rfl
    · rename_i hu
      show _ = (s.without t).deliver (skip t u) selected
      unfold deliver
      rw [shown?_without _ hu]
      split
      · exact Loop.without_signal hu _
      · rfl
  | wait ticks => exact Loop.without_fireAt h.apart (s.now + ticks)
  | prepare e p => rfl
  | holdReads held => rfl

/-- **A run without a call that stands alone**, and whose runs ask for nothing. -/
theorem without_play (h : Lone t s) {ms : List Move}
    (hquiet : ∀ before after, ms = before ++ .turn :: after → (s.play before).Unnoticed t) :
    (s.play ms).without t = (s.without t).play (s.spared t ms) := by
  induction ms generalizing s with
  | nil => rfl
  | cons m ms ih =>
    have hfirst := without_step h (m := m) fun hm => hquiet [] ms (by rw [hm]; rfl)
    rw [play_cons, ih (lone_step h m) fun before after hms => hquiet (m :: before) after (hms ▸ rfl),
      hfirst, spared, play_append]

/-! ## 3. The returns to the chat -/

/-- The time at which a move carries out a return to the chat. -/
def returnTime? (s : Session) (m : Move) : Option Nat :=
  (s.backToChat? m).map fun _ => s.now

/-- A turn of a call with files or a folder is no return to the chat. -/
theorem Lone.backToChat?_eq_none (h : Lone t s) (hhead : s.ready.head? = some (.resume t)) :
    s.backToChat? .turn = none := by
  cases hback : s.backToChat? .turn with
  | none => rfl
  | some u =>
    unfold backToChat? at hback
    split at hback
    · rename_i v hr
      have hres : s.resumption? = some ⟨v, .navigating, some .go⟩ := hr
      have hfront := (Loop.resumption?_eq_some_iff.mp hres).1
      obtain rfl : v = t := Callback.resume.inj (Option.some.inj (hfront.symm.trans hhead))
      cases h.kind _ (Loop.Resumption.continuation?_eq hres)
    · cases hback

/-- A move carries out a return to the chat if it does so without the call, at the same time. -/
theorem returnTime?_spare (h : Lone t s) (m : Move) :
    log returnTime? (s.without t) (s.spare t m) = (s.returnTime? m).toList := by
  have hreaches : ∀ (p : Prop) [Decidable p] (m' : Move), m' ≠ .turn →
      log returnTime? (s.without t) (if p then [] else [m']) = [] := by
    intro p _ m' hm
    split
    · rfl
    · cases m' with
      | turn => exact absurd rfl hm
      | _ => rfl
  cases m with
  | turn =>
    show log returnTime? _ (if s.ready.head? = some (.resume t) then [] else [.turn]) = _
    split
    · rename_i hhead
      rw [returnTime?, h.backToChat?_eq_none hhead]
      rfl
    · rename_i hhead
      have hres : (s.without t).resumed? .turn =
          (s.resumed? .turn).map fun r => ⟨skip t r.task, r.continuation, r.wake⟩ :=
        Loop.resumption?_without hhead
      have hback : (s.without t).backToChat? .turn = (s.backToChat? .turn).map (skip t) := by
        unfold backToChat?
        rw [hres]
        cases s.resumed? .turn with
        | none => rfl
        | some r =>
          obtain ⟨u, c, _ | _ | _⟩ := r <;> cases c <;> rfl
      simp only [log_cons, log_nil, List.append_nil, returnTime?, hback, Option.map_map]
      rfl
  | revoke u => exact hreaches (u = t) _ fun e => by cases e
  | answer u r => exact hreaches (u = t) _ fun e => by cases e
  | read u selected => exact hreaches (u = t) _ fun e => by cases e
  | _ => rfl

/-- **Without the call the returns to the chat are carried out at the same times.** -/
theorem log_returnTime?_spared (h : Lone t s) {ms : List Move}
    (hquiet : ∀ before after, ms = before ++ .turn :: after → (s.play before).Unnoticed t) :
    log returnTime? (s.without t) (s.spared t ms) = log returnTime? s ms := by
  induction ms generalizing s with
  | nil => rfl
  | cons m ms ih =>
    have hfirst := without_step h (m := m) fun hm => hquiet [] ms (by rw [hm]; rfl)
    rw [spared, log_append, returnTime?_spare h, ← hfirst,
      ih (lone_step h m) fun before after hms => hquiet (m :: before) after (hms ▸ rfl)]
    rfl

end Step

end Session

end CodeSession
