import CodeSession.Proofs.Loop.Queue
import CodeSession.Proofs.Session.Calls
import CodeSession.Proofs.Session.Moves
import Mathlib.Logic.Basic

/-!
# Steps that run no call

A step either runs a call, and then the call says what happens, or it is calm.

* `resumed?` -- what a move resumes; a call that was cancelled before it began is not run;
* `Drift` -- how the stage of a call may change in a calm step;
* `Calm`, `calm_step` -- a calm step changes the state only where the user operates on it: a draft
  is written, a banner dismissed, the inspection shown. The last issues a fetch;
* `calm_or_run` -- the two kinds of steps;
* `Move.onState`, `Calm.state` -- what the user does to the state.
-/

namespace CodeSession.Session

open Backend Folder

/-! ## 1. Moves -/

/-- What a move resumes, if it resumes a call. -/
def resumed? (s : Session) : Move → Option (Loop.Resumption Call)
  | .turn => s.resumption?
  | _ => none

/-- Only a turn resumes a call. -/
theorem turn_of_resumed? {s : Session} {m : Move} {r : Loop.Resumption Call}
    (h : s.resumed? m = some r) : m = .turn := by
  cases m with
  | turn => rfl
  | _ => cases h

theorem continuation?_of_resumed? {s : Session} {m : Move} {r : Loop.Resumption Call}
    (h : s.resumed? m = some r) : s.continuation? r.task = some r.continuation := by
  cases m with
  | turn => exact Loop.Resumption.continuation?_eq h
  | _ => cases h

/-- Whether a move shows the inspection of a session that is not closed. -/
def Move.activates (closed : Bool) : Move → Bool
  | .switch target => !closed && (Choice.ofValue? target == some Tab.inspect)
  | _ => false

/-- What a move does to the ingestion: the banner is dismissed. -/
def Move.onIngest : Move → Ingest → Ingest
  | .acknowledge, i => i.acknowledge
  | _, i => i

/-- The calls that a move adds: what the user launches, or the fetch that an activation issues. -/
inductive Arrives (s : Session) (m : Move) : Call → Prop where
  | launched (d : Demand) (h : m = .launch d) : Arrives s m d.call
  | issued (h : m.activates s.closed = true) :
    Arrives s m (.fetch (s.state.inspection.issued + 1))

/-- How the stage of a call may change in a calm step. -/
inductive Drift : Stage Call Result Failure → Stage Call Result Failure → Prop where
  | stirs {st st' : Stage Call Result Failure} (h : st.Stirs st') : Drift st st'
  | revoked {st : Stage Call Result Failure} {c : Call} (hc : st.continuation? = some c)
    (h : c.isRevocable = true) : Drift st st.cancel
  | answered {c : Call} (r : Reply) (h : c.request?.isSome = true) :
    Drift (.waiting c .signal) (.queued (c.take r) true false)
  | delivered {c : Call} (selected : Selected) (h : c.path?.isSome = true) :
    Drift (.waiting c .signal) (.queued (c.takeFiles selected) true false)

theorem Drift.same (st : Stage Call Result Failure) : Drift st st := .stirs (.same st)

/-- How the continuation of a call may change in a calm step. -/
inductive Receives (c : Call) : Call → Prop where
  | nothing : Receives c c
  | reply (r : Reply) : Receives c (c.take r)
  | files (selected : Selected) : Receives c (c.takeFiles selected)

theorem Receives.kind {c c' : Call} (h : Receives c c') : c'.kind = c.kind := by
  cases h with
  | nothing => rfl
  | reply r => exact Call.kind_take r c
  | files selected => exact Call.kind_takeFiles selected c

theorem Receives.closing {c : Call} (h : Receives c .closing) : c = .closing := by
  generalize he : Call.closing = c' at h
  cases h with
  | nothing => rfl
  | reply r => cases c <;> cases he; rfl
  | files selected => cases c <;> cases he; rfl

theorem Drift.receives {st st' : Stage Call Result Failure} {c' : Call} (h : Drift st st')
    (hc' : st'.continuation? = some c') : ∃ c, st.continuation? = some c ∧ Receives c c' := by
  cases h with
  | stirs h => exact ⟨c', h.continuation? ▸ hc', .nothing⟩
  | revoked hc h => exact ⟨c', (Stage.continuation?_cancel st) ▸ hc', .nothing⟩
  | answered r h =>
    cases hc'
    exact ⟨_, rfl, .reply r⟩
  | delivered selected h =>
    cases hc'
    exact ⟨_, rfl, .files selected⟩

/-- What does not change when a reply or files arrive does not change in a calm step. -/
structure Steady {α : Type} (show? : Call → Option α) : Prop where
  take : ∀ r c, show? (c.take r) = show? c
  takeFiles : ∀ selected c, show? (c.takeFiles selected) = show? c

theorem Drift.shown {α : Type} {show? : Call → Option α} (hsteady : Steady show?)
    {st st' : Stage Call Result Failure} (h : Drift st st') :
    st'.continuation?.bind show? = st.continuation?.bind show? := by
  cases h with
  | stirs h => rw [h.continuation?]
  | revoked hc h => rw [Stage.continuation?_cancel]
  | answered r h => exact hsteady.take r _
  | delivered selected h => exact hsteady.takeFiles selected _

/-- A call that has ended after a calm step had ended before, unless it was dropped. -/
theorem Drift.of_ended {st : Stage Call Result Failure} {e : Ending Result Failure}
    (h : Drift st (.ended e)) : st = .ended e := by
  generalize hst : Stage.ended e = st' at h
  cases h with
  | stirs hstir => cases hstir <;> first | rfl | cases hst
  | revoked hc hrev => cases st <;> first | rfl | cases hst
  | answered r hc => cases hst
  | delivered selected hc => cases hst

/-! ## 2. Calm steps -/

/-- A step that runs no call. -/
structure Calm (s : Session) (m : Move) (s' : Session) : Prop where
  wake : ∀ r, s.resumed? m = some r → r.wake = none
  closed : s'.closed = s.closed
  length : s.tasks.length ≤ s'.tasks.length
  messages : s'.state.chat.messages = s.state.chat.messages
  pending : s'.state.chat.pending = s.state.chat.pending
  ingest : s'.state.ingest = m.onIngest s.state.ingest
  inspection : s'.state.inspection =
    if m.activates s.closed then s.state.inspection.issue else s.state.inspection
  client : s'.state.client.closed = s.state.client.closed
  listeners : s'.state.tabs.listeners = s.state.tabs.listeners
  stage : ∀ i st, s.stage? i = some st → (∀ r, s.resumed? m = some r → r.task ≠ i) →
    ∃ st', s'.stage? i = some st' ∧ Drift st st'
  dropped : ∀ r, s.resumed? m = some r → s'.stage? r.task = some (.ended .cancelled)
  arrival : ∀ i st', s.tasks.length ≤ i → s'.stage? i = some st' →
    i = s.tasks.length ∧ ∃ c, Arrives s m c ∧ st' = .queued c false false
  arrived : ∀ c, Arrives s m c → s'.stage? s.tasks.length = some (.queued c false false)
  tracked : ∀ i ∈ s.tracked, i ∈ s'.tracked ∨ .settled i ∈ s.ready
  issued : m.activates s.closed = true → s.tasks.length ∈ s'.tracked

section Calm

variable {s s' : Session} {m : Move}

/-- Where a call stood before a calm step, or that it is new. -/
theorem Calm.stage_before (h : Calm s m s') {i : TaskId} {st' : Stage Call Result Failure}
    (hs' : s'.stage? i = some st') :
    (∃ st, s.stage? i = some st ∧ (Drift st st' ∨ st' = .ended .cancelled)) ∨
    (i = s.tasks.length ∧ ∃ c, Arrives s m c ∧ st' = .queued c false false) := by
  cases hs : s.stage? i with
  | none => exact .inr (h.arrival i st' (Loop.stage?_eq_none_iff.mp hs) hs')
  | some st =>
    refine .inl ⟨st, rfl, ?_⟩
    by_cases hr : ∀ r, s.resumed? m = some r → r.task ≠ i
    · obtain ⟨st'', hs'', hd⟩ := h.stage i st hs hr
      obtain rfl : st' = st'' := Option.some.inj (hs'.symm.trans hs'')
      exact .inl hd
    · -- the call that was dropped
      simp only [not_forall, Decidable.not_not] at hr
      obtain ⟨r, hr, rfl⟩ := hr
      exact .inr (Option.some.inj (hs'.symm.trans (h.dropped r hr)))

/-- The continuation of a call before a calm step, or that it is new. -/
theorem Calm.continuation_before (h : Calm s m s') {i : TaskId} {c' : Call}
    (hc' : s'.continuation? i = some c') :
    (∃ c, s.continuation? i = some c ∧ Receives c c') ∨
    (i = s.tasks.length ∧ Arrives s m c') := by
  obtain ⟨st', hs', hst'⟩ := Loop.continuation?_eq_some_iff.mp hc'
  rcases h.stage_before hs' with ⟨st, hs, hd | rfl⟩ | ⟨hi, c, harr, rfl⟩
  · obtain ⟨c, hc, hrec⟩ := hd.receives hst'
    exact .inl ⟨c, Loop.continuation?_eq_some_iff.mpr ⟨st, hs, hc⟩, hrec⟩
  · cases hst'
  · cases hst'
    exact .inr ⟨hi, harr⟩

theorem notArrives_of_not_activates {c : Call} (hd : ∀ d, m ≠ .launch d)
    (ha : m.activates s.closed = false) : ¬Arrives s m c := by
  rintro (⟨d, h⟩ | h)
  · exact hd d h
  · rw [ha] at h
    cases h

/-- A move that adds no call, and changes the stages only as calls drift. -/
theorem calm_of_drift (hr : s.resumed? m = none) (hd : ∀ d, m ≠ .launch d)
    (ha : m.activates s.closed = false) (hclosed : s'.closed = s.closed)
    (htracked : s'.tracked = s.tracked) (hlength : s'.tasks.length = s.tasks.length)
    (hstage : ∀ i st, s.stage? i = some st → ∃ st', s'.stage? i = some st' ∧ Drift st st')
    (hmessages : s'.state.chat.messages = s.state.chat.messages)
    (hpending : s'.state.chat.pending = s.state.chat.pending)
    (hingest : s'.state.ingest = m.onIngest s.state.ingest)
    (hinspection : s'.state.inspection = s.state.inspection)
    (hclient : s'.state.client.closed = s.state.client.closed)
    (hlisteners : s'.state.tabs.listeners = s.state.tabs.listeners) : Calm s m s' where
  wake r h := by rw [hr] at h; cases h
  closed := hclosed
  length := Nat.le_of_eq hlength.symm
  messages := hmessages
  pending := hpending
  ingest := hingest
  inspection := by rw [hinspection, ha]; rfl
  client := hclient
  listeners := hlisteners
  stage i st hs _ := hstage i st hs
  dropped r h := by rw [hr] at h; cases h
  arrival i st' hle hs' := by
    rw [← hlength] at hle
    rw [Loop.stage?_eq_none_iff.mpr hle] at hs'
    cases hs'
  arrived c h := absurd h (notArrives_of_not_activates hd ha)
  tracked i hi := .inl (htracked ▸ hi)
  issued h := by rw [ha] at h; cases h

/-- A move that changes the stages only as calls drift, and not the state. -/
theorem calm_of_keeps (hr : s.resumed? m = none) (hd : ∀ d, m ≠ .launch d)
    (hi : m.onIngest = id) (ha : m.activates s.closed = false) (hk : Loop.Keeps s s')
    (hstage : ∀ i st, s.stage? i = some st → ∃ st', s'.stage? i = some st' ∧ Drift st st') :
    Calm s m s' := by
  refine calm_of_drift hr hd ha hk.closed hk.tracked hk.length hstage ?_ ?_ ?_ ?_ ?_ ?_
  any_goals rw [hk.state]
  rw [hi]
  rfl

/-- A move that operates on the state alone. -/
theorem calm_of_update {f : World → World} (hr : s.resumed? m = none) (hd : ∀ d, m ≠ .launch d)
    (ha : m.activates s.closed = false)
    (hmessages : (f s.state).chat.messages = s.state.chat.messages)
    (hpending : (f s.state).chat.pending = s.state.chat.pending)
    (hingest : (f s.state).ingest = m.onIngest s.state.ingest)
    (hinspection : (f s.state).inspection = s.state.inspection)
    (hclient : (f s.state).client.closed = s.state.client.closed)
    (hlisteners : (f s.state).tabs.listeners = s.state.tabs.listeners) :
    Calm s m (s.update f) :=
  calm_of_drift hr hd ha rfl rfl rfl (fun _ st hs => ⟨st, hs, .same st⟩) hmessages hpending hingest
    hinspection hclient hlisteners

/-- A call that a move adds. -/
theorem calm_of_add {name : String} {isTracked : Bool} {c : Call} {w : World}
    (hr : s.resumed? m = none) (hi : m.onIngest = id) (hc : ∀ c', Arrives s m c' ↔ c' = c)
    (htracked : m.activates s.closed = true → isTracked = true)
    (hmessages : w.chat = s.state.chat) (hingest : w.ingest = s.state.ingest)
    (hinspection : w.inspection =
      if m.activates s.closed then s.state.inspection.issue else s.state.inspection)
    (hclient : w.client = s.state.client)
    (hlisteners : w.tabs.listeners = s.state.tabs.listeners) :
    Calm s m (Loop.add name isTracked c { s with state := w }) where
  wake r h := by rw [hr] at h; cases h
  closed := rfl
  length := by simp [Loop.add]
  messages := congrArg Chat.messages hmessages
  pending := congrArg Chat.pending hmessages
  ingest := by rw [hi]; exact hingest
  inspection := hinspection
  client := congrArg Client.closed hclient
  listeners := hlisteners
  stage i st hs _ := by
    refine ⟨st, ?_, .same st⟩
    rw [Loop.stage?_add, if_neg (Nat.ne_of_lt (Loop.lt_of_stage? hs))]
    exact hs
  dropped r h := by rw [hr] at h; cases h
  arrival i st' hle hs' := by
    rw [Loop.stage?_add] at hs'
    split at hs'
    · rename_i hi
      exact ⟨hi, c, (hc c).mpr rfl, (Option.some.inj hs').symm⟩
    · have hnone : s.stage? i = none := Loop.stage?_eq_none_iff.mpr hle
      exact absurd (hnone.symm.trans hs') (by simp)
  arrived c' h := by
    rw [(hc c').mp h, Loop.stage?_add]
    exact if_pos rfl
  tracked i hi := by
    refine .inl ?_
    cases isTracked with
    | false => exact hi
    | true => exact List.mem_append_left _ hi
  issued h := by
    rw [htracked h]
    exact List.mem_append_right _ (List.mem_singleton.mpr rfl)

/-- A turn that runs no call. -/
theorem calm_turn (h : ∀ r, s.resumption? = some r → r.wake = none) :
    Calm s .turn (s.step .turn) := by
  have ha : ∀ c, ¬Arrives s .turn c := fun c =>
    notArrives_of_not_activates (fun d e => by cases e) rfl
  cases hres : s.resumption? with
  | none =>
    have hrest : Loop.Rests s (s.step .turn) := Loop.rests_turned hres
    constructor
    case tracked => exact fun i hi => Loop.mem_tracked_turned hres hi
    case stage =>
      intro i st hs _
      obtain ⟨st', hs', hst⟩ := hrest.stage i st hs
      exact ⟨st', hs', .stirs hst⟩
    case arrival =>
      intro i st' hle hs'
      rw [← hrest.length] at hle
      rw [Loop.stage?_eq_none_iff.mpr hle] at hs'
      cases hs'
    case arrived => exact fun c hc => absurd hc (ha c)
    case dropped => exact fun r hr => by rw [resumed?, hres] at hr; cases hr
    case wake => exact h
    case issued => exact fun e => by cases e
    case closed => exact hrest.closed
    case length => exact Nat.le_of_eq hrest.length.symm
    case ingest => exact congrArg World.ingest hrest.state
    case inspection => exact congrArg World.inspection hrest.state
    all_goals rw [hrest.state]
  | some r =>
    obtain ⟨t, c, w⟩ := r
    obtain rfl : w = none := h _ hres
    have he : s.step .turn = s.popped.finish t .cancelled := Loop.turned_of_drop hres
    have hk : Loop.Keeps s.popped (s.popped.finish t .cancelled) := Loop.keeps_finish _ _ _
    have hlt : t < s.tasks.length := Loop.Resumption.lt hres
    have hstage : ∀ i, (s.step .turn).stage? i =
        if i = t then (s.stage? i).map fun _ => .ended .cancelled else s.stage? i := fun i => by
      rw [he]
      exact Loop.stage?_finish t .cancelled s.popped i
    constructor
    case tracked => exact fun i hi => .inl (by rw [he, hk.tracked]; exact hi)
    case stage =>
      intro i st hs hne
      have hit : i ≠ t := fun e => hne _ hres e.symm
      exact ⟨st, by rw [hstage, if_neg hit, hs], .same st⟩
    case arrival =>
      intro i st' hle hs'
      have hnone : s.stage? i = none := Loop.stage?_eq_none_iff.mpr hle
      rw [hstage, hnone] at hs'
      split at hs' <;> cases hs'
    case arrived => exact fun c hc => absurd hc (ha c)
    case dropped =>
      intro r hr
      obtain rfl : (⟨t, c, none⟩ : Loop.Resumption Call) = r := Option.some.inj (hres.symm.trans hr)
      rw [hstage, if_pos rfl]
      cases hs : s.stage? t with
      | none => exact absurd hlt (Nat.not_lt.mpr (Loop.stage?_eq_none_iff.mp hs))
      | some st => rfl
    case issued => exact fun e => by cases e
    case wake => exact h
    case closed => rw [he]; exact hk.closed
    case length => rw [he, hk.length]; exact Nat.le_refl _
    all_goals rw [he, hk.state]; rfl

/-- A signal to a call that waits for it. -/
theorem drift_signal {f : Call → Call} {t : TaskId}
    (h : ∀ c, s.stage? t = some (.waiting c .signal) →
      Drift (.waiting c .signal) (.queued (f c) true false))
    {i : TaskId} {st : Stage Call Result Failure} (hs : s.stage? i = some st) :
    ∃ st', (s.signal t f).stage? i = some st' ∧ Drift st st' := by
  unfold Loop.signal
  split
  · rename_i c hc
    by_cases hi : i = t
    · subst hi
      rw [hc] at hs
      cases hs
      exact ⟨_, by simp [hc], h c hc⟩
    · exact ⟨st, by simp [hi, hs], .same st⟩
  · exact ⟨st, hs, .same st⟩

theorem step_switch {target : Json.Value} {w : World} {orders : List (Order Call)}
    {trouble : Option SwitchTrouble}
    (h : switchTab s.closed target s.state = (w, orders, trouble)) :
    s.step (.switch target) = orders.foldl Loop.obey { s with state := w } := by
  simp only [step, activate, Loop.perform, Loop.facts, h]

/-- A switch of the tab. -/
theorem calm_switch (hv : s.state.tabs.listeners = [viewer]) (target : Json.Value) :
    Calm s (.switch target) (s.step (.switch target)) := by
  have hd : ∀ d, Move.switch target ≠ .launch d := fun d e => by cases e
  by_cases hc : s.closed = true
  · rw [step_switch (hc ▸ switchTab_shut target s.state)]
    exact calm_of_keeps rfl hd rfl (by simp [Move.activates, hc]) (.refl s)
      fun i st hs => ⟨st, hs, .same st⟩
  · rw [Bool.not_eq_true] at hc
    cases ht : (Choice.ofValue? target : Option Tab) with
    | none =>
      rw [step_switch (hc ▸ switchTab_unknown ht)]
      exact calm_of_keeps rfl hd rfl (by simp [Move.activates, ht]) (.refl s)
        fun i st hs => ⟨st, hs, .same st⟩
    | some tab =>
      by_cases htab : tab = .inspect
      · subst htab
        have ha : (Move.switch target).activates s.closed = true := by
          simp [Move.activates, hc, ht]
        rw [step_switch (hc ▸ switchTab_inspect hv ht)]
        rw [List.foldl_cons, List.foldl_nil, Loop.obey_spawn_open]
        · refine calm_of_add rfl rfl (fun c' => ⟨?_, ?_⟩) (fun _ => rfl) rfl rfl ?_ rfl rfl
          · rintro (⟨d, h⟩ | h)
            · exact absurd h (hd d)
            · rfl
          · rintro rfl
            exact .issued ha
          · rw [if_pos ha]
        · exact hc
      · rw [step_switch (hc ▸ switchTab_other hv ht htab)]
        exact calm_of_update (f := fun w => { w with tabs := { w.tabs with active := tab } }) rfl hd
          (by simp [Move.activates, ht, htab]) rfl rfl rfl rfl rfl rfl

/-- **A step that runs no call is calm.** -/
theorem calm_step (hv : s.state.tabs.listeners = [viewer])
    (h : ∀ r, s.resumed? m = some r → r.wake = none) : Calm s m (s.step m) := by
  cases m with
  | turn => exact calm_turn h
  | switch target => exact calm_switch hv target
  | write text =>
    exact calm_of_update (f := fun w => { w with chat := w.chat.write text }) rfl
      (fun d e => by cases e) rfl rfl rfl rfl rfl rfl rfl
  | acknowledge =>
    exact calm_of_update (f := fun w => { w with ingest := w.ingest.acknowledge }) rfl
      (fun d e => by cases e) rfl rfl rfl rfl rfl rfl rfl
  | launch d =>
    refine calm_of_add (w := s.state) rfl rfl (fun c' => ⟨?_, ?_⟩) (fun e => by cases e) rfl rfl rfl
      rfl rfl
    · rintro (⟨d', h⟩ | h)
      · cases h
        rfl
      · cases h
    · rintro rfl
      exact .launched d rfl
  | revoke t =>
    have hd : ∀ d, Move.revoke t ≠ .launch d := fun d e => by cases e
    show Calm s (.revoke t) (s.revoke t)
    unfold revoke
    split
    · rename_i hrev
      refine calm_of_keeps rfl hd rfl rfl (Loop.keeps_cancel t s) fun i st hs => ?_
      by_cases hi : i = t
      · subst hi
        rw [Loop.continuation?_of_stage? hs] at hrev
        obtain ⟨c, hc, hrev⟩ := (Option.any_eq_true _ _).mp hrev
        exact ⟨st.cancel, by simp [hs], .revoked hc hrev⟩
      · exact ⟨st, by simp [hi, hs], .same st⟩
    · exact calm_of_keeps rfl hd rfl rfl (.refl s) fun i st hs => ⟨st, hs, .same st⟩
  | answer t r =>
    have hd : ∀ d, Move.answer t r ≠ .launch d := fun d e => by cases e
    show Calm s (.answer t r) (s.answer t r)
    unfold answer
    split
    · rename_i hshown
      refine calm_of_keeps rfl hd rfl rfl (Loop.keeps_signal _ _ s) fun i st hs =>
        drift_signal (fun c hc => .answered r ?_) hs
      simpa [Loop.shown?, Loop.continuation?_of_stage? hc] using hshown
    · exact calm_of_keeps rfl hd rfl rfl (.refl s) fun i st hs => ⟨st, hs, .same st⟩
  | read t selected =>
    have hd : ∀ d, Move.read t selected ≠ .launch d := fun d e => by cases e
    show Calm s (.read t selected) (s.deliver t selected)
    unfold deliver
    split
    · rename_i hshown
      refine calm_of_keeps rfl hd rfl rfl (Loop.keeps_signal _ _ s) fun i st hs =>
        drift_signal (fun c hc => .delivered selected ?_) hs
      simpa [Loop.shown?, Loop.continuation?_of_stage? hc] using hshown
    · exact calm_of_keeps rfl hd rfl rfl (.refl s) fun i st hs => ⟨st, hs, .same st⟩
  | wait ticks =>
    exact calm_of_drift rfl (fun d e => by cases e) rfl rfl rfl rfl
      (fun i st hs => ⟨st, hs, .same st⟩) rfl rfl rfl rfl rfl rfl
  | prepare e p =>
    exact calm_of_update (f := fun w => { w with client := w.client.prepare e p }) rfl
      (fun d e => by cases e) rfl rfl rfl rfl rfl rfl rfl
  | holdReads held =>
    exact calm_of_update (f := fun w => { w with readsHeld := held }) rfl
      (fun d e => by cases e) rfl rfl rfl rfl rfl rfl rfl

/-- **A step is calm or runs a call.** -/
theorem calm_or_run (hv : s.state.tabs.listeners = [viewer]) (m : Move) :
    Calm s m (s.step m) ∨
      m = .turn ∧ ∃ t c wake, s.resumption? = some ⟨t, c, some wake⟩ := by
  by_cases h : ∀ r, s.resumed? m = some r → r.wake = none
  · exact .inl (calm_step hv h)
  · simp only [not_forall] at h
    obtain ⟨⟨t, c, w⟩, hr, hw⟩ := h
    cases m with
    | turn =>
      cases w with
      | none => exact absurd rfl hw
      | some wake => exact .inr ⟨rfl, t, c, wake, hr⟩
    | _ => cases hr

end Calm

/-! ## 3. Steps that run a call -/

section Run

variable {s : Session} {t : TaskId} {c : Call} {wake : Wake}
  (h : s.resumption? = some ⟨t, c, some wake⟩)

include h

theorem state_of_run : (s.step .turn).state = (behaviour s.facts c wake s.state).state :=
  Loop.state_turned_of_run h

theorem closed_of_run : (s.step .turn).closed = true ↔
    s.closed = true ∨ .seal ∈ (behaviour s.facts c wake s.state).orders :=
  Loop.closed_turned_of_run h

theorem continuation?_of_run : (s.step .turn).continuation? t =
    (behaviour s.facts c wake s.state).next.continuation? :=
  Loop.continuation?_turned_self h

end Run

/-! ## 4. What the user changes -/

/-- What a move that runs no call does to the state: the user operates on it. -/
def Move.onState (closed : Bool) : Move → World → World
  | .switch target, w => (switchTab closed target w).1
  | .write text, w => { w with chat := w.chat.write text }
  | .acknowledge, w => { w with ingest := w.ingest.acknowledge }
  | .prepare e p, w => { w with client := w.client.prepare e p }
  | .holdReads held, w => { w with readsHeld := held }
  | _, w => w

theorem state_revoke (t : TaskId) (s : Session) : (s.revoke t).state = s.state := by
  unfold revoke
  split
  · exact (Loop.keeps_cancel t s).state
  · rfl

theorem state_answer (t : TaskId) (r : Reply) (s : Session) : (s.answer t r).state = s.state := by
  unfold answer
  split
  · exact (Loop.keeps_signal t _ s).state
  · rfl

theorem state_deliver (t : TaskId) (selected : Selected) (s : Session) :
    (s.deliver t selected).state = s.state := by
  unfold deliver
  split
  · exact (Loop.keeps_signal t _ s).state
  · rfl

/-- **A calm step changes the state as the user operates on it.** -/
theorem Calm.state {s s' : Session} {m : Move} (h : Calm s m s') :
    (s.step m).state = m.onState s.closed s.state := by
  cases m with
  | turn =>
    cases hr : s.resumption? with
    | none => exact (Loop.rests_turned hr).state
    | some r =>
      obtain ⟨t, c, w⟩ := r
      obtain rfl : w = none := h.wake _ hr
      rw [step_turn, Loop.turned_of_drop hr, (Loop.keeps_finish _ _ _).state]
      rfl
  | switch target => exact Loop.state_foldl_obey _ _
  | revoke t => exact state_revoke t s
  | answer t r => exact state_answer t r s
  | read t selected => exact state_deliver t selected s
  | _ => rfl

/-- The user changes the tabs by a switch in a session that is not closed, and not otherwise. -/
theorem Move.tabs_onState {closed : Bool} {m : Move} (w : World)
    (h : closed = true ∨ ∀ target, m ≠ .switch target) : (m.onState closed w).tabs = w.tabs := by
  cases m with
  | switch target =>
    obtain rfl := h.resolve_right fun hne => hne target rfl
    rfl
  | _ => rfl

end CodeSession.Session
