import CodeSession.Proofs.Session.Steps

/-!
# What holds of every session

The invariant of all runs (`Tidy`) and that every step keeps it (`tidy_step`, `tidy_play`).

* each call stands where it can stand as far as it has come (`Placed`);
* while the session is open, its background calls are tracked, and no fetch is cancelled;
* once it is closed, every background call has been cancelled;
* the return to the chat that is noted is one.
-/

namespace CodeSession

/-- What a waiting task paused for, but for numbers. -/
def Wait.pause : Wait → Pause
  | .timer _ _ => .sleep none
  | .signal => .signal
  | .tasks _ => .tasks []

namespace Session

open Backend Folder

/-! ## 1. Where calls stand -/

namespace Call

/-- A call that waits for a time or for others does not wait for a signal. -/
theorem mayPause_signal {c : Call} {p : Pause} (h : c.mayPause p = true) (hp : p ≠ .signal) :
    c.mayPause .signal = false := by
  cases c with
  | sending x => cases p <;> first | cases h | exact absurd rfl hp
  | uploading x => cases p <;> first | cases h | exact absurd rfl hp
  | fetching number x => cases p <;> first | cases h | exact absurd rfl hp
  | reading path held read => cases p <;> first | cases h | exact absurd rfl hp
  | _ => rfl

theorem mayPause_take {c : Call} (r : Reply) (h : c.request?.isSome = true) :
    (c.take r).isUnderWay = true ∧ (c.take r).mayPause .signal = false := by
  cases c with
  | sending x => exact ⟨rfl, rfl⟩
  | uploading x => exact ⟨rfl, rfl⟩
  | fetching number x => exact ⟨rfl, rfl⟩
  | _ => cases h

theorem mayPause_takeFiles {c : Call} (selected : Selected) (h : c.path?.isSome = true) :
    (c.takeFiles selected).isUnderWay = true ∧ (c.takeFiles selected).mayPause .signal = false := by
  cases c with
  | reading path held read => exact ⟨rfl, rfl⟩
  | _ => cases h

theorem isBackground_of_isRevocable {c : Call} (h : c.isRevocable = true) :
    c.kind.isBackground = false := by
  cases c <;> first | rfl | cases h

end Call

/-- Whether a call may stand at a stage: it is queued as one that has begun or not, with what it
    waited for, or waits for what it can wait for. -/
def Placed : Stage Call Result Failure → Prop
  | .queued c false _ => c.isFresh = true
  | .queued c true true => c.isUnderWay = true
  | .queued c true false => c.isUnderWay = true ∧ c.mayPause .signal = false
  | .waiting c v => c.mayPause v.pause = true
  | .ended _ => True

theorem placed_paused {c : Call} {p : Pause} (h : c.mayPause p = true) (s : Session) :
    Placed (s.paused p c) := by
  unfold Loop.paused
  split
  · exact ⟨Call.isUnderWay_of_mayPause h, Call.mayPause_signal h (fun e => by cases e)⟩
  · exact ⟨Call.isUnderWay_of_mayPause h, Call.mayPause_signal h (fun e => by cases e)⟩
  · exact h
  · exact h
  · exact h
  · exact h

theorem placed_after {c : Call} {n : Next Call Result Failure}
    (h : ∀ p c', n = .pause p c' → c'.kind = c.kind ∧ c'.mayPause p = true) (s : Session) :
    Placed (s.after n) := by
  cases n with
  | pause p c' => exact placed_paused (h p c' rfl).2 s
  | finish e => trivial

theorem Placed.cancel {st : Stage Call Result Failure} (h : Placed st) : Placed st.cancel := by
  cases st with
  | queued c begun cancelled =>
    cases begun with
    | false => exact h
    | true =>
      cases cancelled with
      | true => exact h
      | false => exact And.left h
  | waiting c v => exact Call.isUnderWay_of_mayPause h
  | ended e => trivial

theorem Placed.drift {st st' : Stage Call Result Failure} (h : Placed st) (hd : Drift st st') :
    Placed st' := by
  cases hd with
  | stirs hst =>
    cases hst with
    | same => exact h
    | woken c v hv =>
      refine ⟨Call.isUnderWay_of_mayPause h, Call.mayPause_signal h ?_⟩
      cases v with
      | signal => exact absurd rfl hv
      | _ => exact fun e => by cases e
    | counted c m n => exact h
  | revoked _ _ => exact h.cancel
  | answered r hc => exact Call.mayPause_take r hc
  | delivered selected hc => exact Call.mayPause_takeFiles selected hc

theorem Arrives.isFresh {s : Session} {m : Move} {c : Call} (h : Arrives s m c) :
    c.isFresh = true := by
  cases h with
  | launched d h => cases d <;> rfl
  | issued h => rfl

/-! ## 2. The invariant -/

/-- What holds of a session after every run. -/
structure Tidy (s : Session) : Prop where
  listeners : s.state.tabs.listeners = [viewer]
  lined : Loop.Lined s
  placed : ∀ t st, s.stage? t = some st → Placed st
  closing : ∀ t, s.continuation? t = some .closing → s.closed = true
  tracked : s.closed = false → ∀ t c, s.continuation? t = some c → c.kind.isBackground = true →
    t ∈ s.tracked
  doomed : s.closed = true → ∀ t c, s.continuation? t = some c → c.kind.isBackground = true →
    ∃ begun, s.stage? t = some (.queued c begun true)
  spared : s.closed = false → ∀ t c begun number,
    s.stage? t = some (.queued c begun true) → c.kind ≠ .fetch number
  navigation : ∀ t, s.state.ingest.navigation = some t →
    t < s.tasks.length ∧ ∀ c, s.continuation? t = some c → c.kind = .navigation

theorem tidy_opened (client : Client) (delay : Binary64) (greeting : Option String)
    (files : FileSystem) : Tidy (opened client delay greeting files) where
  listeners := rfl
  lined := ⟨fun t k b c h => by simp [opened, Loop.start, Loop.stage?] at h,
    fun t h => absurd h List.not_mem_nil⟩
  placed t st h := by simp [opened, Loop.start, Loop.stage?] at h
  closing t h := by simp [opened, Loop.start, Loop.continuation?, Loop.stage?] at h
  tracked _ t c h := by simp [opened, Loop.start, Loop.continuation?, Loop.stage?] at h
  doomed h := by cases h
  spared _ t c b n h := by simp [opened, Loop.start, Loop.stage?] at h
  navigation t h := by cases h

variable {s : Session} {m : Move}

/-- In a tidy session every run of a call is tame. -/
theorem Tidy.tame (ht : Tidy s) (c : Call) (wake : Wake) :
    Tame s.facts c s.state (behaviour s.facts c wake s.state) :=
  tame_behaviour c wake ht.listeners

theorem lined_step (h : Loop.Lined s) (m : Move) : Loop.Lined (s.step m) := by
  cases m with
  | turn => exact h.turned behaviour
  | switch target =>
    exact h.orderly (Loop.orderly_perform
      (fun facts w => ((switchTab facts.closed target w).1, (switchTab facts.closed target w).2.1)) s)
  | launch d => exact h.orderly (Loop.orderly_add _ _ _ s)
  | revoke t =>
    show Loop.Lined (s.revoke t)
    unfold revoke
    split
    · exact h.orderly (Loop.orderly_cancel t s)
    · exact h
  | answer t r =>
    show Loop.Lined (s.answer t r)
    unfold answer
    split
    · exact h.orderly (Loop.orderly_signal t _ s)
    · exact h
  | read t selected =>
    show Loop.Lined (s.deliver t selected)
    unfold deliver
    split
    · exact h.orderly (Loop.orderly_signal t _ s)
    · exact h
  | wait ticks => exact h.orderly (Loop.orderly_fireAt _ s)
  | _ => exact h.orderly (.of_tasks_eq rfl rfl)

/-! ## 3. Calm steps -/

theorem Arrives.kind {c : Call} (h : Arrives s m c) (hb : c.kind.isBackground = true) :
    m.activates s.closed = true := by
  cases h with
  | launched d h => cases d <;> cases hb
  | issued h => exact h

theorem not_activates_of_closed (h : s.closed = true) (m : Move) : m.activates s.closed = false := by
  cases m <;> simp [Move.activates, h]

theorem Tidy.calm {s' : Session} (ht : Tidy s) (h : Calm s m s') (hl : Loop.Lined s') : Tidy s' where
  listeners := h.listeners.trans ht.listeners
  lined := hl
  placed i st' hs' := by
    rcases h.stage_before hs' with ⟨st, hs, hd | rfl⟩ | ⟨_, c, harr, rfl⟩
    · exact (ht.placed i st hs).drift hd
    · trivial
    · exact harr.isFresh
  closing i hc' := by
    rw [h.closed]
    rcases h.continuation_before hc' with ⟨c, hc, hrec⟩ | ⟨_, harr⟩
    · exact ht.closing i (hrec.closing ▸ hc)
    · cases harr.isFresh
  tracked hopen i c' hc' hb := by
    rw [h.closed] at hopen
    rcases h.continuation_before hc' with ⟨c, hc, hrec⟩ | ⟨hi, harr⟩
    · rw [hrec.kind] at hb
      refine (h.tracked i (ht.tracked hopen i c hc hb)).resolve_right fun hsettled => ?_
      -- a call whose end is yet to be settled has ended
      obtain ⟨e, he⟩ := ht.lined.settled i hsettled
      rw [Loop.continuation?_of_stage? he] at hc
      cases hc
    · exact hi ▸ h.issued (harr.kind hb)
  doomed hclosed i c' hc' hb := by
    rw [h.closed] at hclosed
    rcases h.continuation_before hc' with ⟨c, hc, hrec⟩ | ⟨_, harr⟩
    · rw [hrec.kind] at hb
      obtain ⟨begun, hs⟩ := ht.doomed hclosed i c hc hb
      obtain ⟨st', hs', hst'⟩ := Loop.continuation?_eq_some_iff.mp hc'
      rcases h.stage_before hs' with ⟨st, hs'', hd | rfl⟩ | ⟨hi, _⟩
      · obtain rfl : st = .queued c begun true := Option.some.inj (hs''.symm.trans hs)
        have hst : st' = .queued c begun true := by
          cases hd with
          | stirs hst => cases hst; rfl
          | revoked _ _ => rfl
        subst hst
        cases hst'
        exact ⟨begun, hs'⟩
      · cases hst'
      · exact absurd (Loop.lt_of_stage? hs) (hi ▸ Nat.lt_irrefl _)
    · have ha := harr.kind hb
      rw [not_activates_of_closed hclosed m] at ha
      cases ha
  spared hopen i c' begun number hs' := by
    rw [h.closed] at hopen
    rcases h.stage_before hs' with ⟨st, hs, hd | he⟩ | ⟨_, c, _, he⟩
    · generalize hst' : Stage.queued c' begun true = st' at hd
      cases hd with
      | stirs hst =>
        cases hst with
        | same => exact ht.spared hopen i c' begun number (hst' ▸ hs)
        | woken c v hv => cases hst'
        | counted c m n => cases hst'
      | revoked hc hrev =>
        intro hk
        have hc' : st.continuation? = some c' := by
          rw [← Stage.continuation?_cancel, ← hst', Stage.continuation?_queued]
        obtain rfl := Option.some.inj (hc.symm.trans hc')
        have hb := Call.isBackground_of_isRevocable hrev
        rw [hk] at hb
        cases hb
      | answered r hc => cases hst'
      | delivered selected hc => cases hst'
    · cases he
    · cases he
  navigation i hn := by
    have hold : s.state.ingest.navigation = some i := by
      rw [h.ingest] at hn
      cases m with
      | acknowledge =>
        have hack : s.state.ingest.acknowledge.navigation = s.state.ingest.navigation := by
          unfold Ingest.acknowledge
          split <;> rfl
        exact hack ▸ hn
      | _ => exact hn
    obtain ⟨hlt, hk⟩ := ht.navigation i hold
    refine ⟨Nat.lt_of_lt_of_le hlt h.length, fun c' hc' => ?_⟩
    rcases h.continuation_before hc' with ⟨c, hc, hrec⟩ | ⟨hi, _⟩
    · exact hrec.kind.trans (hk c hc)
    · exact absurd hlt (hi ▸ Nat.lt_irrefl _)

section Shown

variable {α : Type} {show? : Call → Option α} {s' : Session} {i : TaskId}

/-- What no reply changes does not change in a calm step, unless the call is dropped. -/
theorem Calm.shown_of_lt (h : Calm s m s') (hsteady : Steady show?) (hi : i < s.tasks.length)
    (hr : ∀ r, s.resumed? m = some r → r.task ≠ i) : s'.shown? show? i = s.shown? show? i := by
  cases hs : s.stage? i with
  | none => exact absurd hi (Nat.not_lt.mpr (Loop.stage?_eq_none_iff.mp hs))
  | some st =>
    obtain ⟨st', hs', hd⟩ := h.stage i st hs hr
    rw [Loop.shown?_of_stage? hs', Loop.shown?_of_stage? hs, hd.shown hsteady]

/-- A call that a calm step adds shows what it shows. -/
theorem Calm.shown_of_le (h : Calm s m s') (hi : s.tasks.length ≤ i)
    (hnone : ∀ c, Arrives s m c → show? c = none) : s'.shown? show? i = s.shown? show? i := by
  have hold : s.shown? show? i = none := by
    simp [Loop.shown?, Loop.continuation?, Loop.stage?_eq_none_iff.mpr hi]
  rw [hold]
  cases hs' : s'.stage? i with
  | none => simp [Loop.shown?, Loop.continuation?, hs']
  | some st' =>
    obtain ⟨_, c, harr, rfl⟩ := h.arrival i st' hi hs'
    simp [Loop.shown?_of_stage? hs', hnone c harr]

/-- A call that is dropped has not begun. -/
theorem Tidy.isFresh_of_dropped (ht : Tidy s) {r : Loop.Resumption Call}
    (hr : s.resumed? m = some r) (hw : r.wake = none) : r.continuation.isFresh = true := by
  cases m with
  | turn =>
    obtain ⟨_, begun, cancelled, hq, hw'⟩ := Loop.resumption?_eq_some_iff.mp hr
    obtain rfl : begun = false := by
      cases begun with
      | false => rfl
      | true => rw [hw'] at hw; cases cancelled <;> cases hw
    exact ht.placed _ _ hq
  | _ => cases hr

/-- What no call shows before it begins, and no reply changes, does not change in a calm step. -/
theorem Tidy.shown_calm (ht : Tidy s) (h : Calm s m s') (hsteady : Steady show?)
    (hfresh : ∀ c, c.isFresh = true → show? c = none) (i : TaskId) :
    s'.shown? show? i = s.shown? show? i := by
  by_cases hi : i < s.tasks.length
  · by_cases hr : ∀ r, s.resumed? m = some r → r.task ≠ i
    · exact h.shown_of_lt hsteady hi hr
    · simp only [not_forall, Decidable.not_not] at hr
      obtain ⟨r, hr, rfl⟩ := hr
      have hf := hfresh _ (ht.isFresh_of_dropped hr (h.wake r hr))
      rw [Loop.shown?_of_stage? (h.dropped r hr), Loop.shown?, continuation?_of_resumed? hr]
      exact hf.symm
  · exact h.shown_of_le (Nat.le_of_not_lt hi) fun c hc => hfresh c hc.isFresh

end Shown

/-! ## 4. Runs of calls -/

section Runs

variable {t : TaskId} {c : Call} {wake : Wake}

/-- The continuation of a call before a run of a call, or that it is the call that ran, or new. -/
theorem continuation_before_run (h : s.resumption? = some ⟨t, c, some wake⟩) {i : TaskId} {c' : Call}
    (hc' : (s.step .turn).continuation? i = some c') :
    (i = t ∧ ∃ p, (behaviour s.facts c wake s.state).next = .pause p c') ∨
    (i ≠ t ∧ s.continuation? i = some c') ∨
    (s.tasks.length ≤ i ∧ s.closed = false ∧
      ∃ name, .spawn name c' ∈ (behaviour s.facts c wake s.state).orders) := by
  obtain ⟨st', hs', hst'⟩ := Loop.continuation?_eq_some_iff.mp hc'
  rcases Loop.stage?_turned_of_run h hs' with ⟨rfl, he⟩ | ⟨hit, st, hs, ⟨_, he⟩ | ⟨_, he⟩⟩ |
    ⟨hle, hopen, name, k, x, hspawn, he⟩
  · refine .inl ⟨rfl, ?_⟩
    rw [he] at hst'
    exact Loop.exists_pause_of_after hst'
  · refine .inr (.inl ⟨hit, Loop.continuation?_eq_some_iff.mpr ⟨st, hs, ?_⟩⟩)
    rw [he, Stage.continuation?_cancel] at hst'
    exact hst'
  · exact .inr (.inl ⟨hit, Loop.continuation?_eq_some_iff.mpr ⟨st, hs, he ▸ hst'⟩⟩)
  · subst he
    cases hst'
    exact .inr (.inr ⟨hle, hopen, name, hspawn⟩)

theorem Tidy.run (ht : Tidy s) (h : s.resumption? = some ⟨t, c, some wake⟩) :
    Tidy (s.step .turn) := by
  have hlt : t < s.tasks.length := Loop.Resumption.lt h
  have hc : s.continuation? t = some c := Loop.Resumption.continuation?_eq h
  have tame := ht.tame c wake
  have hstate := state_of_run h
  have hclosed := closed_of_run h
  have hlength : s.tasks.length ≤ (s.step .turn).tasks.length := Loop.length_le_turned_of_run h
  have hopened : (s.step .turn).closed = false → s.closed = false ∧
      .seal ∉ (behaviour s.facts c wake s.state).orders := by
    intro hopen
    rw [← Bool.not_eq_true, hclosed, not_or, Bool.not_eq_true] at hopen
    exact hopen
  -- the call that is resumed was cancelled only if it is woken so
  have hwake : ∀ begun cancelled, s.stage? t = some (.queued c begun cancelled) →
      cancelled = true → wake = .cancelled := by
    intro begun cancelled hs hx
    obtain ⟨_, b, x, hs', hw⟩ := Loop.resumption?_eq_some_iff.mp h
    obtain ⟨rfl, rfl⟩ : begun = b ∧ cancelled = x := by
      have := Option.some.inj (hs.symm.trans hs')
      cases this
      exact ⟨rfl, rfl⟩
    subst hx
    cases begun with
    | true => exact Option.some.inj hw
    | false => cases hw
  constructor
  case listeners => rw [hstate, tame.listeners, ht.listeners]
  case lined => exact lined_step ht.lined .turn
  case placed =>
    intro i st' hs'
    rcases Loop.stage?_turned_of_run h hs' with ⟨rfl, he⟩ | ⟨_, st, hs, ⟨_, rfl⟩ | ⟨_, rfl⟩⟩ |
      ⟨_, _, name, k, x, hspawn, rfl⟩
    · rw [he]
      exact placed_after tame.kind _
    · exact (ht.placed i st hs).cancel
    · exact ht.placed i _ hs
    · rw [tame.spawns name k hspawn]
      rfl
  case closing =>
    intro i hi
    rw [hclosed]
    rcases continuation_before_run h hi with ⟨rfl, p, hn⟩ | ⟨_, hi⟩ | ⟨_, _, name, hspawn⟩
    · exact .inr (tame.closes p hn)
    · exact .inl (ht.closing i hi)
    · cases tame.spawns name _ hspawn
  case tracked =>
    intro hopen i c' hi hb
    obtain ⟨hopen, hseal⟩ := hopened hopen
    have hforget : .forget ∉ (behaviour s.facts c wake s.state).orders := by
      intro hf
      rcases tame.forgets hf with hs | rfl
      · exact hseal hs
      · rw [ht.closing t hc] at hopen
        cases hopen
    refine Loop.mem_tracked_turned_of_run h hforget ?_
    rcases continuation_before_run h hi with ⟨rfl, p, hn⟩ | ⟨_, hi⟩ | ⟨hle, _⟩
    · rw [(tame.kind p c' hn).1] at hb
      exact .inl (ht.tracked hopen i c hc hb)
    · exact .inl (ht.tracked hopen i c' hi hb)
    · exact .inr ⟨hle, Loop.lt_of_continuation? hi⟩
  case doomed =>
    intro hclosed' i c' hi hb
    obtain ⟨st', hs', hst'⟩ := Loop.continuation?_eq_some_iff.mp hi
    rcases Loop.stage?_turned_of_run h hs' with ⟨rfl, he⟩ | ⟨hit, st, hs, hst⟩ |
      ⟨_, hopen, name, k, x, hspawn, rfl⟩
    · -- a background call that runs in a closed session ends, and closing is none
      rcases continuation_before_run h hi with ⟨_, p, hn⟩ | ⟨hne, _⟩ | ⟨hle, _⟩
      · have hk := (tame.kind p c' hn).1
        rw [hk] at hb
        rcases hclosed.mp hclosed' with hclosed | hseal
        · obtain ⟨begun, hs⟩ := ht.doomed hclosed i c hc hb
          obtain rfl := hwake begun true hs rfl
          cases hn
        · rw [(tame.seals hseal).1] at hb
          cases hb
      · exact absurd rfl hne
      · exact absurd hlt (Nat.not_lt.mpr hle)
    · have hcont : s.continuation? i = some c' := by
        rcases hst with ⟨_, rfl⟩ | ⟨_, rfl⟩
        · rw [Loop.continuation?_of_stage? hs, ← Stage.continuation?_cancel]
          exact hst'
        · rw [Loop.continuation?_of_stage? hs]
          exact hst'
      rcases hclosed.mp hclosed' with hclosed | hseal
      · obtain ⟨begun, hs''⟩ := ht.doomed hclosed i c' hcont hb
        obtain rfl := Option.some.inj (hs.symm.trans hs'')
        rcases hst with ⟨_, rfl⟩ | ⟨_, rfl⟩
        · exact ⟨begun, hs'⟩
        · exact ⟨begun, hs'⟩
      · -- what is tracked when the session is closed is cancelled
        obtain ⟨_, hopen, hall, _⟩ := tame.seals hseal
        have hmem := hall i (ht.tracked hopen i c' hcont hb)
        rcases hst with ⟨_, rfl⟩ | ⟨hno, _⟩
        · cases st with
          | queued k begun x =>
            cases hst'
            exact ⟨begun, hs'⟩
          | waiting k v =>
            cases hst'
            exact ⟨true, hs'⟩
          | ended e => cases hst'
        · exact absurd hmem hno
    · rcases hclosed.mp hclosed' with hclosed | hseal
      · rw [hclosed] at hopen
        cases hopen
      · exact absurd hspawn ((tame.seals hseal).2.2.2 name k)
  case spared =>
    intro hopen i c' begun number hs'
    obtain ⟨hopen, hseal⟩ := hopened hopen
    rcases Loop.stage?_turned_of_run h hs' with ⟨rfl, he⟩ | ⟨hit, st, hs, ⟨hmem, he⟩ | ⟨_, he⟩⟩ |
      ⟨_, _, name, k, x, hspawn, he⟩
    · -- no run leaves its own call cancelled
      cases Loop.eq_false_of_after he.symm
    · have hn : s.state.ingest.navigation = some i := (tame.cancels i hmem).resolve_right hseal
      have hcont : s.continuation? i = some c' := by
        rw [Loop.continuation?_of_stage? hs, ← Stage.continuation?_cancel, ← he]
        rfl
      rw [(ht.navigation i hn).2 c' hcont]
      exact fun e => by cases e
    · exact ht.spared hopen i c' begun number (he ▸ hs)
    · cases he
      rw [tame.spawns name _ hspawn]
      exact fun e => by cases e
  case navigation =>
    intro i hn
    rw [hstate] at hn
    rcases tame.navigation i hn with hold | ⟨hopen, rfl, name, k, hspawn⟩
    · obtain ⟨hi, hk⟩ := ht.navigation i hold
      refine ⟨Nat.lt_of_lt_of_le hi hlength, fun c' hc' => ?_⟩
      rcases continuation_before_run h hc' with ⟨rfl, p, hn⟩ | ⟨_, hc'⟩ | ⟨hle, _⟩
      · rw [(tame.kind p c' hn).1]
        exact hk c hc
      · exact hk c' hc'
      · exact absurd hi (Nat.not_lt.mpr hle)
    · have hseal : .seal ∉ (behaviour s.facts c wake s.state).orders := fun hs =>
        (tame.seals hs).2.2.2 name k hspawn
      refine ⟨?_, fun c' hc' => ?_⟩
      · rw [step_turn, Loop.turned_of_run h, Loop.runTask_eq,
          (Loop.keeps_goOn _ _ _).length]
        exact Loop.length_lt_foldl_obey
          (l := { s.popped with state := (behaviour s.popped.facts c wake s.popped.state).state })
          hopen hspawn hseal
      · rcases continuation_before_run h hc' with ⟨hi, _⟩ | ⟨_, hc'⟩ | ⟨_, _, name, hspawn⟩
        · exact absurd hlt (hi ▸ Nat.lt_irrefl s.tasks.length)
        · exact absurd (Loop.lt_of_continuation? hc') (Nat.lt_irrefl s.tasks.length)
        · rw [tame.spawns name c' hspawn]
          rfl

end Runs

/-! ## 5. Every step -/

/-- **Every step keeps a session tidy.** -/
theorem tidy_step (ht : Tidy s) (m : Move) : Tidy (s.step m) := by
  rcases calm_or_run ht.listeners m with h | ⟨rfl, t, c, wake, h⟩
  · exact ht.calm h (lined_step ht.lined m)
  · exact ht.run h

/-- A closed session stays closed. -/
theorem closed_step (ht : Tidy s) (m : Move) (h : s.closed = true) : (s.step m).closed = true := by
  rcases calm_or_run ht.listeners m with hc | ⟨rfl, t, c, wake, hrun⟩
  · rw [hc.closed, h]
  · exact (closed_of_run hrun).mpr (.inl h)

/-- **Every session is tidy.** -/
theorem tidy_play (client : Client) (delay : Binary64) (greeting : Option String)
    (files : FileSystem) (ms : List Move) : Tidy ((opened client delay greeting files).play ms) :=
  play_induction (tidy_opened client delay greeting files) (fun _ m h => tidy_step h m) ms

end Session

end CodeSession
