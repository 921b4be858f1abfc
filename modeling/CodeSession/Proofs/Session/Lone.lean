import CodeSession.Proofs.Loop.Apart
import CodeSession.Proofs.Session.Tidy

/-!
# Calls that stand alone

A call that the user launches is known to nothing but itself: it is not tracked, no other call waits
for it, it is not the return to the chat that is noted. So no other call cancels it, and none is
concerned with its end.

* `cancels_behaviour`, `watches_behaviour` -- calls are concerned with the return to the chat that is
  noted and with what is tracked;
* `Lone`, `lone_play` -- a call with files or a folder stands alone, from its launch on;
* `Reaches`, `Lone.reaches` -- nothing moves it but its own runs and what reaches it from outside.
-/

namespace CodeSession.Session

open Backend Folder

variable {facts : Facts} {w : World} {c : Call} {wake : Wake}

/-! ## 1. What calls are concerned with -/

/-- A run of a call that closes the session is the one that begins to close it. -/
theorem behaviour_of_seal (hv : w.tabs.listeners = [viewer])
    (h : .seal ∈ (behaviour facts c wake w).orders) :
    behaviour facts c wake w = beginClose facts w := by
  obtain ⟨rfl, _⟩ := (tame_behaviour c wake hv).seals h
  cases wake with
  | go => rfl
  | cancelled => cases h

/-- **Calls cancel nothing but the return to the chat that is noted and what is tracked.** -/
theorem cancels_behaviour (hv : w.tabs.listeners = [viewer]) {t : TaskId}
    (h : .cancel t ∈ (behaviour facts c wake w).orders) :
    w.ingest.navigation = some t ∨ t ∈ facts.tracked := by
  refine ((tame_behaviour c wake hv).cancels t h).imp_right fun hseal => ?_
  have hclose : ∀ o ∈ Tracking.closeOrders (κ := Call) facts, o = .cancel t → t ∈ facts.tracked := by
    rintro o ho rfl
    simpa [Tracking.closeOrders] using ho
  rw [behaviour_of_seal hv hseal] at h
  unfold beginClose at h
  split at h
  · cases h
  · dsimp only at h
    split at h
    · rcases List.mem_append.mp h with h | h
      · exact hclose _ h rfl
      · cases List.mem_singleton.mp h
    · exact hclose _ h rfl

/-- A call with files or a folder waits for nothing but signals. -/
theorem Call.pause_of_upload {p : Pause} (hk : c.kind = .upload) (hp : c.mayPause p = true) :
    p = .signal := by
  cases p with
  | signal => rfl
  | _ => cases c <;> simp_all [Call.kind, Call.mayPause]

/-- **Calls wait for no others but all that are tracked.** -/
theorem watches_behaviour (hv : w.tabs.listeners = [viewer]) {ids : List TaskId} {c' : Call}
    (h : (behaviour facts c wake w).next = .pause (.tasks ids) c') : ids = facts.tracked := by
  obtain ⟨hkind, hpause⟩ := (tame_behaviour c wake hv).kind _ c' h
  cases wake with
  | cancelled => cases h
  | go =>
    cases c with
    | idle =>
      have hidle : Tracking.idle facts Call.idle (none : Result) = .pause (.tasks ids) c' := h
      unfold Tracking.idle at hidle
      split at hidle <;> cases hidle
      rfl
    | close =>
      have hclose : (beginClose facts w).next = .pause (.tasks ids) c' := h
      unfold beginClose at hclose
      split at hclose
      · cases hclose
      · dsimp only at hclose
        split at hclose <;> cases hclose
        rfl
    | closing => cases h
    | _ => cases c' <;> simp_all [Call.kind, Call.mayPause]

/-! ## 2. Sessions know of no calls but their own -/

theorem perform_switch (target : Json.Value) (s : Session) :
    s.step (.switch target) = (switchTab s.closed target s.state).2.1.foldl Loop.obey
      { s with state := (switchTab s.closed target s.state).1 } := rfl

/-- **Every step leaves nothing known of calls that do not exist.** -/
theorem scoped_step {s : Session} (h : Loop.Scoped s) (m : Move) : Loop.Scoped (s.step m) := by
  cases m with
  | turn => exact h.turned behaviour
  | switch target => exact (h.reset _).obeyed _
  | launch d => exact h.added "" false d.call
  | revoke t =>
    show Loop.Scoped (s.revoke t)
    unfold revoke
    split
    · exact h.cancelled t
    · exact h
  | answer t r =>
    show Loop.Scoped (s.answer t r)
    unfold answer
    split
    · exact h.signalled t _
    · exact h
  | read t selected =>
    show Loop.Scoped (s.deliver t selected)
    unfold deliver
    split
    · exact h.signalled t _
    · exact h
  | wait ticks => exact h.fired _
  | _ => exact h.reset _

theorem scoped_play (client : Client) (delay : Binary64) (greeting : Option String)
    (files : FileSystem) (ms : List Move) :
    Loop.Scoped ((opened client delay greeting files).play ms) :=
  play_induction (Loop.scoped_start _) (fun _ m h => scoped_step h m) ms

/-! ## 3. A call that stands alone -/

/-- A call with files or a folder that nothing else knows of. -/
structure Lone (t : TaskId) (s : Session) : Prop where
  tidy : Tidy s
  apart : Loop.Apart t s
  kind : ∀ c, s.continuation? t = some c → c.kind = .upload
  navigation : s.state.ingest.navigation ≠ some t

section Lone

variable {s : Session} {m : Move} {t u : TaskId}

/-- A call that is launched with files or a folder stands alone. -/
theorem lone_launch (ht : Tidy s) (hs : Loop.Scoped s) {d : Demand} (hd : d.call.kind = .upload) :
    Lone s.tasks.length (s.step (.launch d)) where
  tidy := tidy_step ht _
  apart := .launch hs d.call
  kind c hc := by
    have hstage : (s.step (.launch d)).stage? s.tasks.length =
        some (.queued d.call false false) := by
      rw [show s.step (.launch d) = s.add "" false d.call from rfl, Loop.stage?_add, if_pos rfl]
    rw [Loop.continuation?_of_stage? hstage] at hc
    cases hc
    exact hd
  navigation hn := absurd (ht.navigation _ hn).1 (Nat.lt_irrefl _)

/-- No run of a call that is not its own moves it. -/
theorem Lone.cancel_notMem (h : Lone t s) (c : Call) (wake : Wake) :
    .cancel t ∉ (behaviour s.facts c wake s.state).orders := fun hmem =>
  (cancels_behaviour h.tidy.listeners hmem).elim h.navigation fun htracked =>
    h.apart.within.tracked t htracked rfl

/-- What reaches a call from outside, and how its stage changes: it is cancelled, or is given what it
    waits for. -/
inductive Reaches (t : TaskId) : Move → Stage Call Result Failure → Stage Call Result Failure → Prop
    where
  | nothing (m : Move) (st : Stage Call Result Failure) : Reaches t m st st
  | revoked (st : Stage Call Result Failure) : Reaches t (.revoke t) st st.cancel
  | answered {c : Call} (r : Reply) (h : c.request?.isSome = true) :
    Reaches t (.answer t r) (.waiting c .signal) (.queued (c.take r) true false)
  | delivered {c : Call} (selected : Selected) (h : c.path?.isSome = true) :
    Reaches t (.read t selected) (.waiting c .signal) (.queued (c.takeFiles selected) true false)

/-- A turn that does not resume it leaves it where it stands. -/
theorem Lone.stage?_turn {st : Stage Call Result Failure} (h : Lone t s)
    (hs : s.stage? t = some st) (hr : ∀ r, s.resumption? = some r → r.task ≠ t) :
    (s.step .turn).stage? t = some st := by
  refine Loop.stage?_turned_of_ne hs (fun st' hst => ?_) hr fun u c wake _ => h.cancel_notMem c wake
  cases hst with
  | same => rfl
  | woken c v hv => exact absurd (h.apart.stage c v hs) hv
  | counted c n k => cases h.apart.stage c _ hs

/-- **Nothing moves it but its own runs and what reaches it.** -/
theorem Lone.reaches {st : Stage Call Result Failure} (h : Lone t s) (hs : s.stage? t = some st)
    (hr : ∀ r, s.resumed? m = some r → r.task ≠ t) :
    ∃ st', (s.step m).stage? t = some st' ∧ Reaches t m st st' := by
  have hsame : (s.step m).stage? t = s.stage? t →
      ∃ st', (s.step m).stage? t = some st' ∧ Reaches t m st st' :=
    fun hstage => ⟨st, hstage.trans hs, .nothing m st⟩
  cases m with
  | turn => exact hsame ((h.stage?_turn hs hr).trans hs.symm)
  | switch target =>
    have hno := cancel_notMem_switchTab s.closed target s.state t
    exact hsame (Loop.stage?_foldl_obey_of_notMem
      (l := { s with state := (switchTab s.closed target s.state).1 }) h.apart.lt hno)
  | launch d =>
    exact hsame ((Loop.stage?_add _ _ _ s t).trans (if_neg (Nat.ne_of_lt h.apart.lt)))
  | revoke u =>
    by_cases hne : t = u
    · subst hne
      by_cases hrev : (s.continuation? t).any Call.isRevocable = true
      · refine ⟨st.cancel, ?_, .revoked st⟩
        show (s.revoke t).stage? t = _
        rw [revoke, if_pos hrev, Loop.stage?_cancel, if_pos rfl, hs]
        rfl
      · refine hsame ?_
        show (s.revoke t).stage? t = _
        rw [revoke, if_neg hrev]
    · refine hsame ?_
      show (s.revoke u).stage? t = _
      unfold revoke
      split
      · rw [Loop.stage?_cancel, if_neg hne]
      · rfl
  | answer u r =>
    by_cases hne : t = u
    · subst hne
      show ∃ st', (s.answer t r).stage? t = some st' ∧ _
      unfold answer
      split
      · rename_i hshown
        rcases Loop.stage?_signal_self (Call.take r) hs with hsame | ⟨c, rfl, hqueued⟩
        · exact ⟨st, hsame, .nothing _ st⟩
        · rw [Loop.shown?_of_stage? hs] at hshown
          exact ⟨_, hqueued, .answered r hshown⟩
      · exact ⟨st, hs, .nothing _ st⟩
    · refine hsame ?_
      show (s.answer u r).stage? t = _
      unfold answer
      split
      · exact Loop.stage?_signal_of_ne _ s hne
      · rfl
  | read u selected =>
    by_cases hne : t = u
    · subst hne
      show ∃ st', (s.deliver t selected).stage? t = some st' ∧ _
      unfold deliver
      split
      · rename_i hshown
        rcases Loop.stage?_signal_self (Call.takeFiles selected) hs with hsame | ⟨c, rfl, hqueued⟩
        · exact ⟨st, hsame, .nothing _ st⟩
        · rw [Loop.shown?_of_stage? hs] at hshown
          exact ⟨_, hqueued, .delivered selected hshown⟩
      · exact ⟨st, hs, .nothing _ st⟩
    · refine hsame ?_
      show (s.deliver u selected).stage? t = _
      unfold deliver
      split
      · exact Loop.stage?_signal_of_ne _ s hne
      · rfl
  | _ => exact hsame rfl

theorem Lone.calm (h : Lone t s) (hc : Calm s m (s.step m)) (hapart : Loop.Apart t (s.step m)) :
    Lone t (s.step m) where
  tidy := tidy_step h.tidy m
  apart := hapart
  kind c hcont := by
    rcases hc.continuation_before hcont with ⟨c', hc', hrec⟩ | ⟨heq, _⟩
    · exact hrec.kind.trans (h.kind c' hc')
    · exact absurd h.apart.lt (heq ▸ Nat.lt_irrefl _)
  navigation hn := by
    rw [hc.ingest] at hn
    cases m with
    | acknowledge =>
      have hack : s.state.ingest.acknowledge.navigation = s.state.ingest.navigation := by
        unfold Ingest.acknowledge
        split <;> rfl
      exact h.navigation (hack ▸ hn)
    | _ => exact h.navigation hn

theorem Lone.run (h : Lone t s) (hrun : s.resumption? = some ⟨u, c, some wake⟩) :
    Lone t (s.step .turn) where
  tidy := tidy_step h.tidy .turn
  apart := by
    refine h.apart.turned (fun v c w ids c' _ hnext htmem => ?_) fun c w p c' hr hnext => ?_
    · rw [watches_behaviour h.tidy.listeners hnext] at htmem
      exact h.apart.within.tracked t htmem rfl
    · obtain ⟨hkind, hpause⟩ := (h.tidy.tame c w).kind p c' hnext
      exact Call.pause_of_upload (hkind.trans (h.kind c (Loop.Resumption.continuation?_eq hr))) hpause
  kind c' hc' := by
    rcases continuation_before_run hrun hc' with ⟨rfl, p, hnext⟩ | ⟨_, hold⟩ | ⟨hle, _⟩
    · exact ((h.tidy.tame c wake).kind p c' hnext).1.trans
        (h.kind c (Loop.Resumption.continuation?_eq hrun))
    · exact h.kind c' hold
    · exact absurd h.apart.lt (Nat.not_lt.mpr hle)
  navigation hn := by
    rw [state_of_run hrun] at hn
    rcases (h.tidy.tame c wake).navigation t hn with hold | ⟨_, hfresh, _⟩
    · exact h.navigation hold
    · exact absurd h.apart.lt (hfresh ▸ Nat.lt_irrefl _)

/-- **Every step leaves it alone.** -/
theorem lone_step (h : Lone t s) (m : Move) : Lone t (s.step m) := by
  rcases calm_or_run h.tidy.listeners m with hc | ⟨rfl, u, c, wake, hrun⟩
  · refine h.calm hc ?_
    cases m with
    | turn =>
      refine h.apart.turned (fun u c w ids c' hr _ => ?_) fun c w p c' hr _ => ?_
      · cases hc.wake _ hr
      · cases hc.wake _ hr
    | switch target => exact (h.apart.reset _).obeyed _
    | launch d => exact h.apart.added "" false d.call
    | revoke u =>
      show Loop.Apart t (s.revoke u)
      unfold revoke
      split
      · exact h.apart.cancelled u
      · exact h.apart
    | answer u r =>
      show Loop.Apart t (s.answer u r)
      unfold answer
      split
      · exact h.apart.signalled u _
      · exact h.apart
    | read u selected =>
      show Loop.Apart t (s.deliver u selected)
      unfold deliver
      split
      · exact h.apart.signalled u _
      · exact h.apart
    | wait ticks => exact h.apart.fired _
    | _ => exact h.apart.reset _
  · exact h.run hrun

/-- **From its launch on a call with files or a folder stands alone.** -/
theorem lone_play (h : Lone t s) (ms : List Move) : Lone t (s.play ms) :=
  play_induction h (fun _ m h => lone_step h m) ms

end Lone

end CodeSession.Session
