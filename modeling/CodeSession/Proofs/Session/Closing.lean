import CodeSession.Proofs.Loop.Watching
import CodeSession.Proofs.Session.Tidy

/-!
# Closing a session

The call that closes the session cancels the background calls and waits for their ends.

* `closed_of_closeReturns` -- once a close has returned the session is closed;
* `HasClosed` -- the session is closed, and the call that closed it is over;
* `Leaving` -- while that call waits it watches every background call;
* `alone_of_hasClosed` -- once it is over no background call is left.
-/

namespace CodeSession.Session

open Backend Folder

variable {s s' : Session} {m : Move} {t u : TaskId} {c : Call} {wake : Wake} {w : World}
  {facts : Facts}

/-! ## 1. Calls that return from closing -/

/-- The call that a move lets return from closing the session. -/
def closeReturn? (s : Session) (m : Move) : Option TaskId :=
  match s.resumed? m with
  | some ⟨t, c, some wake⟩ =>
    match c.kind, (behaviour s.facts c wake s.state).next with
    | .closing, .finish (.returned _) => some t
    | _, _ => none
  | _ => none

/-- The calls that return from closing the session in a run. -/
def closeReturns (s : Session) (ms : List Move) : List TaskId :=
  log closeReturn? s ms

theorem closed_of_closeReturn? (ht : Tidy s) (h : s.closeReturn? m = some t) :
    (s.step m).closed = true := by
  unfold closeReturn? at h
  split at h
  · rename_i i c wake hr
    obtain rfl := turn_of_resumed? hr
    have hclosed := closed_of_run hr
    split at h
    · rename_i r hk hn
      rw [hclosed]
      cases wake with
      | cancelled => cases hn
      | go =>
        cases c with
        | closing => exact .inl (ht.closing i (Loop.Resumption.continuation?_eq hr))
        | close =>
          cases hopen : s.closed with
          | true => exact .inl rfl
          | false => exact .inr (seal_mem_beginClose s.state hopen)
        | _ => cases hk
    · cases h
  · cases h

/-- **Once a close has returned the session is closed**, and stays so. -/
theorem closed_of_closeReturns (client : Client) (delay : Binary64) (greeting : Option String)
    (files : FileSystem) (ms : List Move)
    (h : closeReturns (opened client delay greeting files) ms ≠ []) :
    ((opened client delay greeting files).play ms).closed = true := by
  refine (play_log_induction (P := fun s ts => Tidy s ∧ (ts ≠ [] → s.closed = true))
    ⟨tidy_opened client delay greeting files, fun e => absurd rfl e⟩ (fun s ts m hs => ?_) ms).2 h
  refine ⟨tidy_step hs.1 m, fun hne => ?_⟩
  cases hret : s.closeReturn? m with
  | some t => exact closed_of_closeReturn? hs.1 hret
  | none =>
    rw [hret, Option.toList_none, List.append_nil] at hne
    exact closed_step hs.1 m (hs.2 hne)

/-! ## 2. The books of the loop -/

/-- A move that is no turn leaves the books of the loop alone. -/
theorem tallied_step (hm : m ≠ .turn) : Loop.Tallied s (s.step m) := by
  cases m with
  | turn => exact absurd rfl hm
  | switch target => exact Loop.tallied_foldl_obey _ _ s
  | launch d => exact Loop.tallied_add _ _ _ s
  | revoke t =>
    show Loop.Tallied s (s.revoke t)
    unfold revoke
    split
    · exact Loop.tallied_cancel t s
    · exact .refl s
  | answer t r =>
    show Loop.Tallied s (s.answer t r)
    unfold answer
    split
    · exact Loop.tallied_signal t _ s
    · exact .refl s
  | read t selected =>
    show Loop.Tallied s (s.deliver t selected)
    unfold deliver
    split
    · exact Loop.tallied_signal t _ s
    · exact .refl s
  | wait ticks => exact Loop.tallied_fireAt _ s
  | _ => exact .of_tasks_eq rfl fun _ => rfl

theorem owing_step (h : Loop.Owing s) (m : Move) : Loop.Owing (s.step m) := by
  by_cases hm : m = .turn
  · subst hm
    exact Loop.owing_turned (fun facts c w => ⟨.cancelled, rfl⟩) h
  · exact h.tallied (tallied_step hm)

theorem watches_step (h : s.Watches t u) (hu : (s.step m).continuation? u = some c) :
    (s.step m).Watches t u := by
  by_cases hm : m = .turn
  · subst hm
    exact Loop.watches_turned h hu
  · exact (tallied_step hm).watches t u h

/-! ## 3. The call that closes -/

/-- Whether no background call is left. -/
def Alone (s : Session) : Prop :=
  ∀ u c, s.continuation? u = some c → c.kind.isBackground = false

/-- Whether the session is closed and the call that closed it is over. -/
def HasClosed (s : Session) : Prop :=
  s.closed = true ∧ ∀ t, s.continuation? t ≠ some .closing

/-- The call that closes the session watches every background call, and nothing cancels it; it is
    there until none is left. -/
structure Leaving (s : Session) : Prop where
  owing : Loop.Owing s
  watches : ∀ t, s.continuation? t = some .closing → ∀ u c, s.continuation? u = some c →
    c.kind.isBackground = true → s.Watches t u
  spared : ∀ t begun cancelled, s.stage? t = some (.queued .closing begun cancelled) →
    cancelled = false
  there : s.closed = true → (∃ t, s.continuation? t = some .closing) ∨ s.Alone

theorem leaving_opened (client : Client) (delay : Binary64) (greeting : Option String)
    (files : FileSystem) : Leaving (opened client delay greeting files) where
  owing w := by
    simp [opened, Loop.start, Loop.stage?, Loop.owed, Loop.MayOwe]
  watches t h := by simp [opened, Loop.start, Loop.continuation?, Loop.stage?] at h
  spared t b x h := by simp [opened, Loop.start, Loop.stage?] at h
  there h := by cases h

/-- In a closed session no step adds a background call. -/
theorem Calm.background_before (h : Calm s m s') (hclosed : s.closed = true) {i : TaskId} {c' : Call}
    (hc' : s'.continuation? i = some c') (hb : c'.kind.isBackground = true) :
    ∃ c, s.continuation? i = some c ∧ c.kind.isBackground = true := by
  rcases h.continuation_before hc' with ⟨c, hc, hrec⟩ | ⟨_, harr⟩
  · exact ⟨c, hc, hrec.kind ▸ hb⟩
  · have ha := harr.kind hb
    rw [not_activates_of_closed hclosed] at ha
    cases ha

theorem Calm.closing_before (h : Calm s m s') {i : TaskId} (hc' : s'.continuation? i = some .closing) :
    s.continuation? i = some .closing := by
  rcases h.continuation_before hc' with ⟨c, hc, hrec⟩ | ⟨_, harr⟩
  · exact hrec.closing ▸ hc
  · cases harr.isFresh

/-- The call that closes goes on after a calm step. -/
theorem Tidy.closing_calm (ht : Tidy s) (h : Calm s m s') {i : TaskId}
    (hc : s.continuation? i = some .closing) : s'.continuation? i = some .closing := by
  obtain ⟨st, hs, hst⟩ := Loop.continuation?_eq_some_iff.mp hc
  have hr : ∀ r, s.resumed? m = some r → r.task ≠ i := by
    rintro r hr rfl
    have hfresh := ht.isFresh_of_dropped hr (h.wake r hr)
    obtain he := Option.some.inj ((continuation?_of_resumed? hr).symm.trans hc)
    rw [he] at hfresh
    cases hfresh
  obtain ⟨st', hs', hd⟩ := h.stage i st hs hr
  rw [Loop.continuation?_of_stage? hs']
  cases hd with
  | stirs hstir => rw [hstir.continuation?, hst]
  | revoked _ _ => rw [Stage.continuation?_cancel, hst]
  | answered r hreq =>
    cases hst
    cases hreq
  | delivered selected hpath =>
    cases hst
    cases hpath

theorem Leaving.calm (hl : Leaving s) (ht : Tidy s) (h : Calm s m (s.step m)) :
    Leaving (s.step m) where
  owing := owing_step hl.owing m
  watches i hi u c' hc' hb := by
    have hold := h.closing_before hi
    obtain ⟨c, hc, hb⟩ := h.background_before (ht.closing i hold) hc' hb
    exact watches_step (hl.watches i hold u c hc hb) hc'
  spared i begun cancelled hs' := by
    rcases h.stage_before hs' with ⟨st, hs, hd | he⟩ | ⟨_, c, harr, he⟩
    · generalize hst' : Stage.queued Call.closing begun cancelled = st' at hd
      cases hd with
      | stirs hst =>
        cases hst with
        | same => exact hl.spared i begun cancelled (hst' ▸ hs)
        | woken c v hv =>
          cases hst'
          rfl
        | counted c m n => cases hst'
      | revoked hc hrev =>
        have hc' : st.continuation? = some .closing := by
          rw [← Stage.continuation?_cancel, ← hst', Stage.continuation?_queued]
        obtain rfl := Option.some.inj (hc.symm.trans hc')
        cases hrev
      | answered r hc => exact (Stage.queued.inj hst').2.2
      | delivered selected hc => exact (Stage.queued.inj hst').2.2
    · cases he
    · cases he
      cases harr.isFresh
  there hclosed := by
    rw [h.closed] at hclosed
    rcases hl.there hclosed with ⟨i, hi⟩ | halone
    · exact .inl ⟨i, ht.closing_calm h hi⟩
    · refine .inr fun u c' hc' => ?_
      rw [← Bool.not_eq_true]
      intro hb
      obtain ⟨c, hc, hb⟩ := h.background_before hclosed hc' hb
      rw [halone u c hc] at hb
      cases hb

/-! ## 4. Runs of calls -/

section Runs

variable (ht : Tidy s) (h : s.resumption? = some ⟨t, c, some wake⟩)

include ht h

/-- In a closed session no run adds a background call. -/
theorem background_before_run (hclosed : s.closed = true) {i : TaskId} {c' : Call}
    (hc' : (s.step .turn).continuation? i = some c') (hb : c'.kind.isBackground = true) :
    ∃ c, s.continuation? i = some c ∧ c.kind.isBackground = true := by
  rcases continuation_before_run h hc' with ⟨rfl, p, hn⟩ | ⟨_, hc⟩ | ⟨_, hopen, _⟩
  · refine ⟨c, Loop.Resumption.continuation?_eq h, ?_⟩
    rw [((ht.tame c wake).kind p c' hn).1] at hb
    exact hb
  · exact ⟨c', hc, hb⟩
  · rw [hclosed] at hopen
    cases hopen

/-- A call that closes after a run closed before it, or the run has closed the session. -/
theorem closing_before_run {i : TaskId}
    (hc' : (s.step .turn).continuation? i = some .closing) :
    (i ≠ t ∧ s.continuation? i = some .closing) ∨
      (i = t ∧ .seal ∈ (behaviour s.facts c wake s.state).orders) := by
  have tame := ht.tame c wake
  rcases continuation_before_run h hc' with ⟨hi, p, hn⟩ | hold | ⟨_, _, name, hspawn⟩
  · exact .inr ⟨hi, tame.closes p hn⟩
  · exact .inl hold
  · cases tame.spawns name _ hspawn

/-- A run that closes the session: the call is over with no background call left, or it waits for
    every background call. -/
theorem run_of_seal (hseal : .seal ∈ (behaviour s.facts c wake s.state).orders) :
    c = .close ∧ s.closed = false ∧
      (s.tracked = [] ∧ (behaviour s.facts c wake s.state).next = .finish (.returned none) ∨
        (behaviour s.facts c wake s.state).next = .pause (.tasks s.tracked) .closing) := by
  have tame := ht.tame c wake
  obtain ⟨rfl, hopen, _⟩ := tame.seals hseal
  refine ⟨rfl, hopen, ?_⟩
  cases wake with
  | cancelled => exact absurd hseal List.not_mem_nil
  | go =>
    have hrun : behaviour s.facts .close .go s.state = beginClose s.facts s.state := rfl
    have hopen' : ¬s.facts.closed = true := by simp [hopen]
    rw [hrun]
    unfold beginClose
    rw [if_neg hopen']
    dsimp only
    split
    · rename_i hempty
      exact .inl ⟨List.isEmpty_iff.mp hempty, rfl⟩
    · exact .inr rfl

/-- A background call that is left by the run that closes the session was tracked. -/
theorem mem_tracked_of_seal (hseal : .seal ∈ (behaviour s.facts c wake s.state).orders) {c' : Call}
    (hc' : (s.step .turn).continuation? u = some c') (hb : c'.kind.isBackground = true) :
    u ∈ s.tracked := by
  have tame := ht.tame c wake
  obtain ⟨rfl, hopen, _, hnone⟩ := tame.seals hseal
  rcases continuation_before_run h hc' with ⟨_, p, hn⟩ | ⟨_, hc⟩ | ⟨_, _, name, hspawn⟩
  · rw [(tame.kind p c' hn).1] at hb
    cases hb
  · exact ht.tracked hopen u c' hc hb
  · exact absurd hspawn (hnone name c')

end Runs

/-- When the call that closes goes on, no background call is left. -/
theorem Leaving.alone (hl : Leaving s) (h : s.resumption? = some ⟨t, .closing, some wake⟩) :
    s.Alone := by
  obtain ⟨_, begun, cancelled, hs, _⟩ := Loop.resumption?_eq_some_iff.mp h
  obtain rfl : cancelled = false := hl.spared t begun cancelled hs
  intro u c hc
  rw [← Bool.not_eq_true]
  intro hb
  exact hl.owing.not_watches hs (hl.watches t (Loop.Resumption.continuation?_eq h) u c hc hb)

theorem Leaving.run (hl : Leaving s) (ht : Tidy s) (h : s.resumption? = some ⟨t, c, some wake⟩) :
    Leaving (s.step .turn) := by
  have tame := ht.tame c wake
  have hnext := continuation?_of_run h
  constructor
  case owing => exact owing_step hl.owing .turn
  case watches =>
    intro i hi u c' hc' hb
    rcases closing_before_run ht h hi with ⟨_, hold⟩ | ⟨rfl, hseal⟩
    · obtain ⟨c, hc, hb⟩ := background_before_run ht h (ht.closing i hold) hc' hb
      exact watches_step (hl.watches i hold u c hc hb) hc'
    · obtain ⟨rfl, hopen, ⟨_, hn⟩ | hn⟩ := run_of_seal ht h hseal
      · rw [hnext, hn] at hi
        cases hi
      · exact Loop.watches_of_pause h hn (mem_tracked_of_seal ht h hseal hc' hb) hc'
  case spared =>
    intro i begun cancelled hs'
    rcases Loop.stage?_turned_of_run h hs' with ⟨rfl, he⟩ | ⟨_, st, hs, ⟨hmem, he⟩ | ⟨_, he⟩⟩ |
      ⟨_, _, name, k, x, hspawn, he⟩
    · exact Loop.eq_false_of_after he.symm
    · have hcont : s.continuation? i = some .closing := by
        rw [Loop.continuation?_of_stage? hs, ← Stage.continuation?_cancel, ← he]
        rfl
      rcases tame.cancels i hmem with hn | hseal
      · cases (ht.navigation i hn).2 _ hcont
      · have hopen : s.closed = false := (tame.seals hseal).2.1
        rw [ht.closing i hcont] at hopen
        cases hopen
    · exact hl.spared i begun cancelled (he ▸ hs)
    · cases he
      cases tame.spawns name _ hspawn
  case there =>
    intro hclosed'
    have hkept : s.closed = true → s.Alone → (s.step .turn).Alone := by
      intro hclosed halone u c' hc'
      rw [← Bool.not_eq_true]
      intro hb
      obtain ⟨c, hc, hb⟩ := background_before_run ht h hclosed hc' hb
      rw [halone u c hc] at hb
      cases hb
    rcases (closed_of_run h).mp hclosed' with hclosed | hseal
    · rcases hl.there hclosed with ⟨i, hi⟩ | halone
      · by_cases hit : i = t
        · subst hit
          obtain rfl := Option.some.inj ((Loop.Resumption.continuation?_eq h).symm.trans hi)
          exact .inr (hkept hclosed (hl.alone h))
        · refine .inl ⟨i, ?_⟩
          rw [step_turn, Loop.turned_of_run h]
          exact (Loop.continuation?_runTask_of_ne (l := s.popped) hit
            (Loop.lt_of_continuation? hi)).trans hi
      · exact .inr (hkept hclosed halone)
    · obtain ⟨_, hopen, ⟨hempty, hn⟩ | hn⟩ := run_of_seal ht h hseal
      · -- nothing was tracked
        refine .inr fun u c' hc' => ?_
        rw [← Bool.not_eq_true]
        intro hb
        have hmem := mem_tracked_of_seal ht h hseal hc' hb
        rw [hempty] at hmem
        cases hmem
      · exact .inl ⟨t, by rw [hnext, hn]; rfl⟩

/-! ## 5. Every step -/

/-- **Every step keeps what the call that closes watches.** -/
theorem leaving_step (hl : Leaving s) (ht : Tidy s) (m : Move) : Leaving (s.step m) := by
  rcases calm_or_run ht.listeners m with h | ⟨rfl, t, c, wake, h⟩
  · exact hl.calm ht h
  · exact hl.run ht h

theorem leaving_play (client : Client) (delay : Binary64) (greeting : Option String)
    (files : FileSystem) (ms : List Move) :
    Leaving ((opened client delay greeting files).play ms) := by
  refine (play_induction (P := fun s => Tidy s ∧ Leaving s)
    ⟨tidy_opened client delay greeting files, leaving_opened client delay greeting files⟩
    (fun s m h => ?_) ms).2
  exact ⟨tidy_step h.1 m, leaving_step h.2 h.1 m⟩

/-- **Once the call that closed the session is over no background call is left.** -/
theorem alone_of_hasClosed (client : Client) (delay : Binary64) (greeting : Option String)
    (files : FileSystem) (ms : List Move)
    (h : HasClosed ((opened client delay greeting files).play ms)) :
    Alone ((opened client delay greeting files).play ms) := by
  refine ((leaving_play client delay greeting files ms).there h.1).resolve_left ?_
  rintro ⟨t, ht⟩
  exact h.2 t ht

end CodeSession.Session
