import CodeSession.Proofs.Session.Closing
import CodeSession.Proofs.Session.Frozen
import CodeSession.Proofs.Session.Ingesting

/-!
# From a close on

What stays as it is from the step on in which a close first runs.

* `Kept`, `kept_step` -- no step of a closed session changes the tab, the records or the error that
  the inspection shows, or how many fetches were issued;
* `length_step_of_closed` -- nothing but a launch adds a task;
* `ClosedBy` -- the call that closed the session is the only one that waits to go on with it, and it
  returns only when no background call is left;
* `kept_of_close` -- all of it, for every run after the close.
-/

namespace CodeSession.Session

open Backend Folder

variable {s : Session} {m : Move} {t : TaskId} {c : Call} {wake : Wake}

/-! ## 1. What a closed session keeps -/

/-- The tab, the records and the error of the inspection, and how many fetches were issued, are the
    same in two states. -/
structure Kept (w w' : World) : Prop where
  tab : w'.tabs.active = w.tabs.active
  snapshot : w'.inspection.snapshot = w.inspection.snapshot
  error : w'.inspection.error = w.inspection.error
  issued : w'.inspection.issued = w.inspection.issued

theorem Kept.refl (w : World) : Kept w w := ⟨rfl, rfl, rfl, rfl⟩

theorem Kept.trans {u v w : World} (h : Kept u v) (h' : Kept v w) : Kept u w :=
  ⟨h'.tab.trans h.tab, h'.snapshot.trans h.snapshot, h'.error.trans h.error,
    h'.issued.trans h.issued⟩

/-- A call that is cancelled under way leaves them alone. -/
theorem kept_abandon (c : Call) (w : World) : Kept w (w.abandon c) := by
  cases c with
  | fetching number x =>
    show Kept w { w with inspection := w.inspection.abandon number }
    unfold Inspection.abandon
    split <;> exact ⟨rfl, rfl, rfl, rfl⟩
  | _ => exact ⟨rfl, rfl, rfl, rfl⟩

/-- Calls that are not in the background leave them alone. -/
theorem kept_of_kind {k : Kind} {w w' : World} (hk : k.isBackground = false)
    (h : Touches k w w') : Kept w w' := by
  cases h with
  | fetch inspection client h => cases hk
  | navigation ingest tabs h => cases hk
  | _ => exact ⟨rfl, rfl, rfl, rfl⟩

/-- **No step of a closed session changes what is kept.** -/
theorem kept_step (ht : Tidy s) (hclosed : s.closed = true) (m : Move) :
    Kept s.state (s.step m).state := by
  rcases calm_or_run ht.listeners m with h | ⟨rfl, t, c, wake, h⟩
  · have htabs : (s.step m).state.tabs = s.state.tabs := by
      rw [h.state]
      exact Move.tabs_onState s.state (.inl hclosed)
    have hinspection : (s.step m).state.inspection = s.state.inspection := by
      rw [h.inspection, not_activates_of_closed hclosed]
      rfl
    exact ⟨by rw [htabs], by rw [hinspection], by rw [hinspection], by rw [hinspection]⟩
  · rw [state_of_run h]
    cases hb : c.kind.isBackground with
    | false => exact kept_of_kind hb (touches_behaviour c wake ht.listeners)
    | true =>
      obtain rfl := ht.wake_of_isBackground hclosed h hb
      exact kept_abandon c s.state

/-! ## 2. No task is started -/

/-- A run of a call in a closed session adds no task, and no more does one that spawns none. -/
theorem length_step_of_run (h : s.resumption? = some ⟨t, c, some wake⟩)
    (hno : s.closed = true ∨ ∀ name k, .spawn name k ∉ (behaviour s.facts c wake s.state).orders) :
    (s.step .turn).tasks.length = s.tasks.length := by
  rw [step_turn, Loop.turned_of_run h, Loop.runTask_eq, (Loop.keeps_goOn _ _ _).length]
  exact Loop.length_foldl_obey_eq
    (l := { s.popped with state := (behaviour s.facts c wake s.state).state }) hno

/-- **Only a launch adds a task to a closed session.** -/
theorem length_step_of_closed (ht : Tidy s) (hclosed : s.closed = true)
    (hm : ∀ d, m ≠ .launch d) : (s.step m).tasks.length = s.tasks.length := by
  rcases calm_or_run ht.listeners m with h | ⟨rfl, t, c, wake, h⟩
  · refine Nat.le_antisymm (Nat.le_of_not_lt fun hlt => ?_) h.length
    -- a task more would be one that arrived
    cases hs : (s.step m).stage? s.tasks.length with
    | none => exact absurd hlt (Nat.not_lt.mpr (Loop.stage?_eq_none_iff.mp hs))
    | some st =>
      obtain ⟨_, c, harr, _⟩ := h.arrival _ st (Nat.le_refl _) hs
      exact notArrives_of_not_activates hm (not_activates_of_closed hclosed m) harr
  · exact length_step_of_run h (.inl hclosed)

/-- An upload that succeeds in a closed session notes no return to the chat. -/
theorem navigation_of_success (ht : Tidy s) {ends : List (Fate String)}
    (hb : Guarded uploads s ends) (hclosed : s.closed = true) {message : String}
    (h : uploads.end? s m = some (.landed (.ok message))) :
    (s.step m).state.ingest.navigation = none := by
  obtain ⟨rfl, t, c, wake, hrun, hfate⟩ := Guard.exists_run_of_end? h
  have hingest := ingestRun_of_run ht hb hrun
  have hfate' : uploadFate? s.facts c wake s.state = some (.landed (.ok message)) := hfate
  have hnoted : ∀ old, returnNoted s.facts (some (.landed (.ok message))) old = none := by
    intro old
    simp [returnNoted, Fate.isSuccess, Facts.spawned?_eq_none_iff, Loop.facts, hclosed]
  rw [state_of_run hrun]
  rw [hfate'] at hingest
  generalize accepts c wake (behaviour s.facts c wake s.state) = accepted at hingest
  cases hingest with
  | aside f hc hf hstatus hnavigation hcancel hspawn hnext hover => cases hf
  | begun f hc hfree hstatus hnavigation horders hnext hover => rw [hnavigation, hnoted]
  | ended f hc hbusy hstatus hnavigation horders hover => rw [hnavigation, hnoted]

/-- A call that would close a closed session returns at once, and nothing else changes. -/
theorem turned_of_close (hclosed : s.closed = true)
    (h : s.resumption? = some ⟨t, .close, some .go⟩) :
    s.step .turn = s.popped.finish t (.returned none) := by
  have hrun : behaviour s.popped.facts .close .go s.popped.state = s.state.done [] none :=
    if_pos hclosed
  rw [step_turn, Loop.turned_of_run h, Loop.runTask_eq, Loop.ordered, hrun]
  rfl

/-! ## 3. The call that closed the session -/

theorem Receives.of_closing {c' : Call} (h : Receives .closing c') : c' = .closing := by
  cases h <;> rfl

/-- A session that a call has closed: the call is the only one that waits to go on with closing, and
    once it has returned no background call is left. -/
structure ClosedBy (t : TaskId) (s : Session) (returned : List TaskId) : Prop where
  closed : s.closed = true
  lt : t < s.tasks.length
  only : ∀ u, s.continuation? u = some .closing → u = t
  itself : ∀ c, s.continuation? t = some c → c = .closing
  alone : t ∈ returned → s.Alone

/-- In a closed session no background call comes up again. -/
theorem alone_step (ht : Tidy s) (hclosed : s.closed = true) (h : s.Alone) (m : Move) :
    (s.step m).Alone := by
  intro u c' hc'
  rw [← Bool.not_eq_true]
  intro hb
  have hbefore : ∃ c, s.continuation? u = some c ∧ c.kind.isBackground = true := by
    rcases calm_or_run ht.listeners m with hcalm | ⟨rfl, t, c, wake, hrun⟩
    · exact hcalm.background_before hclosed hc' hb
    · exact background_before_run ht hrun hclosed hc' hb
  obtain ⟨c, hc, hb⟩ := hbefore
  rw [h u c hc] at hb
  cases hb

theorem exists_run_of_closeReturn? (h : s.closeReturn? m = some t) :
    m = .turn ∧ ∃ c wake, s.resumption? = some ⟨t, c, some wake⟩ := by
  unfold closeReturn? at h
  split at h
  · rename_i u c wake hr
    obtain rfl := turn_of_resumed? hr
    split at h
    · cases h
      exact ⟨rfl, c, wake, hr⟩
    · cases h
  · cases h

theorem ClosedBy.step {returned : List TaskId} (h : ClosedBy t s returned) (ht : Tidy s)
    (hl : Leaving s) (m : Move) :
    ClosedBy t (s.step m) (returned ++ (s.closeReturn? m).toList) := by
  have hclosed := closed_step ht m h.closed
  have halone : t ∈ returned ++ (s.closeReturn? m).toList → (s.step m).Alone := by
    intro hmem
    refine alone_step ht h.closed ?_ m
    rcases List.mem_append.mp hmem with hmem | hmem
    · exact h.alone hmem
    · obtain ⟨_, c, wake, hrun⟩ := exists_run_of_closeReturn? (Option.mem_toList.mp hmem)
      obtain rfl := h.itself c (Loop.Resumption.continuation?_eq hrun)
      exact hl.alone hrun
  rcases calm_or_run ht.listeners m with hcalm | ⟨rfl, u, c, wake, hrun⟩
  · refine ⟨hclosed, Nat.lt_of_lt_of_le h.lt hcalm.length, fun i hi => ?_, fun c' hc' => ?_, halone⟩
    · exact h.only i (hcalm.closing_before hi)
    · rcases hcalm.continuation_before hc' with ⟨c, hc, hrec⟩ | ⟨hnew, _⟩
      · obtain rfl := h.itself c hc
        exact hrec.of_closing
      · exact absurd h.lt (hnew ▸ Nat.lt_irrefl _)
  · refine ⟨hclosed, ?_, fun i hi => ?_, fun c' hc' => ?_, halone⟩
    · exact Nat.lt_of_lt_of_le h.lt (Loop.length_le_turned_of_run hrun)
    · rcases closing_before_run ht hrun hi with ⟨_, hold⟩ | ⟨_, hseal⟩
      · exact h.only i hold
      · have hopen := ((ht.tame c wake).seals hseal).2.1
        rw [show s.facts.closed = s.closed from rfl, h.closed] at hopen
        cases hopen
    · rcases continuation_before_run hrun hc' with ⟨rfl, p, hn⟩ | ⟨_, hold⟩ | ⟨hle, _⟩
      · -- the call that closed the session ends when it goes on
        obtain rfl := h.itself c (Loop.Resumption.continuation?_eq hrun)
        cases wake <;> cases hn
      · exact h.itself c' hold
      · exact absurd h.lt (Nat.not_lt.mpr hle)

/-- **What a closed session keeps, and the call that closed it, over a run.** -/
theorem ClosedBy.play {returned : List TaskId} (h : ClosedBy t s returned) (ht : Tidy s)
    (hl : Leaving s) (ns : List Move) :
    Tidy (s.play ns) ∧ Kept s.state (s.play ns).state ∧
      ClosedBy t (s.play ns) (returned ++ closeReturns s ns) := by
  have hall : Tidy (s.play ns) ∧ Leaving (s.play ns) ∧ Kept s.state (s.play ns).state ∧
      ClosedBy t (s.play ns) (returned ++ closeReturns s ns) := by
    refine play_log_induction (P := fun z es => Tidy z ∧ Leaving z ∧ Kept s.state z.state ∧
      ClosedBy t z (returned ++ es)) ⟨ht, hl, .refl _, ?_⟩ (fun z es m hz => ?_) ns
    · rw [List.append_nil]
      exact h
    · obtain ⟨htz, hlz, hkz, hcz⟩ := hz
      refine ⟨tidy_step htz m, leaving_step hlz htz m, hkz.trans (kept_step htz hcz.closed m), ?_⟩
      rw [← List.append_assoc]
      exact hcz.step htz hlz m
  obtain ⟨htz, _, hkz, hcz⟩ := hall
  exact ⟨htz, hkz, hcz⟩

section Close

variable (ht : Tidy s) (hopen : s.closed = false)
  (h : s.resumption? = some ⟨t, .close, some .go⟩)

include ht hopen h

theorem closedBy_of_close (hl : Leaving s) :
    ClosedBy t (s.step .turn) (s.closeReturn? .turn).toList := by
  have hseal : .seal ∈ (behaviour s.facts .close .go s.state).orders :=
    seal_mem_beginClose s.state hopen
  have honly : ∀ i, (s.step .turn).continuation? i = some .closing → i = t := by
    intro i hi
    rcases closing_before_run ht h hi with ⟨_, hold⟩ | ⟨hit, _⟩
    · have hclosed := ht.closing i hold
      rw [hopen] at hclosed
      cases hclosed
    · exact hit
  have hnext := continuation?_of_run h
  obtain ⟨_, _, hrun⟩ := run_of_seal ht h hseal
  refine ⟨(closed_of_run h).mpr (.inr hseal), ?_, honly, fun c hc => ?_, fun hmem => ?_⟩
  · exact Nat.lt_of_lt_of_le (Loop.Resumption.lt h) (Loop.length_le_turned_of_run h)
  · rcases hrun with ⟨_, hn⟩ | hn
    · rw [hnext, hn] at hc
      cases hc
    · rw [hnext, hn] at hc
      cases hc
      rfl
  · have hclosed : (s.step .turn).closed = true := (closed_of_run h).mpr (.inr hseal)
    refine ((leaving_step hl ht .turn).there hclosed).resolve_left ?_
    rintro ⟨i, hi⟩
    obtain rfl := honly i hi
    rcases hrun with ⟨_, hn⟩ | hn
    · rw [hnext, hn] at hi
      cases hi
    · -- a close that waits has not returned
      have hnone : s.closeReturn? .turn = none := by
        simp only [closeReturn?, resumed?, h, hn]
        rfl
      rw [hnone] at hmem
      cases hmem

end Close

/-! ## 4. From a close on -/

/-- **From the step on in which a close first runs** the tab, the records and the error of the
    inspection and the number of fetches stay as they are; nothing but a launch adds a task, and no
    background call goes on with its work; an upload that succeeds notes no return to the chat; and
    a further close returns at once and changes nothing else. The close itself returns only when
    every background call has ended. -/
theorem kept_of_close (client : Client) (delay : Binary64) (greeting : Option String)
    (files : FileSystem) (ms : List Move) (t : TaskId) :
    let s := (opened client delay greeting files).play ms
    s.closed = false ∧ s.resumption? = some ⟨t, .close, some .go⟩ →
    (s.step .turn).tasks.length = s.tasks.length ∧ ∀ ns,
      let z := (s.step .turn).play ns
      z.closed = true ∧ Kept s.state z.state ∧
      (∀ m, (∀ d, m ≠ .launch d) → (z.step m).tasks.length = z.tasks.length) ∧
      (∀ r, z.resumption? = some r → r.continuation.kind.isBackground = true →
        r.wake ≠ some .go) ∧
      (∀ m message, uploads.end? z m = some (.landed (.ok message)) →
        (z.step m).state.ingest.navigation = none) ∧
      (∀ u, z.resumption? = some ⟨u, .close, some .go⟩ →
        (z.step .turn).state = z.state ∧ (z.step .turn).closed = true ∧
        (z.step .turn).tracked = z.tracked ∧ (∀ i, i ≠ u → (z.step .turn).stage? i = z.stage? i) ∧
        (z.step .turn).stage? u = some (.ended (.returned none))) ∧
      (t ∈ closeReturns s (.turn :: ns) → z.Alone) := by
  rintro s ⟨hopen, hrun⟩
  have ht : Tidy s := tidy_play client delay greeting files ms
  have hl : Leaving s := leaving_play client delay greeting files ms
  have hseal : .seal ∈ (behaviour s.facts .close .go s.state).orders :=
    seal_mem_beginClose s.state hopen
  have hkept : Kept s.state (s.step .turn).state := by
    rw [state_of_run hrun]
    exact kept_of_kind (k := .closing) rfl (touches_behaviour .close .go ht.listeners)
  refine ⟨length_step_of_run hrun (.inr ((ht.tame .close .go).seals hseal).2.2.2), fun ns => ?_⟩
  intro z
  obtain ⟨hz, hkeptz, hby⟩ := (closedBy_of_close ht hopen hrun hl).play (tidy_step ht .turn)
    (leaving_step hl ht .turn) ns
  have hclosed : z.closed = true := hby.closed
  have hends : ∃ ends, Guarded uploads z ends := by
    have hall := guarded_play uploads client delay greeting files (ms ++ .turn :: ns)
    rw [play_append] at hall
    exact ⟨_, hall⟩
  obtain ⟨ends, hb⟩ := hends
  refine ⟨hclosed, hkept.trans hkeptz, fun m hm => length_step_of_closed hz hclosed hm,
    fun r hr hback hgo => ?_, fun m message hend => navigation_of_success hz hb hclosed hend,
    fun u hu => ?_, hby.alone⟩
  · obtain ⟨u, c, wake⟩ := r
    obtain rfl : wake = some .go := hgo
    cases hz.wake_of_isBackground hclosed hr hback
  · have hstep := turned_of_close hclosed hu
    have hk : Loop.Keeps z.popped (z.popped.finish u (.returned none)) := Loop.keeps_finish _ _ _
    have hstage : ∀ i, (z.step .turn).stage? i =
        if i = u then (z.stage? i).map fun _ => .ended (.returned none) else z.stage? i := by
      intro i
      rw [hstep]
      exact Loop.stage?_finish u (.returned none) z.popped i
    refine ⟨by rw [hstep]; exact hk.state, by rw [hstep]; exact hk.closed.trans hclosed,
      by rw [hstep]; exact hk.tracked, fun i hi => by rw [hstage, if_neg hi], ?_⟩
    obtain ⟨_, begun, cancelled, hq, _⟩ := Loop.resumption?_eq_some_iff.mp hu
    rw [hstage, if_pos rfl, hq]
    rfl

/-- A session whose turn it is to close, with a fetch that is yet to take up its reply. -/
def answeredAtClose : Session :=
  sample.play [.switch (.string "inspect"), .turn, .launch .close,
    .answer 0 (.common 200 [] none)]

/-- The close returns after the fetch has ended, and the reply is not taken up. -/
theorem kept_of_close_answered :
    1 ∈ closeReturns answeredAtClose [.turn, .turn, .turn, .turn, .turn] ∧
      ((answeredAtClose.step .turn).play [.turn, .turn, .turn, .turn]).Alone ∧
      Kept answeredAtClose.state
        ((answeredAtClose.step .turn).play [.turn, .turn, .turn, .turn]).state := by
  have hreturns : 1 ∈ closeReturns answeredAtClose [.turn, .turn, .turn, .turn, .turn] := by
    decide +kernel
  have hopen : answeredAtClose.closed = false := by decide +kernel
  obtain ⟨_, hkept, _, _, _, _, halone⟩ :=
    (kept_of_close _ _ _ _ [.switch (.string "inspect"), .turn, .launch .close,
      .answer 0 (.common 200 [] none)] 1 ⟨hopen, rfl⟩).2 [.turn, .turn, .turn, .turn]
  exact ⟨hreturns, halone hreturns, hkept⟩

end CodeSession.Session
