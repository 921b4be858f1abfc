import CodeSession.Proofs.Session.Lifecycle

/-!
# Returns to the chat

After an upload has succeeded, a background call returns to the chat.

* `Returns` -- a call is to return to the chat: it has neither ended nor been cancelled;
* `scheduled?`, `backToChat?` -- the return that a move schedules, and the one that it carries out;
* `returns_before` -- only an upload that succeeds in an open session schedules a return;
* `Noted`, `noted_step` -- a return under way is the one that is noted, so it is the only one, and
  the phase is `succeeded` or `idle`;
* `not_returns_of_upload?`, `not_returns_of_closed` -- an upload that is taken up and a close
  cancel every return.
-/

namespace CodeSession.Session

open Backend Folder

variable {s s' : Session} {m : Move} {t u : TaskId} {c : Call} {wake : Wake}
  {ends : List (Fate String)}

/-! ## 1. Returns under way -/

/-- Whether a call is to return to the chat: it has neither ended nor been cancelled. -/
def Returns (s : Session) (t : TaskId) : Prop :=
  (∃ c, s.continuation? t = some c ∧ c.kind = .navigation) ∧
    ∀ c begun, s.stage? t ≠ some (.queued c begun true)

/-- The return to the chat that a move carries out. -/
def backToChat? (s : Session) (m : Move) : Option TaskId :=
  match s.resumed? m with
  | some ⟨t, .navigating, some .go⟩ => some t
  | _ => none

/-- The return to the chat that a move schedules: an upload succeeds in it, and the session is
    open. -/
def scheduled? (s : Session) (m : Move) : Option TaskId :=
  if (uploads.end? s m).any Fate.isSuccess && !s.closed then some s.tasks.length else none

theorem Returns.lt (h : s.Returns t) : t < s.tasks.length := by
  obtain ⟨⟨c, hc, _⟩, _⟩ := h
  exact Loop.lt_of_continuation? hc

theorem Returns.not_over (h : s.Returns t) : ¬s.Over t := by
  rintro ⟨_, hnone⟩
  obtain ⟨⟨c, hc, _⟩, _⟩ := h
  rw [hnone] at hc
  cases hc

theorem returns_of_stage {st : Stage Call Result Failure} (hs : s.stage? t = some st)
    (hc : st.continuation? = some c) (hk : c.kind = .navigation)
    (hst : ∀ c begun, st ≠ .queued c begun true) : s.Returns t :=
  ⟨⟨c, (Loop.continuation?_of_stage? hs).trans hc, hk⟩, fun c begun h =>
    hst c begun (Option.some.inj (hs.symm.trans h))⟩

/-- A return to the chat has yet to set out, sleeps, or is called. -/
theorem Returns.stage (h : s.Returns t) (ht : Tidy s) :
    s.stage? t = some (.queued .navigate false false) ∨
    (∃ due rank, s.stage? t = some (.waiting .navigating (.timer due rank))) ∨
    s.stage? t = some (.queued .navigating true false) := by
  obtain ⟨⟨c, hc, hk⟩, hspared⟩ := h
  obtain ⟨st, hs, hst⟩ := Loop.continuation?_eq_some_iff.mp hc
  have hplaced := ht.placed t st hs
  cases st with
  | ended e => cases hst
  | waiting c' v =>
    cases hst
    cases c with
    | navigate => cases v <;> cases hplaced
    | navigating =>
      cases v with
      | timer due rank => exact .inr (.inl ⟨due, rank, hs⟩)
      | _ => cases hplaced
    | _ => cases hk
  | queued c' begun cancelled =>
    cases hst
    cases cancelled with
    | true => exact absurd hs (hspared c begun)
    | false =>
      cases c with
      | navigate =>
        cases begun with
        | false => exact .inl hs
        | true => cases hplaced.1
      | navigating =>
        cases begun with
        | false => cases hplaced
        | true => exact .inr (.inr hs)
      | _ => cases hk

theorem not_returns_of_cancel {st : Stage Call Result Failure} (hs : s.stage? t = some st.cancel) :
    ¬s.Returns t := by
  rintro ⟨⟨c, hc, _⟩, hspared⟩
  cases st with
  | queued k begun cancelled => exact hspared k begun hs
  | waiting k v => exact hspared k true hs
  | ended e =>
    rw [Loop.continuation?_of_stage? hs] at hc
    cases hc

/-- In a closed session every return to the chat is cancelled. -/
theorem not_returns_of_closed (ht : Tidy s) (h : s.closed = true) (t : TaskId) : ¬s.Returns t := by
  rintro ⟨⟨c, hc, hk⟩, hspared⟩
  obtain ⟨begun, hs⟩ := ht.doomed h t c hc (by rw [hk]; rfl)
  exact hspared c begun hs

/-- The call that is run was under way and not cancelled, if it goes on or is woken to go on. -/
theorem returns_of_run (h : s.resumption? = some ⟨t, c, some .go⟩) (hk : c.kind = .navigation) :
    s.Returns t := by
  obtain ⟨_, begun, cancelled, hs, hw⟩ := Loop.resumption?_eq_some_iff.mp h
  refine returns_of_stage hs rfl hk fun c' begun' e => ?_
  cases e
  cases begun <;> cases hw

/-! ## 2. What moves do to them -/

theorem scheduled?_of_calm (h : Calm s m s') : s.scheduled? m = none := by
  unfold scheduled?
  rw [Guard.end?_of_calm h]
  rfl

theorem scheduled?_of_run (h : s.resumption? = some ⟨t, c, some wake⟩) : s.scheduled? .turn =
    if (uploadFate? s.facts c wake s.state).any Fate.isSuccess && !s.closed then
      some s.tasks.length else none := by
  rw [scheduled?, Guard.end?_of_run h]
  rfl

/-- A move that carries out a return to the chat runs it, in an open session. -/
theorem run_of_backToChat? (ht : Tidy s) (h : s.backToChat? m = some t) :
    m = .turn ∧ s.resumption? = some ⟨t, .navigating, some .go⟩ ∧ s.closed = false := by
  unfold backToChat? at h
  split at h
  · rename_i u hr
    cases h
    obtain rfl := turn_of_resumed? hr
    refine ⟨rfl, hr, ?_⟩
    cases hc : s.closed with
    | false => rfl
    | true => exact absurd (returns_of_run hr rfl) (not_returns_of_closed ht hc _)
  · cases h

/-- **A return to the chat switches the tab and leaves the status idle**, and it is over. -/
theorem step_of_backToChat? (ht : Tidy s) (h : s.backToChat? m = some t) :
    (s.step m).state = { s.state with
      ingest := s.state.ingest.prepare
      tabs := { s.state.tabs with active := .chat } } ∧ (s.step m).Over t := by
  obtain ⟨rfl, hrun, hopen⟩ := run_of_backToChat? ht h
  have hbehaviour : behaviour s.facts .navigating .go s.state = navigateNow s.facts s.state := rfl
  have hclosed : s.facts.closed = false := hopen
  constructor
  · rw [state_of_run hrun, hbehaviour, navigateNow_eq ht.listeners, hclosed]
    rfl
  · refine ⟨Nat.lt_of_lt_of_le (Loop.Resumption.lt hrun) (Loop.length_le_turned_of_run hrun), ?_⟩
    rw [continuation?_of_run hrun, hbehaviour, navigateNow_eq ht.listeners]
    rfl

/-- **Nothing but the user and the returns to the chat changes the tabs.** -/
theorem tabs_step (ht : Tidy s) (hm : ∀ target, m ≠ .switch target)
    (hback : s.backToChat? m = none) : (s.step m).state.tabs = s.state.tabs := by
  rcases calm_or_run ht.listeners m with hc | ⟨rfl, u, c, wake, hrun⟩
  · rw [hc.state]
    exact Move.tabs_onState s.state (.inr hm)
  · rw [state_of_run hrun]
    by_cases hk : c.kind = .navigation
    · cases c with
      | navigate => cases wake <;> rfl
      | navigating =>
        cases wake with
        | go =>
          have hsome : s.backToChat? .turn = some u := by simp only [backToChat?, resumed?, hrun]
          rw [hsome] at hback
          cases hback
        | cancelled => rfl
      | _ => cases hk
    · have htouches : Touches c.kind s.state (behaviour s.facts c wake s.state).state :=
        touches_behaviour c wake ht.listeners
      generalize (behaviour s.facts c wake s.state).state = w at htouches ⊢
      generalize c.kind = k at htouches hk
      cases htouches with
      | navigation ingest tabs h => exact absurd rfl hk
      | _ => rfl

/-- A run whose last order spawns a call adds one call, which is queued. -/
theorem spawned_of_run {orders : List (Order Call)} {name : String} {k : Call}
    (h : s.resumption? = some ⟨t, c, some wake⟩) (hopen : s.closed = false)
    (horders : (behaviour s.facts c wake s.state).orders = orders ++ [.spawn name k])
    (hspawn : ∀ name k, .spawn name k ∉ orders) (hseal : .seal ∉ orders) :
    (s.step .turn).tasks.length = s.tasks.length + 1 ∧
      (s.step .turn).stage? s.tasks.length = some (.queued k false false) := by
  have hne : s.tasks.length ≠ t := Nat.ne_of_gt (Loop.Resumption.lt h)
  have hrun := Loop.turned_of_run (b := behaviour) h
  rw [Loop.runTask_eq] at hrun
  -- the loop before the last order
  obtain ⟨l, hl⟩ : ∃ l : Session, l = orders.foldl Loop.obey
    { s.popped with state := (behaviour s.facts c wake s.state).state } := ⟨_, rfl⟩
  have hordered : s.popped.ordered behaviour c wake = l.add name true k := by
    have hlopen : l.closed = false := by
      rw [← Bool.not_eq_true, hl, Loop.closed_foldl_obey]
      rintro (hc | hc)
      · rw [show s.closed = true from hc] at hopen
        cases hopen
      · exact hseal hc
    have hpopped : s.popped.ordered behaviour c wake =
        (behaviour s.facts c wake s.state).orders.foldl Loop.obey
          { s.popped with state := (behaviour s.facts c wake s.state).state } := rfl
    rw [hpopped, horders, List.foldl_append, List.foldl_cons, List.foldl_nil, ← hl]
    exact Loop.obey_spawn_open hlopen name k
  have hlength : l.tasks.length = s.tasks.length := by
    rw [hl]
    exact Loop.length_foldl_obey_eq (.inr hspawn)
  rw [step_turn, hrun, hordered]
  constructor
  · rw [(Loop.keeps_goOn _ _ _).length]
    simp [Loop.add, hlength]
  · rw [Loop.stage?_goOn, if_neg hne, Loop.stage?_add, if_pos hlength.symm]

theorem notMem_cancels (i : Option TaskId) :
    (∀ name k, Order.spawn name k ∉ i.toList.map (Order.cancel (κ := Call))) ∧
      Order.seal ∉ i.toList.map (Order.cancel (κ := Call)) := by
  cases i <;> simp

/-- A move that schedules a return to the chat runs a call that takes up an upload or has one under
    way. The call ends, and its last order spawns the return. -/
theorem run_of_scheduled? (ht : Tidy s) (hb : Guarded uploads s ends)
    (h : s.scheduled? m = some t) : m = .turn ∧ s.closed = false ∧ t = s.tasks.length ∧
      ∃ u c wake, s.resumption? = some ⟨u, c, some wake⟩ ∧
        (behaviour s.facts c wake s.state).next.continuation? = none ∧
        (s.upload? .turn = some u ∧ s.state.ingest.status.phase ≠ .uploading ∨ s.Uploads u) ∧
        ∃ orders, (behaviour s.facts c wake s.state).orders =
            orders ++ [.spawn "ingest-auto-navigate" .navigate] ∧
          (∀ name k, .spawn name k ∉ orders) ∧ .seal ∉ orders := by
  rcases calm_or_run ht.listeners m with hc | ⟨rfl, u, c, wake, hrun⟩
  · rw [scheduled?_of_calm hc] at h
    cases h
  · have hup := upload?_of_run hrun
    have hingest := ingestRun_of_run ht hb hrun
    rw [scheduled?_of_run hrun] at h
    split at h
    · rename_i hyes
      rw [Bool.and_eq_true, Bool.not_eq_true'] at hyes
      obtain ⟨hsuccess, hopen⟩ := hyes
      refine ⟨rfl, hopen, (Option.some.inj h).symm, u, c, wake, hrun, ?_⟩
      have hreturn : returnOrders (uploadFate? s.facts c wake s.state) =
        [.spawn "ingest-auto-navigate" .navigate] := if_pos hsuccess
      generalize accepts c wake (behaviour s.facts c wake s.state) = begins at hingest hup
      generalize uploadFate? s.facts c wake s.state = f at hingest hsuccess hreturn
      cases hingest with
      | aside f hc hf hstatus hnavigation hcancel hspawn hnext hover =>
        cases f with
        | none => cases hsuccess
        | some f => rw [Option.any_some, Fate.isSuccess_eq_false hf] at hsuccess; cases hsuccess
      | home hc hwake hingest horders hover => cases hsuccess
      | begun f hc hfree hstatus hnavigation horders hnext hover =>
        rw [hreturn] at horders
        refine ⟨hover fun e => ?_, .inl ⟨hup, hfree⟩, _, horders,
          notMem_cancels s.state.ingest.navigation⟩
        subst e
        cases hsuccess
      | ended f hc hbusy hstatus hnavigation horders hover =>
        rw [hreturn] at horders
        have huploads := (uploads.holds_iff (Loop.Resumption.continuation?_eq hrun)).mpr hc
        exact ⟨hover, .inr huploads, [], horders, fun _ _ h => (by cases h), fun h => by cases h⟩
    · cases h

/-- **A success in an open session schedules a return to the chat**, the call that is added. -/
theorem stage?_of_scheduled? (ht : Tidy s) (hb : Guarded uploads s ends)
    (h : s.scheduled? m = some t) : m = .turn ∧ s.closed = false ∧ t = s.tasks.length ∧
      (s.step m).tasks.length = s.tasks.length + 1 ∧
      (s.step m).stage? t = some (.queued .navigate false false) := by
  obtain ⟨rfl, hopen, rfl, u, c, wake, hrun, _, _, orders, horders, hspawn, hseal⟩ :=
    run_of_scheduled? ht hb h
  exact ⟨rfl, hopen, rfl, spawned_of_run hrun hopen horders hspawn hseal⟩

/-- Nothing but a success in an open session adds a return to the chat. -/
theorem scheduled?_of_spawn (ht : Tidy s) (hb : Guarded uploads s ends)
    (hrun : s.resumption? = some ⟨u, c, some wake⟩) (hopen : s.closed = false) {name : String}
    {k : Call} (hspawn : .spawn name k ∈ (behaviour s.facts c wake s.state).orders) :
    s.scheduled? .turn = some s.tasks.length := by
  have hreturn : ∀ f, .spawn name k ∈ returnOrders f → f.any Fate.isSuccess = true := by
    intro f hmem
    unfold returnOrders at hmem
    split at hmem
    · rename_i h
      exact h
    · cases hmem
  have hingest := ingestRun_of_run ht hb hrun
  rw [scheduled?_of_run hrun, hopen]
  generalize accepts c wake (behaviour s.facts c wake s.state) = begins at hingest
  generalize uploadFate? s.facts c wake s.state = f at hingest ⊢
  have hsuccess : f.any Fate.isSuccess = true := by
    cases hingest with
    | aside f hc hf hstatus hnavigation hcancel hno hnext hover => exact absurd hspawn (hno name k)
    | home hc hwake hingest horders hover =>
      rw [horders] at hspawn
      cases hspawn
    | begun f hc hfree hstatus hnavigation horders hnext hover =>
      rw [horders] at hspawn
      refine hreturn f ((List.mem_append.mp hspawn).resolve_left ?_)
      exact (notMem_cancels s.state.ingest.navigation).1 name k
    | ended f hc hbusy hstatus hnavigation horders hover => exact hreturn _ (horders ▸ hspawn)
  rw [hsuccess]
  rfl

/-- **A return to the chat was under way before, or the move schedules it.** -/
theorem returns_before (ht : Tidy s) (hb : Guarded uploads s ends) (h : (s.step m).Returns t) :
    s.Returns t ∨ s.scheduled? m = some t := by
  have hcancel := fun st (hs : (s.step m).stage? t = some (Stage.cancel st)) =>
    not_returns_of_cancel hs h
  obtain ⟨⟨c', hc', hk⟩, hspared⟩ := h
  obtain ⟨st', hs', hst'⟩ := Loop.continuation?_eq_some_iff.mp hc'
  rcases calm_or_run ht.listeners m with hc | ⟨rfl, u, c, wake, hrun⟩
  · refine .inl ?_
    rcases hc.stage_before hs' with ⟨st, hs, hd | rfl⟩ | ⟨_, c, harr, rfl⟩
    · cases hd with
      | stirs hstir =>
        rw [hstir.continuation?] at hst'
        refine returns_of_stage hs hst' hk fun k begun e => ?_
        subst e
        cases hstir
        exact hspared k begun hs'
      | revoked hcont hrev =>
        rw [Stage.continuation?_cancel, hcont] at hst'
        cases hst'
        have hbackground := Call.isBackground_of_isRevocable hrev
        rw [hk] at hbackground
        cases hbackground
      | answered r hreq =>
        cases hst'
        rw [Call.kind_take] at hk
        exact returns_of_stage hs rfl hk fun k begun e => by cases e
      | delivered selected hpath =>
        cases hst'
        rw [Call.kind_takeFiles] at hk
        exact returns_of_stage hs rfl hk fun k begun e => by cases e
    · cases hst'
    · cases hst'
      cases harr with
      | launched d h => cases d <;> cases hk
      | issued h => cases hk
  · rcases Loop.stage?_turned_of_run hrun hs' with ⟨rfl, he⟩ | ⟨_, st, hs, ⟨_, he⟩ | ⟨_, he⟩⟩ |
      ⟨hle, hopen, name, k, x, hspawn, he⟩
    · -- a call that goes on was not cancelled
      refine .inl ?_
      rw [he] at hst'
      obtain ⟨p, hp⟩ := Loop.exists_pause_of_after hst'
      rw [((ht.tame c wake).kind p c' hp).1] at hk
      cases wake with
      | go => exact returns_of_run hrun hk
      | cancelled => cases hp
    · exact (hcancel st (he ▸ hs')).elim
    · subst he
      exact .inl (returns_of_stage hs hst' hk fun k begun e => hspared k begun (e ▸ hs'))
    · refine .inr ?_
      have hscheduled := scheduled?_of_spawn ht hb hrun hopen hspawn
      have hlength := (stage?_of_scheduled? ht hb hscheduled).2.2.2.1
      have hlt : t < s.tasks.length + 1 := hlength ▸ Loop.lt_of_stage? hs'
      rw [hscheduled, Nat.le_antisymm (Nat.le_of_lt_succ hlt) hle]

/-- A return to the chat that is over or cancelled does not come up again. -/
theorem not_returns_step (ht : Tidy s) (hb : Guarded uploads s ends) (hlt : t < s.tasks.length)
    (h : ¬s.Returns t) (m : Move) : ¬(s.step m).Returns t := by
  intro hr
  rcases returns_before ht hb hr with hold | hnew
  · exact h hold
  · exact Nat.ne_of_lt hlt (stage?_of_scheduled? ht hb hnew).2.2.1

theorem returns_of_backToChat? (ht : Tidy s) (h : s.backToChat? m = some t) : s.Returns t :=
  returns_of_run (run_of_backToChat? ht h).2.1 rfl

theorem length_le_step (ht : Tidy s) (m : Move) : s.tasks.length ≤ (s.step m).tasks.length := by
  rcases calm_or_run ht.listeners m with hc | ⟨rfl, u, c, wake, hrun⟩
  · exact hc.length
  · exact Loop.length_le_turned_of_run hrun

/-- A return to the chat that is over or cancelled is not carried out. -/
theorem notMem_log_backToChat? (ht : Tidy s) (hb : Guarded uploads s ends)
    (hlt : t < s.tasks.length) (h : ¬s.Returns t) (ns : List Move) :
    t ∉ log backToChat? s ns := by
  induction ns generalizing s ends with
  | nil => exact List.not_mem_nil
  | cons m ns ih =>
    rw [log_cons, List.mem_append, Option.mem_toList]
    rintro (hm | hm)
    · exact h (returns_of_backToChat? ht hm)
    · have hlt' : t < (s.step m).tasks.length := Nat.lt_of_lt_of_le hlt (length_le_step ht m)
      exact ih (tidy_step ht m) (guarded_step hb ht m) hlt' (not_returns_step ht hb hlt h m) hm

/-! ## 3. One return at a time -/

/-- A return to the chat that is under way is noted, and the phase is that of a success or idle. -/
structure Noted (s : Session) : Prop where
  noted : ∀ t, s.Returns t → s.state.ingest.navigation = some t
  phase : ∀ t, s.Returns t →
    s.state.ingest.status.phase = .succeeded ∨ s.state.ingest.status.phase = .idle

theorem Noted.unique (h : Noted s) (ht : s.Returns t) (hu : s.Returns u) : t = u :=
  Option.some.inj ((h.noted t ht).symm.trans (h.noted u hu))

/-- **An upload that is taken up cancels the return to the chat that is under way.** -/
theorem not_returns_of_upload? (hn : Noted s) (ht : Tidy s) (hb : Guarded uploads s ends)
    (hup : s.upload? m = some u) (hlt : t < s.tasks.length) : ¬(s.step m).Returns t := by
  intro hr
  rcases calm_or_run ht.listeners m with hc | ⟨rfl, v, c, wake, hrun⟩
  · rw [upload?_of_calm hc] at hup
    cases hup
  · have hold : s.Returns t := (returns_before ht hb hr).resolve_right fun hnew =>
      Nat.ne_of_lt hlt (stage?_of_scheduled? ht hb hnew).2.2.1
    have hyes : accepts c wake (behaviour s.facts c wake s.state) = true := by
      rw [upload?_of_run hrun] at hup
      split at hup
      · rename_i h
        exact h
      · cases hup
    have hingest := ingestRun_of_run ht hb hrun
    rw [hyes] at hingest
    generalize uploadFate? s.facts c wake s.state = f at hingest
    cases hingest with
    | begun f hc hfree hstatus hnavigation horders hnext hover =>
      -- the one that is noted is among the orders
      have hmem : .cancel t ∈ (behaviour s.facts c wake s.state).orders := by
        rw [horders, hn.noted t hold]
        exact List.mem_append_left _ (List.mem_singleton.mpr rfl)
      obtain ⟨c', hc', hk⟩ := hr.1
      obtain ⟨st', hs', hst'⟩ := Loop.continuation?_eq_some_iff.mp hc'
      rcases Loop.stage?_turned_of_run hrun hs' with ⟨rfl, _⟩ | ⟨_, st, _, ⟨_, he⟩ | ⟨hno, _⟩⟩ |
        ⟨hle, _⟩
      · obtain ⟨⟨c'', hc'', hk'⟩, _⟩ := hold
        obtain rfl := Option.some.inj ((Loop.Resumption.continuation?_eq hrun).symm.trans hc'')
        have hfiles : c.files?.isSome = true := by
          simp only [accepts, Bool.and_eq_true] at hyes
          exact hyes.1.2
        cases c <;> first | exact absurd hfiles Bool.false_ne_true | cases hk'
      · exact not_returns_of_cancel (he ▸ hs') hr
      · exact hno hmem
      · exact absurd hlt (Nat.not_lt.mpr hle)

theorem Noted.calm (hn : Noted s) (ht : Tidy s) (hb : Guarded uploads s ends)
    (hc : Calm s m (s.step m)) : Noted (s.step m) := by
  have hold : ∀ t, (s.step m).Returns t → s.Returns t := fun t h => by
    refine (returns_before ht hb h).resolve_right fun hnew => ?_
    rw [scheduled?_of_calm hc] at hnew
    cases hnew
  have hingest : (s.step m).state.ingest.navigation = s.state.ingest.navigation ∧
      ((s.step m).state.ingest.status.phase = s.state.ingest.status.phase ∨
        (s.step m).state.ingest.status.phase = s.state.ingest.acknowledge.status.phase) := by
    rw [hc.ingest]
    cases m with
    | acknowledge =>
      refine ⟨?_, .inr rfl⟩
      show s.state.ingest.acknowledge.navigation = _
      unfold Ingest.acknowledge
      split <;> rfl
    | _ => exact ⟨rfl, .inl rfl⟩
  obtain ⟨hnavigation, hphase⟩ := hingest
  refine ⟨fun t h => hnavigation ▸ hn.noted t (hold t h), fun t h => ?_⟩
  have hbefore := hn.phase t (hold t h)
  rcases hphase with hphase | hphase
  · rw [hphase]
    exact hbefore
  · have hfree : s.state.ingest.status.phase ≠ .uploading := by
      rcases hbefore with e | e <;> rw [e] <;> decide
    exact .inr (hphase.trans (Ingest.phase_prepare hfree))

theorem Noted.run (hn : Noted s) (ht : Tidy s) (hb : Guarded uploads s ends)
    (hrun : s.resumption? = some ⟨u, c, some wake⟩) : Noted (s.step .turn) := by
  have hstate := state_of_run hrun
  have hup := upload?_of_run hrun
  have hscheduled := scheduled?_of_run hrun
  have hbefore := fun t (h : (s.step .turn).Returns t) => returns_before ht hb h
  have hover := continuation?_of_run hrun
  have hingest := ingestRun_of_run ht hb hrun
  generalize accepts c wake (behaviour s.facts c wake s.state) = begins at hingest hup
  generalize uploadFate? s.facts c wake s.state = f at hingest hscheduled
  -- an end that schedules a return notes it
  have hland : ∀ old, (s.step .turn).state.ingest.navigation = returnNoted s.facts f old →
      (f.any Fate.isSuccess = true → (s.step .turn).state.ingest.status.phase = .succeeded) →
      (∀ t, (s.step .turn).Returns t → ¬s.Returns t) → Noted (s.step .turn) := by
    intro old hnavigation hphase hnone
    have hsuccess : ∀ t, (s.step .turn).Returns t →
        f.any Fate.isSuccess = true ∧ s.closed = false ∧ t = s.tasks.length := by
      intro t h
      have hnew := (hbefore t h).resolve_left (hnone t h)
      rw [hscheduled] at hnew
      split at hnew
      · rename_i hyes
        rw [Bool.and_eq_true, Bool.not_eq_true'] at hyes
        exact ⟨hyes.1, hyes.2, (Option.some.inj hnew).symm⟩
      · cases hnew
    refine ⟨fun t h => ?_, fun t h => .inl (hphase (hsuccess t h).1)⟩
    obtain ⟨hyes, hopen, rfl⟩ := hsuccess t h
    rw [hnavigation, returnNoted, if_pos hyes]
    exact Facts.spawned?_eq_some_iff.mpr ⟨hopen, rfl⟩
  -- any other run schedules none
  have hkeep : f.any Fate.isSuccess = false →
      ∀ t, (s.step .turn).Returns t → s.Returns t := by
    intro hno t h
    refine (hbefore t h).resolve_right fun hnew => ?_
    rw [hscheduled, hno] at hnew
    cases hnew
  cases hingest with
  | aside f hc hf hstatus hnavigation hcancel hspawn hnext hover' =>
    have hno : f.any Fate.isSuccess = false := by
      cases f with
      | none => rfl
      | some f => exact Fate.isSuccess_eq_false hf
    rw [← hstate] at hstatus hnavigation
    refine ⟨fun t h => ?_, fun t h => ?_⟩
    · rw [hnavigation]
      exact hn.noted t (hkeep hno t h)
    · rw [hstatus]
      exact hn.phase t (hkeep hno t h)
  | home hc hwake hingest horders hover' =>
    -- the return that was under way is the one that ran
    subst hc hwake
    have hnone : ∀ t, ¬(s.step .turn).Returns t := by
      intro t h
      obtain rfl := hn.unique (hkeep rfl t h) (returns_of_run hrun rfl)
      obtain ⟨⟨c', hc', _⟩, _⟩ := h
      rw [hover, hover'] at hc'
      cases hc'
    exact ⟨fun t h => absurd h (hnone t), fun t h => absurd h (hnone t)⟩
  | begun f hc hfree hstatus hnavigation horders hnext hover' =>
    rw [← hstate] at hstatus hnavigation
    refine hland none hnavigation (fun hyes => ?_) fun t h hold => ?_
    · cases f with
      | none => cases hyes
      | some f =>
        cases hf : f.status? with
        | none => rw [Option.any_some, Fate.isSuccess_eq_false hf] at hyes; cases hyes
        | some status =>
          rw [hstatus, Option.bind_some, hf, Option.getD_some, Fate.status?_eq_some hf]
          exact if_pos hyes
    · exact not_returns_of_upload? hn ht hb hup hold.lt h
  | ended f hc hbusy hstatus hnavigation horders hover' =>
    rw [← hstate] at hstatus hnavigation
    refine hland _ hnavigation (fun hyes => ?_) fun t h hold => ?_
    · rw [Fate.status?_eq_some hstatus]
      exact if_pos hyes
    · rcases hn.phase t hold with e | e <;> rw [e] at hbusy <;> cases hbusy

/-- **Every step keeps the return to the chat noted.** -/
theorem noted_step (hn : Noted s) (ht : Tidy s) (hb : Guarded uploads s ends) (m : Move) :
    Noted (s.step m) := by
  rcases calm_or_run ht.listeners m with hc | ⟨rfl, u, c, wake, hrun⟩
  · exact hn.calm ht hb hc
  · exact hn.run ht hb hrun

/-! ## 4. Returns and their successes -/

/-- The returns to the chat against those that were scheduled and carried out. -/
structure Accounted (s : Session) (scheduled carriedOut : List TaskId) : Prop where
  scheduled : ∀ t, s.Returns t → t ∈ scheduled
  finished : ∀ t ∈ carriedOut, s.Over t

theorem accounted_step {scheduled carriedOut : List TaskId} (h : Accounted s scheduled carriedOut)
    (ht : Tidy s) (hb : Guarded uploads s ends) (m : Move) :
    Accounted (s.step m) (scheduled ++ (s.scheduled? m).toList)
      (carriedOut ++ (s.backToChat? m).toList) := by
  refine ⟨fun t hr => ?_, fun t hmem => ?_⟩
  · rcases returns_before ht hb hr with hold | hnew
    · exact List.mem_append_left _ (h.scheduled t hold)
    · exact List.mem_append_right _ (Option.mem_toList.mpr hnew)
  · rcases List.mem_append.mp hmem with hmem | hmem
    · exact over_step ht (h.finished t hmem) m
    · exact (step_of_backToChat? ht (Option.mem_toList.mp hmem)).2

/-- **After every run at most one return to the chat is under way, and each was scheduled.** -/
theorem accounted_play (client : Client) (delay : Binary64) (greeting : Option String)
    (files : FileSystem) (ms : List Move) :
    Noted ((opened client delay greeting files).play ms) ∧
    Accounted ((opened client delay greeting files).play ms)
      (log scheduled? (opened client delay greeting files) ms)
      (log backToChat? (opened client delay greeting files) ms) := by
  induction ms using List.reverseRecOn with
  | nil =>
    have hnone : ∀ t, ¬(opened client delay greeting files).Returns t := fun t h =>
      absurd h.lt (Nat.not_lt_zero t)
    exact ⟨⟨fun t h => absurd h (hnone t), fun t h => absurd h (hnone t)⟩,
      ⟨fun t h => absurd h (hnone t), fun t h => by cases h⟩⟩
  | append_singleton ms m ih =>
    have ht := tidy_play client delay greeting files ms
    have hb := guarded_play uploads client delay greeting files ms
    rw [play_append, log_append, log_append]
    simp only [play_cons, play_nil, log_cons, log_nil, List.append_nil]
    exact ⟨noted_step ih.1 ht hb m, accounted_step ih.2 ht hb m⟩

end CodeSession.Session
