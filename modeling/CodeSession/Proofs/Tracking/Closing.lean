import CodeSession.Proofs.Tracking.Idle

/-!
# Closing is complete

What a user of a tracked set can rely on once a call to close it has begun, whatever the tasks do when
they are cancelled and however many calls overlap.

* `closed_iff` -- the set is closed from the first step of a call to close it on;
* `spawned_of_closed`, `quiet_of_closed` -- from then on no task is spawned; once nothing is tracked
  nothing is, and nothing is logged;
* `Dropped`, `not_ran_of_dropped` -- a task that is cancelled before it has begun is never run;
* `cancelled_of_sealed?` -- a call to close the set cancels what is tracked;
* `closing_of_run` -- closing is complete.
-/

namespace CodeSession.Tracking

open Loop

variable {σ κ ρ ε : Type} {b : Behaviour σ κ ρ ε} {duty : κ → Duty} {l l' : Loop σ κ ρ ε}
  {t : TaskId} {done es : List TaskId} {text : ε → String} {m : Move σ κ}

/-! ## 1. The set is closed -/

/-- The orders of a run seal the set if it is the first of a call to close it. -/
theorem seal_mem_orders_iff (hb : Staffed b duty) (hfit : Fit duty l) {k : κ} {wake : Wake}
    (hres : l.resumption? = some ⟨t, k, some wake⟩) :
    .seal ∈ (b l.facts k wake l.state).orders ↔ duty k = .close := by
  by_cases hk : duty k = .work
  · refine ⟨fun hmem => ?_, fun hclose => by rw [hk] at hclose; cases hclose⟩
    obtain ⟨_, _, he, _⟩ := (hb.work l.facts k wake l.state hk).orders _ hmem
    cases he
  · cases (hfit.resumed hk hres).1
    cases hduty : duty k with
    | work => exact absurd hduty hk
    | idle => rw [(hb.idle l.facts k l.state hduty).1]; simp
    | closing => rw [(hb.closing l.facts k l.state hduty).1]; simp
    | close =>
      obtain ⟨ids, _, hcases⟩ := hb.close l.facts k l.state hduty
      split at hcases
      · rw [hcases.1]; simp [closeOrders]
      · rw [hcases.1]; simp [closeOrders]

/-- **A step closes the set if it is the first of a call to close it.** -/
theorem closed_step (hb : Staffed b duty) (hfit : Fit duty l) (m : Move σ κ) :
    (step b duty l m).closed = true ↔ l.closed = true ∨ (sealed? duty l m).isSome = true := by
  cases m with
  | turn =>
    show (l.turned b).closed = true ↔ _
    unfold sealed?
    cases hres : l.resumption? with
    | none => rw [(rests_turned hres).closed]; simp
    | some r =>
      obtain ⟨t, k, wake⟩ := r
      cases wake with
      | none =>
        rw [turned_of_drop hres, (keeps_finish t .cancelled l.popped).closed]
        simp [popped]
      | some wake =>
        rw [closed_turned_of_run hres, seal_mem_orders_iff hb hfit hres]
        dsimp only
        split <;> simp [*]
  | spawn name k =>
    show (if duty k = .work then l.obey (.spawn name k) else l).closed = true ↔ _
    split
    · rw [closed_obey]; simp [sealed?]
    · simp [sealed?]
  | call k =>
    show (if duty k = .idle ∨ duty k = .close then l.launch k else l).closed = true ↔ _
    split <;> simp [sealed?, launch, add]
  | signal t =>
    show (l.signal t id).closed = true ↔ _
    rw [(keeps_signal t id l).closed]
    simp [sealed?]
  | cancel t =>
    show (if t ∈ l.tracked then l.cancel t else l).closed = true ↔ _
    split
    · rw [(keeps_cancel t l).closed]; simp [sealed?]
    · simp [sealed?]
  | change x => simp [step, sealed?]
  | wait ticks => simp [step, sealed?, fireAt, push]

/-- **The set is closed from the first step of a call to close it on.** -/
theorem closed_iff (hb : Staffed b duty) (x : σ) (ms : List (Move σ κ)) :
    (play b duty (Loop.start x) ms).closed = true ↔
      log b duty (sealed? duty) (Loop.start x) ms ≠ [] := by
  refine (play_log_induction (P := fun z ts => (∃ done, Books duty z done) ∧
    (z.closed = true ↔ ts ≠ [])) ⟨⟨[], books_start x⟩, ?_⟩ (fun z ts m hz => ?_) ms).2
  · simp [Loop.start]
  · obtain ⟨⟨done, hbooks⟩, hiff⟩ := hz
    refine ⟨⟨_, books_step hb hbooks m⟩, ?_⟩
    rw [closed_step hb hbooks.fit, hiff]
    cases sealed? duty z m <;> simp

/-! ## 2. After it is closed -/

/-- What holds of a loop whose set is closed, and of every loop that comes of it. -/
theorem closed_invariant (hb : Staffed b duty) {P : Loop σ κ ρ ε → Prop}
    (hact : ∀ {z z' : Loop σ κ ρ ε} {free : Prop} {done es : List TaskId}, Books duty z done →
      z.closed = true → P z → Act free duty z es z' → P z')
    (hbooks : Books duty l done) (hclosed : l.closed = true) (hl : P l) (ns : List (Move σ κ)) :
    P (play b duty l ns) := by
  refine (play_induction (P := fun z => (∃ done, Books duty z done) ∧ z.closed = true ∧ P z)
    ⟨⟨done, hbooks⟩, hclosed, hl⟩ (fun z m hz => ?_) ns).2.2
  obtain ⟨⟨done, hbooks⟩, hz⟩ := hz
  refine ⟨⟨_, books_step hb hbooks m⟩, hbooks.invariant (P := fun z => z.closed = true ∧ P z)
    (acts_step hb hbooks.fit m) (fun hbooks₁ hz₁ hz₁₂ => ?_) hz⟩
  exact ⟨closed_act hz₁₂ hz₁.1, hact hbooks₁ hz₁.1 hz₁.2 hz₁₂⟩

/-- **A closed set takes no task.** -/
theorem spawned_of_closed (hb : Staffed b duty) (hbooks : Books duty l done)
    (hclosed : l.closed = true) (ns : List (Move σ κ)) (t : TaskId) :
    (play b duty l ns).Spawned t ↔ l.Spawned t :=
  closed_invariant (P := fun z => z.Spawned t ↔ l.Spawned t) hb
    (fun _ hc hz hact => (spawned_act hact (fun _ => hc) t).trans hz) hbooks hclosed Iff.rfl ns

/-- Unless work is spawned, an empty set stays so, and nothing is logged. -/
theorem quiet_act {free : Prop} (hbooks : Books duty l done) (hfree : free → l.closed = true)
    (hempty : l.tracked = []) (hact : Act free duty l es l') :
    l'.tracked = [] ∧ l'.failures = l.failures := by
  refine ⟨List.sublist_nil.mp (hempty ▸ tracked_sublist_act hact hfree), ?_⟩
  rcases hact.entry_cases with ⟨_, ha⟩ | ⟨_, name, isTracked, k, _, rfl⟩ |
    ⟨_, u, k, begun, cancelled, e, _, rfl⟩ | ⟨u, _, hhead, rfl⟩
  · exact ha.failures
  · rfl
  · unfold finish
    split <;> rfl
  · -- an end that is settled is that of a tracked task
    have hmem := (hbooks.accounts.of_note (List.mem_of_mem_head? hhead)).1
    rw [hempty] at hmem
    cases hmem

/-- **A closed set that is empty stays so**, and nothing is logged. -/
theorem quiet_of_closed (hb : Staffed b duty) (hbooks : Books duty l done)
    (hclosed : l.closed = true) (hempty : l.tracked = []) (ns : List (Move σ κ)) :
    (play b duty l ns).tracked = [] ∧ (play b duty l ns).failures = l.failures := by
  refine closed_invariant (P := fun z => z.tracked = [] ∧ z.failures = l.failures) hb
    (fun hz hc hquiet hact => ?_) hbooks hclosed ⟨hempty, rfl⟩ ns
  rw [← hquiet.2]
  exact quiet_act hz (fun _ => hc) hquiet.1 hact

/-! ## 3. Tasks that have not begun -/

/-- Whether a task has been cancelled before it began. -/
def Dropped (l : Loop σ κ ρ ε) (t : TaskId) : Prop :=
  ∃ k, l.stage? t = some (.queued k false true)

theorem ran?_eq_some_iff : ran? l m = some t ↔
    m = .turn ∧ ∃ k wake, l.resumption? = some ⟨t, k, some wake⟩ := by
  cases m with
  | turn =>
    unfold ran?
    dsimp only
    split
    · rename_i u k wake hres
      rw [hres]
      simp
    · rename_i hnone
      constructor
      · intro h
        cases h
      · rintro ⟨_, k, wake, hres⟩
        exact absurd hres (hnone t k wake)
  | _ => simp [ran?]

/-- A task that has been cancelled before it began is not run. -/
theorem Dropped.ran?_ne (h : Dropped l t) (m : Move σ κ) : ran? l m ≠ some t := by
  intro hran
  obtain ⟨_, k, wake, hres⟩ := ran?_eq_some_iff.mp hran
  obtain ⟨k', hs⟩ := h
  obtain ⟨_, begun, cancelled, hs', hwake⟩ := resumption?_eq_some_iff.mp hres
  rw [hs] at hs'
  cases hs'
  cases hwake

theorem ran?_ne_of_ended {e : Ending ρ ε} (h : l.ending? t = some e) (m : Move σ κ) :
    ran? l m ≠ some t := by
  intro hran
  obtain ⟨_, k, wake, hres⟩ := ran?_eq_some_iff.mp hran
  obtain ⟨_, begun, cancelled, hs, _⟩ := resumption?_eq_some_iff.mp hres
  rw [ending?_of_stage? hs] at h
  cases h

/-- Such a task stays as it is until it ends. -/
theorem dropped_act {free : Prop} (hposted : Posted duty l) (h : Dropped l t)
    (hact : Act free duty l es l') : Dropped l' t ∨ (l'.ending? t).isSome = true := by
  obtain ⟨k₁, hs₁⟩ := h
  -- whatever else is moved, this task is not
  have hkept : ∀ {u : TaskId} {k : κ} {w : Wait} {s' : Stage κ ρ ε},
      l.stage? u = some (.waiting k w) → Dropped (l.move u s') t := by
    intro u k w s' hu
    refine ⟨k₁, ?_⟩
    rw [stage?_move, if_neg, hs₁]
    rintro rfl
    rw [hs₁] at hu
    cases hu
  cases hact with
  | aside htasks => exact .inl ⟨k₁, by rw [stage?, htasks]; exact hs₁⟩
  | spawn | call =>
    exact .inl ⟨k₁, by rw [stage?_add, if_neg (Nat.ne_of_lt (lt_of_stage? hs₁))]; exact hs₁⟩
  | cancel u =>
    refine .inl ⟨k₁, ?_⟩
    rw [stage?_cancel, hs₁]
    split <;> rfl
  | wake hs => exact .inl (hkept hs)
  | expired | pop | settle => exact .inl ⟨k₁, hs₁⟩
  | count w =>
    refine .inl ?_
    show Dropped (l.popped.count w) t
    unfold count
    split
    · rename_i hs
      split
      · exact hkept hs
      · exact hkept hs
    · exact ⟨k₁, hs₁⟩
  | @rest u k₀ begun cancelled hs hrun _ p k =>
    refine .inl ⟨k₁, ?_⟩
    rw [stage?_pause, if_neg, hs₁]
    rintro rfl
    rw [hs₁] at hs
    cases hs
    rcases hrun with hrun | hrun <;> cases hrun
  | @await u k₀ begun cancelled hs ids k _ _ hk =>
    refine .inl ⟨k₁, ?_⟩
    rw [stage?_pause, if_neg, hs₁]
    -- a call is never cancelled
    rintro rfl
    rw [hs₁] at hs
    cases hs
    obtain ⟨isTracked, hpost, _⟩ := hposted.post hs₁
    cases hpost with
    | workQueued hwork =>
      rcases hk with ⟨hidle, _⟩ | ⟨hclose, _⟩
      · rw [hwork] at hidle; cases hidle
      · rw [hwork] at hclose; cases hclose
  | @finish u k begun cancelled hs e =>
    by_cases htu : t = u
    · refine .inr ?_
      rw [ending?_eq_bind, stage?_finish, if_pos htu, hs₁]
      rfl
    · exact .inl ⟨k₁, by rw [stage?_finish, if_neg htu]; exact hs₁⟩

/-- **A task that has been cancelled before it began is never run.** -/
theorem not_ran_of_dropped (hb : Staffed b duty) (hbooks : Books duty l done) (h : Dropped l t)
    (ns : List (Move σ κ)) : t ∉ log b duty ran? l ns := by
  refine (play_log_induction (P := fun z ts => (∃ done, Books duty z done) ∧
    (Dropped z t ∨ (z.ending? t).isSome = true) ∧ t ∉ ts) ⟨⟨done, hbooks⟩, .inl h, List.not_mem_nil⟩
    (fun z ts m hz => ?_) ns).2.2
  obtain ⟨⟨done, hbooks⟩, hstays, hnot⟩ := hz
  have hnext : Dropped (step b duty z m) t ∨ ((step b duty z m).ending? t).isSome = true := by
    refine hbooks.invariant (P := fun z' => Dropped z' t ∨ (z'.ending? t).isSome = true)
      (acts_step hb hbooks.fit m) (fun hbooks₁ hz₁ hact => ?_) hstays
    rcases hz₁ with hdropped | hended
    · exact dropped_act hbooks₁.posted hdropped hact
    · obtain ⟨e, he⟩ := Option.isSome_iff_exists.mp hended
      exact .inr (by rw [ending_act hact he]; rfl)
  refine ⟨⟨_, books_step hb hbooks m⟩, hnext, fun hmem => ?_⟩
  rcases List.mem_append.mp hmem with hmem | hmem
  · exact hnot hmem
  · rcases hstays with hdropped | hended
    · exact hdropped.ran?_ne m (Option.mem_toList.mp hmem)
    · obtain ⟨e, he⟩ := Option.isSome_iff_exists.mp hended
      exact ran?_ne_of_ended he m (Option.mem_toList.mp hmem)

/-- Whether a task has begun. -/
def Begun (l : Loop σ κ ρ ε) (t : TaskId) : Prop :=
  ∃ s, l.stage? t = some s ∧ ∀ k cancelled, s ≠ .queued k false cancelled

/-- A task that has begun stays so. -/
theorem begun_act {free : Prop} (h : Begun l t) (hact : Act free duty l es l') : Begun l' t := by
  obtain ⟨s, hs, hbegun⟩ := h
  have hmove : ∀ {u : TaskId} {s' : Stage κ ρ ε}, (∀ k cancelled, s' ≠ .queued k false cancelled) →
      Begun (l.move u s') t := by
    intro u s' hs'
    unfold Begun
    rw [stage?_move]
    split
    · exact ⟨s', by rw [hs]; rfl, hs'⟩
    · exact ⟨s, hs, hbegun⟩
  have hpause : ∀ (u : TaskId) (p : Pause) (k : κ), Begun (l.pause u p k) t := by
    intro u p k
    unfold Begun
    rw [stage?_pause]
    split
    · refine ⟨l.paused p k, by rw [hs]; rfl, fun k' cancelled => ?_⟩
      unfold paused
      split <;> exact fun e => by cases e
    · exact ⟨s, hs, hbegun⟩
  cases hact with
  | aside htasks => exact ⟨s, by rw [stage?, htasks]; exact hs, hbegun⟩
  | spawn | call =>
    exact ⟨s, by rw [stage?_add, if_neg (Nat.ne_of_lt (lt_of_stage? hs))]; exact hs, hbegun⟩
  | cancel u =>
    unfold Begun
    rw [stage?_cancel]
    split
    · refine ⟨s.cancel, by rw [hs]; rfl, fun k cancelled => ?_⟩
      cases s with
      | queued k' begun cancelled' =>
        cases begun with
        | true => exact fun e => by cases e
        | false => exact absurd rfl (hbegun k' cancelled')
      | _ => exact fun e => by cases e
    · exact ⟨s, hs, hbegun⟩
  | wake => exact hmove fun k cancelled e => by cases e
  | expired | pop | settle => exact ⟨s, hs, hbegun⟩
  | count w =>
    show Begun (l.popped.count w) t
    unfold count
    split
    · split
      · exact hmove fun k cancelled e => by cases e
      · exact hmove fun k cancelled e => by cases e
    · exact ⟨s, hs, hbegun⟩
  | @rest u _ _ _ _ _ _ p k => exact hpause u p k
  | @await u _ _ _ _ ids k => exact hpause u (.tasks ids) k
  | @finish u _ _ _ _ e =>
    unfold Begun
    rw [stage?_finish]
    split
    · exact ⟨.ended e, by rw [hs]; rfl, fun k cancelled he => by cases he⟩
    · exact ⟨s, hs, hbegun⟩

/-- A task that is run has begun. -/
theorem begun_of_ran? (h : ran? l m = some t) : Begun (step b duty l m) t := by
  obtain ⟨rfl, k, wake, hres⟩ := ran?_eq_some_iff.mp h
  refine ⟨_, stage?_turned_self hres, fun k' cancelled => ?_⟩
  unfold after
  split
  · unfold paused
    split <;> exact fun e => by cases e
  · exact fun e => by cases e

/-- **A task that has been run has begun.** -/
theorem begun_of_mem_log (hb : Staffed b duty) (x : σ) (ms : List (Move σ κ))
    (ht : t ∈ log b duty ran? (Loop.start x) ms) : Begun (play b duty (Loop.start x) ms) t := by
  refine (play_log_induction (P := fun z ts => (∃ done, Books duty z done) ∧
    ∀ t ∈ ts, Begun z t) ⟨⟨[], books_start x⟩, fun t ht => (List.not_mem_nil ht).elim⟩
    (fun z ts m hz => ?_) ms).2 t ht
  obtain ⟨⟨done, hbooks⟩, hbegun⟩ := hz
  refine ⟨⟨_, books_step hb hbooks m⟩, fun t ht => ?_⟩
  rcases List.mem_append.mp ht with ht | ht
  · exact (acts_step hb hbooks.fit m).invariant (P := fun z => Begun z t)
      (fun _ _ _ hz hact => begun_act hz hact) (hbegun t ht)
  · exact begun_of_ran? (Option.mem_toList.mp ht)

/-! ## 4. Calls to close the set -/

theorem sealed?_eq_some_iff : sealed? duty l m = some t ↔
    m = .turn ∧ ∃ k wake, l.resumption? = some ⟨t, k, some wake⟩ ∧ duty k = .close := by
  cases m with
  | turn =>
    unfold sealed?
    dsimp only
    split
    · rename_i u k wake hres
      rw [hres]
      split
      · simp [*]
      · rename_i hk
        refine ⟨(fun h => by cases h), ?_⟩
        rintro ⟨_, k', wake', hres', hk'⟩
        cases hres'
        exact absurd hk' hk
    · rename_i hnone
      refine ⟨(fun h => by cases h), ?_⟩
      rintro ⟨_, k, wake, hres, _⟩
      exact absurd hres (hnone t k wake)
  | _ => simp [sealed?]

/-- **A call to close the set cancels what is tracked** in its first step. -/
theorem cancelled_of_sealed? (hb : Staffed b duty) (hbooks : Books duty l done) {c : TaskId}
    (h : sealed? duty l m = some c) (ht : t ∈ l.tracked) :
    (step b duty l m).stage? t = (l.stage? t).map Stage.cancel := by
  obtain ⟨rfl, k, wake, hres, hk⟩ := sealed?_eq_some_iff.mp h
  have hcall : duty k ≠ .work := by rw [hk]; exact fun e => by cases e
  cases (hbooks.fit.resumed hcall hres).1
  have hspawned := ((hbooks.accounts.tracked t).mp ht).1
  have hne : t ≠ c := by
    rintro rfl
    exact hcall ((hbooks.posted.work_iff (Resumption.continuation?_eq hres)).mpr hspawned)
  obtain ⟨ids, hids, hcases⟩ := hb.close l.facts k l.state hk
  have hmem : .cancel t ∈ (b l.facts k .go l.state).orders := by
    have horder : Order.cancel t ∈ (closeOrders { l.facts with tracked := ids } : List (Order κ)) :=
      List.mem_cons_of_mem _ (List.mem_map_of_mem (hids.mem_iff.mpr ht))
    split at hcases
    · rw [hcases.1]
      exact List.mem_append_left _ horder
    · rw [hcases.1]
      exact horder
  show (l.turned b).stage? t = _
  rw [turned_of_run hres, stage?_runTask_of_ne hne]
  exact stage?_ordered_of_mem (l := l.popped) (lt_of_spawned hspawned) hmem

/-- **A call to close the set only returns when nothing is tracked.** -/
theorem tracked_eq_nil_of_close (hb : Staffed b duty) (hfit : Fit duty l) {k : κ}
    (h : finished? b l m = some k) (hk : duty k = .close ∨ duty k = .closing) :
    l.tracked = [] := by
  have hcall : duty k ≠ .work := by rcases hk with hk | hk <;> rw [hk] <;> exact fun e => by cases e
  obtain ⟨rfl, t, wake, e, hres, hfinish⟩ := exists_of_finished? h
  obtain ⟨hgo, hempty⟩ := hfit.resumed hcall hres
  cases hgo
  rcases hk with hk | hk
  · obtain ⟨ids, _, hcases⟩ := hb.close l.facts k l.state hk
    split at hcases
    · rename_i hnil
      exact hnil
    · obtain ⟨_, rest, _, hnext⟩ := hcases
      rw [hnext] at hfinish
      cases hfinish
  · exact hempty hk

/-- A call to close the set that returns has closed it, and leaves it empty. -/
theorem quiet_of_close (hb : Staffed b duty) (hbooks : Books duty l done) {k : κ}
    (h : finished? b l m = some k) (hk : duty k = .close ∨ duty k = .closing) :
    (step b duty l m).closed = true ∧ (step b duty l m).tracked = [] ∧
      (step b duty l m).failures = l.failures := by
  have hempty := tracked_eq_nil_of_close hb hbooks.fit h hk
  obtain ⟨rfl, t, wake, e, hres, _⟩ := exists_of_finished? h
  refine ⟨?_, ?_⟩
  · rw [closed_step hb hbooks.fit]
    rcases hk with hk | hk
    · exact .inr (by simp [sealed?, hres, hk])
    · obtain ⟨_, begun, cancelled, hs, _⟩ := resumption?_eq_some_iff.mp hres
      exact .inl (hbooks.shutting t _ k hs rfl hk).1
  · -- no work is run, so that none is spawned
    have hnot : ¬MaySpawn duty l (.turn : Move σ κ) := by
      rintro (hspawn | ⟨_, t', k', wake', hres', hwork⟩)
      · cases hspawn
      · rw [hres] at hres'
        cases hres'
        rw [hwork] at hk
        rcases hk with hk | hk <;> cases hk
    have hacts := acts_step hb hbooks.fit (.turn : Move σ κ)
    rw [eq_false hnot] at hacts
    refine hbooks.invariant (P := fun z => z.tracked = [] ∧ z.failures = l.failures) hacts
      (fun hbooks₁ hz hact => ?_) ⟨hempty, rfl⟩
    rw [← hz.2]
    exact quiet_act hbooks₁ False.elim hz.1 hact

/-- **Closing is complete.** For every run, with any calls that overlap:

    * the set is closed from the first step of a call to close it on; this step cancels what is
      tracked;
    * from then on a spawn returns none and does nothing, no other task is ever spawned, and no work is
      run that was not spawned before;
    * a call to close the set returns only when every task that was ever spawned has ended; from then
      on nothing is tracked, and the log has one line for each task that raised an error, and no
      other;
    * at any time the log has one line for each task that raised an error and whose end is settled,
      which happens once;
    * a task that is cancelled before it began is never run. -/
theorem closing_of_run (hb : Staffed b duty) (own : TaskId → String) (text : ε → String) (x : σ)
    (ms : List (Move σ κ)) :
    let l := play b duty (Loop.start x) ms
    (l.closed = true ↔ log b duty (sealed? duty) (Loop.start x) ms ≠ []) ∧
    (∀ m c, sealed? duty l m = some c → ∀ t ∈ l.tracked,
      (step b duty l m).stage? t = (l.stage? t).map Stage.cancel) ∧
    (l.closed = true → l.facts.spawned? = none ∧ (∀ name k, step b duty l (.spawn name k) = l) ∧
      ∀ ns, (∀ t, (play b duty l ns).Spawned t ↔ l.Spawned t) ∧
        ∀ t k wake, (play b duty l ns).resumption? = some ⟨t, k, some wake⟩ → duty k = .work →
          l.Spawned t) ∧
    (∀ m k, finished? b l m = some k → (duty k = .close ∨ duty k = .closing) →
      (∀ t, l.Spawned t → (l.ending? t).isSome = true) ∧
      ∀ ns, (play b duty (step b duty l m) ns).tracked = [] ∧
        (errorLog own text (play b duty (step b duty l m) ns)).Perm
          ((List.range l.tasks.length).filterMap (lineOf? own text l))) ∧
    ((log b duty settled? (Loop.start x) ms).Nodup ∧
      errorLog own text l = (log b duty settled? (Loop.start x) ms).filterMap (lineOf? own text l)) ∧
    ∀ t, (∃ k, l.stage? t = some (.queued k false true)) →
      ∀ ns, t ∉ log b duty ran? (Loop.start x) (ms ++ ns) := by
  intro l
  have hbooks : Books duty l (log b duty settled? (Loop.start x) ms) := books_play hb x ms
  refine ⟨closed_iff hb x ms, fun m c hm t ht => cancelled_of_sealed? hb hbooks hm ht,
    fun hclosed => ⟨Facts.spawned?_eq_none_iff.mpr hclosed, fun name k => ?_, fun ns =>
      ⟨spawned_of_closed hb hbooks hclosed ns, fun t k wake hres hk => ?_⟩⟩, fun m k hm hk => ?_,
    ⟨hbooks.accounts.nodup_done, errorLog_eq hbooks.accounts⟩, fun t hdropped ns => ?_⟩
  · show (if duty k = .work then l.obey (.spawn name k) else l) = l
    rw [obey_spawn_closed hclosed]
    split <;> rfl
  · -- what runs as work has been spawned, and that was before
    have hbooks' : Books duty (play b duty l ns) (log b duty settled? (Loop.start x) (ms ++ ns)) := by
      have hall := books_play hb x (ms ++ ns)
      rwa [play_append] at hall
    refine (spawned_of_closed hb hbooks hclosed ns t).mp ?_
    exact (hbooks'.posted.work_iff (Resumption.continuation?_eq hres)).mp hk
  · have hempty := tracked_eq_nil_of_close hb hbooks.fit hm hk
    refine ⟨fun t ht => (hbooks.accounts.settled_of_nil hempty ht).2, fun ns => ?_⟩
    obtain ⟨hclosed, hempty', hsame⟩ := quiet_of_close hb hbooks hm hk
    obtain ⟨hforGood, hsame'⟩ := quiet_of_closed hb (books_step hb hbooks m) hclosed hempty' ns
    refine ⟨hforGood, ?_⟩
    unfold errorLog
    rw [hsame', hsame]
    exact errorLog_perm hbooks.accounts hempty
  · rw [log_append]
    refine fun hmem => ?_
    rcases List.mem_append.mp hmem with hmem | hmem
    · obtain ⟨s, hs, hbegun⟩ := begun_of_mem_log hb x ms hmem
      obtain ⟨k, hk⟩ := hdropped
      exact hbegun k true (Option.some.inj (hs.symm.trans hk))
    · exact not_ran_of_dropped hb hbooks hdropped ns hmem

/-- A call to close the set takes its first step: it finds a chore that waits and fails in its cleanup,
    and one that has not begun. -/
def shutdown : List (Move Chore.World Chore.Job) :=
  let waits : Chore := { (default : Chore) with
    name := "waits", gate := some "g", cleanupFails := some ⟨.runtime, "broken"⟩ }
  let late : Chore := { (default : Chore) with name := "late" }
  [.spawn "waits" (.chore waits .start), .turn, .call .close, .spawn "late" (.chore late .start),
    .turn]

theorem closing_of_shutdown :
    let l := play Chore.behaviour Chore.Job.duty (Loop.start ⟨[], []⟩)
      (shutdown ++ List.replicate 6 .turn)
    (finished? Chore.behaviour l .turn).map Chore.Job.duty = some .closing ∧
      (∀ ns, (play Chore.behaviour Chore.Job.duty
        (step Chore.behaviour Chore.Job.duty l .turn) ns).tracked = []) ∧
      (∀ ns, (errorLog numbered Backend.Fault.message (play Chore.behaviour Chore.Job.duty
        (step Chore.behaviour Chore.Job.duty l .turn) ns)).Perm
          ["Background task 'waits' failed: broken"]) ∧
      ∀ ns, 2 ∉ log Chore.behaviour Chore.Job.duty ran? (Loop.start ⟨[], []⟩) (shutdown ++ ns) := by
  intro l
  obtain ⟨_, _, _, hreturns, _, _⟩ := closing_of_run Chore.staffed_chores numbered Backend.Fault.message
    ⟨[], []⟩ (shutdown ++ List.replicate 6 .turn)
  obtain ⟨_, _, _, _, _, hdropped⟩ :=
    closing_of_run Chore.staffed_chores numbered Backend.Fault.message ⟨[], []⟩ shutdown
  have hfinished : (finished? Chore.behaviour l .turn).map Chore.Job.duty = some .closing := by
    decide +kernel
  obtain ⟨k, hk, hduty⟩ := Option.map_eq_some_iff.mp hfinished
  have hempty := (hreturns .turn k hk (.inr hduty)).2
  have hlines : (List.range l.tasks.length).filterMap (lineOf? numbered Backend.Fault.message l) =
      ["Background task 'waits' failed: broken"] := by decide +kernel
  refine ⟨hfinished, fun ns => (hempty ns).1, fun ns => hlines ▸ (hempty ns).2, ?_⟩
  exact hdropped 2 ⟨_, rfl⟩

end CodeSession.Tracking
