import CodeSession.Proofs.Loop.Stages

/-!
# What a turn does

A turn resumes a task or keeps the books of the loop.

* `resumption?` -- the task that the next turn resumes, its continuation and how it is woken;
* `turned_of_run`, `turned_of_drop` -- a turn that resumes a task runs it, or ends it without a run
  if it was cancelled before it began;
* `rests_turned` -- any other turn changes neither the state nor a continuation.
-/

namespace CodeSession

variable {σ κ ρ ε : Type}

/-- The continuation of a task after a run. -/
def Next.continuation? : Next κ ρ ε → Option κ
  | .pause _ k => some k
  | .finish _ => none

namespace Loop

/-! ## 1. Running a task -/

section Run

variable (b : Behaviour σ κ ρ ε) (t : TaskId) (k : κ) (w : Wake) (l : Loop σ κ ρ ε)

/-- A loop in which the orders of a run have been carried out. -/
def ordered : Loop σ κ ρ ε :=
  (b l.facts k w l.state).orders.foldl obey { l with state := (b l.facts k w l.state).state }

theorem runTask_eq : l.runTask b t k w = (l.ordered b k w).goOn t (b l.facts k w l.state).next :=
  rfl

@[simp] theorem state_runTask : (l.runTask b t k w).state = (b l.facts k w l.state).state := by
  rw [runTask_eq, (keeps_goOn _ _ _).state, ordered, state_foldl_obey]

@[simp] theorem now_runTask : (l.runTask b t k w).now = l.now := by
  rw [runTask_eq, (keeps_goOn _ _ _).now, ordered, now_foldl_obey]

theorem closed_runTask : (l.runTask b t k w).closed = true ↔
    l.closed = true ∨ .seal ∈ (b l.facts k w l.state).orders := by
  rw [runTask_eq, (keeps_goOn _ _ _).closed, ordered, closed_foldl_obey]

theorem length_le_runTask : l.tasks.length ≤ (l.runTask b t k w).tasks.length := by
  rw [runTask_eq, (keeps_goOn _ _ _).length]
  exact length_le_foldl_obey _ { l with state := (b l.facts k w l.state).state }

theorem tracked_runTask : (l.runTask b t k w).tracked = (l.ordered b k w).tracked := by
  rw [runTask_eq, (keeps_goOn _ _ _).tracked]

variable {b t k w l}

theorem stage?_ordered_of_mem {i : TaskId} (hi : i < l.tasks.length)
    (h : .cancel i ∈ (b l.facts k w l.state).orders) :
    (l.ordered b k w).stage? i = (l.stage? i).map Stage.cancel :=
  stage?_foldl_obey_of_mem (l := { l with state := (b l.facts k w l.state).state }) hi h

theorem stage?_ordered_of_notMem {i : TaskId} (hi : i < l.tasks.length)
    (h : .cancel i ∉ (b l.facts k w l.state).orders) :
    (l.ordered b k w).stage? i = l.stage? i :=
  stage?_foldl_obey_of_notMem (l := { l with state := (b l.facts k w l.state).state }) hi h

theorem stage?_ordered_new {i : TaskId} {s : Stage κ ρ ε} (hi : l.tasks.length ≤ i)
    (h : (l.ordered b k w).stage? i = some s) : l.closed = false ∧ ∃ name k' cancelled,
      .spawn name k' ∈ (b l.facts k w l.state).orders ∧ s = .queued k' false cancelled :=
  stage?_foldl_obey_new (l := { l with state := (b l.facts k w l.state).state }) hi h

theorem stage?_runTask_self (ht : t < l.tasks.length) :
    (l.runTask b t k w).stage? t =
      some ((l.ordered b k w).after (b l.facts k w l.state).next) := by
  have hlt : t < (l.ordered b k w).tasks.length :=
    Nat.lt_of_lt_of_le ht
      (length_le_foldl_obey _ { l with state := (b l.facts k w l.state).state })
  rw [runTask_eq, stage?_goOn, if_pos rfl]
  cases hs : (l.ordered b k w).stage? t with
  | none => exact absurd (stage?_eq_none_iff.mp hs) (Nat.not_le.mpr hlt)
  | some s => rfl

theorem stage?_runTask_of_ne {i : TaskId} (hi : i ≠ t) :
    (l.runTask b t k w).stage? i = (l.ordered b k w).stage? i := by
  rw [runTask_eq, stage?_goOn, if_neg hi]

theorem continuation?_runTask_self (ht : t < l.tasks.length) :
    (l.runTask b t k w).continuation? t = (b l.facts k w l.state).next.continuation? := by
  rw [continuation?_of_stage? (stage?_runTask_self ht)]
  cases (b l.facts k w l.state).next with
  | pause p k => exact continuation?_paused p k _
  | finish e => rfl

theorem continuation?_runTask_of_ne {i : TaskId} (hi : i ≠ t) (hlt : i < l.tasks.length) :
    (l.runTask b t k w).continuation? i = l.continuation? i := by
  rw [continuation?, stage?_runTask_of_ne hi]
  exact continuation?_foldl_obey (l := { l with state := (b l.facts k w l.state).state }) hlt

/-- What the other tasks show does not change when a task runs that spawns nothing of the kind. -/
theorem shown?_runTask_of_ne {α : Type} {show? : κ → Option α} {i : TaskId} (hi : i ≠ t)
    (h : ∀ name k', .spawn name k' ∈ (b l.facts k w l.state).orders → show? k' = none) :
    (l.runTask b t k w).shown? show? i = l.shown? show? i := by
  rw [shown?, continuation?, stage?_runTask_of_ne hi]
  exact shown?_foldl_obey (l := { l with state := (b l.facts k w l.state).state }) h

end Run

/-! ## 2. The task that is next -/

/-- What a turn resumes: a task, its continuation and how it is woken. A task that was cancelled
    before it began is not woken. -/
structure Resumption (κ : Type) where
  task : TaskId
  continuation : κ
  wake : Option Wake

/-- How a queued task is woken. -/
def wakeOf (begun cancelled : Bool) : Option Wake :=
  if cancelled then if begun then some .cancelled else none else some .go

/-- What the next turn resumes, if it resumes a task. -/
def resumption? (l : Loop σ κ ρ ε) : Option (Resumption κ) :=
  match l.ready.head? with
  | some (.resume t) =>
    match l.stage? t with
    | some (.queued k begun cancelled) => some ⟨t, k, wakeOf begun cancelled⟩
    | _ => none
  | _ => none

theorem resumption?_eq_some_iff {l : Loop σ κ ρ ε} {r : Resumption κ} :
    l.resumption? = some r ↔ l.ready.head? = some (.resume r.task) ∧
      ∃ begun cancelled, l.stage? r.task = some (.queued r.continuation begun cancelled) ∧
        r.wake = wakeOf begun cancelled := by
  obtain ⟨t, k, w⟩ := r
  unfold resumption?
  constructor
  · intro h
    split at h
    · rename_i u hu
      split at h
      · rename_i k' begun cancelled hs
        simp only [Option.some.injEq, Resumption.mk.injEq] at h
        obtain ⟨rfl, rfl, rfl⟩ := h
        exact ⟨hu, begun, cancelled, hs, rfl⟩
      · cases h
    · cases h
  · rintro ⟨hhead, begun, cancelled, hs, hw⟩
    simp only at hhead hs hw
    simp [hhead, hs, hw]

theorem Resumption.lt {l : Loop σ κ ρ ε} {r : Resumption κ} (h : l.resumption? = some r) :
    r.task < l.tasks.length := by
  obtain ⟨_, _, _, hs, _⟩ := resumption?_eq_some_iff.mp h
  exact lt_of_stage? hs

theorem Resumption.continuation?_eq {l : Loop σ κ ρ ε} {r : Resumption κ}
    (h : l.resumption? = some r) : l.continuation? r.task = some r.continuation := by
  obtain ⟨_, _, _, hs, _⟩ := resumption?_eq_some_iff.mp h
  rw [continuation?_of_stage? hs, Stage.continuation?_queued]

/-! ## 3. Turns -/

/-- A loop without the first callback of its queue. -/
def popped (l : Loop σ κ ρ ε) : Loop σ κ ρ ε :=
  { l with ready := l.ready.tail }

/-- A loop after a turn; one with an empty queue stays as it is. -/
def turned (b : Behaviour σ κ ρ ε) (l : Loop σ κ ρ ε) : Loop σ κ ρ ε :=
  (l.turn b).getD l

theorem turned_of_head {b : Behaviour σ κ ρ ε} {l : Loop σ κ ρ ε} {c : Callback}
    (h : l.ready.head? = some c) : l.turned b = handle b l.popped c := by
  obtain ⟨rest, hr⟩ := List.head?_eq_some_iff.mp h
  simp [turned, turn, popped, hr]

theorem turned_of_resumption? {b : Behaviour σ κ ρ ε} {l : Loop σ κ ρ ε} {r : Resumption κ}
    (h : l.resumption? = some r) : l.turned b = match r.wake with
      | some w => l.popped.runTask b r.task r.continuation w
      | none => l.popped.finish r.task .cancelled := by
  obtain ⟨hhead, begun, cancelled, hs, hw⟩ := resumption?_eq_some_iff.mp h
  rw [turned_of_head hhead, hw]
  have hs' : l.popped.stage? r.task = some (.queued r.continuation begun cancelled) := hs
  cases cancelled <;> cases begun <;> simp [handle, resume, hs', wakeOf]

theorem turned_of_run {b : Behaviour σ κ ρ ε} {l : Loop σ κ ρ ε} {t : TaskId} {k : κ} {w : Wake}
    (h : l.resumption? = some ⟨t, k, some w⟩) : l.turned b = l.popped.runTask b t k w :=
  turned_of_resumption? h

theorem turned_of_drop {b : Behaviour σ κ ρ ε} {l : Loop σ κ ρ ε} {t : TaskId} {k : κ}
    (h : l.resumption? = some ⟨t, k, none⟩) : l.turned b = l.popped.finish t .cancelled :=
  turned_of_resumption? h

/-- A turn that would resume a task which is not queued does nothing. -/
theorem resume_popped {b : Behaviour σ κ ρ ε} {l : Loop σ κ ρ ε} {t : TaskId}
    (hhead : l.ready.head? = some (.resume t)) (h : l.resumption? = none) :
    l.popped.resume b t = l.popped := by
  unfold resume
  split
  · rename_i k begun cancelled hs
    have hs' : l.stage? t = some (.queued k begun cancelled) := hs
    simp [resumption?, hhead, hs'] at h
  · rfl

section Ran

variable {b : Behaviour σ κ ρ ε} {l : Loop σ κ ρ ε} {t : TaskId} {k : κ} {w : Wake}
  (h : l.resumption? = some ⟨t, k, some w⟩)

include h

theorem state_turned_of_run : (l.turned b).state = (b l.facts k w l.state).state := by
  rw [turned_of_run h]
  exact state_runTask b t k w l.popped

theorem closed_turned_of_run : (l.turned b).closed = true ↔
    l.closed = true ∨ .seal ∈ (b l.facts k w l.state).orders := by
  rw [turned_of_run h]
  exact closed_runTask b t k w l.popped

theorem length_le_turned_of_run : l.tasks.length ≤ (l.turned b).tasks.length := by
  rw [turned_of_run h]
  exact length_le_runTask b t k w l.popped

theorem mem_tracked_turned_of_run {i : TaskId}
    (hforget : .forget ∉ (b l.facts k w l.state).orders)
    (hi : i ∈ l.tracked ∨ l.tasks.length ≤ i ∧ i < (l.turned b).tasks.length) :
    i ∈ (l.turned b).tracked := by
  rw [turned_of_run h, runTask_eq, (keeps_goOn _ _ _).length] at hi
  rw [turned_of_run h, tracked_runTask]
  exact mem_tracked_foldl_obey
    (l := { l.popped with state := (b l.popped.facts k w l.popped.state).state }) hforget hi

theorem stage?_turned_self : (l.turned b).stage? t =
    some ((l.popped.ordered b k w).after (b l.facts k w l.state).next) := by
  rw [turned_of_run h]
  exact stage?_runTask_self (l := l.popped) (Resumption.lt h)

theorem continuation?_turned_self :
    (l.turned b).continuation? t = (b l.facts k w l.state).next.continuation? := by
  rw [turned_of_run h]
  exact continuation?_runTask_self (l := l.popped) (Resumption.lt h)

theorem shown?_turned_self {α : Type} {show? : κ → Option α} : (l.turned b).shown? show? t =
    (b l.facts k w l.state).next.continuation?.bind show? := by
  rw [shown?, continuation?_turned_self h]

theorem shown?_turned_of_ne {α : Type} {show? : κ → Option α} {i : TaskId} (hi : i ≠ t)
    (hspawn : ∀ name k', .spawn name k' ∈ (b l.facts k w l.state).orders → show? k' = none) :
    (l.turned b).shown? show? i = l.shown? show? i := by
  rw [turned_of_run h]
  exact shown?_runTask_of_ne (l := l.popped) hi hspawn

end Ran

/-- The stages after a turn that runs a task: its own, those of the other tasks, which may have been
    cancelled, and those of the tasks that were spawned. -/
theorem stage?_turned_of_run {b : Behaviour σ κ ρ ε} {l : Loop σ κ ρ ε} {t : TaskId} {k : κ}
    {w : Wake} (h : l.resumption? = some ⟨t, k, some w⟩) {i : TaskId} {s' : Stage κ ρ ε}
    (hs' : (l.turned b).stage? i = some s') :
    (i = t ∧ s' = (l.popped.ordered b k w).after (b l.facts k w l.state).next) ∨
    (i ≠ t ∧ ∃ s, l.stage? i = some s ∧
      (.cancel i ∈ (b l.facts k w l.state).orders ∧ s' = s.cancel ∨
        .cancel i ∉ (b l.facts k w l.state).orders ∧ s' = s)) ∨
    (l.tasks.length ≤ i ∧ l.closed = false ∧ ∃ name k' cancelled,
      .spawn name k' ∈ (b l.facts k w l.state).orders ∧ s' = .queued k' false cancelled) := by
  by_cases hit : i = t
  · subst hit
    rw [stage?_turned_self h] at hs'
    exact .inl ⟨rfl, (Option.some.inj hs').symm⟩
  · rw [turned_of_run h, stage?_runTask_of_ne hit] at hs'
    by_cases hi : i < l.tasks.length
    · refine .inr (.inl ⟨hit, ?_⟩)
      by_cases hmem : .cancel i ∈ (b l.facts k w l.state).orders
      · rw [stage?_ordered_of_mem (l := l.popped) hi hmem, Option.map_eq_some_iff] at hs'
        obtain ⟨s, hs, he⟩ := hs'
        exact ⟨s, hs, .inl ⟨hmem, he.symm⟩⟩
      · rw [stage?_ordered_of_notMem (l := l.popped) hi hmem] at hs'
        exact ⟨s', hs', .inr ⟨hmem, rfl⟩⟩
    · have hle : l.tasks.length ≤ i := Nat.le_of_not_lt hi
      obtain ⟨hopen, name, k', x, hspawn, he⟩ := stage?_ordered_new (l := l.popped) hle hs'
      exact .inr (.inr ⟨hle, hopen, name, k', x, hspawn, he⟩)

end Loop

namespace Stage

/-- How a stage may change without a run or a signal: a waiting task is queued, or waits for fewer
    ends. -/
inductive Stirs : Stage κ ρ ε → Stage κ ρ ε → Prop where
  | same (s : Stage κ ρ ε) : Stirs s s
  | woken (k : κ) (w : Wait) (h : w ≠ .signal) : Stirs (.waiting k w) (.queued k true false)
  | counted (k : κ) (m n : Nat) : Stirs (.waiting k (.tasks m)) (.waiting k (.tasks n))

theorem Stirs.continuation? {s s' : Stage κ ρ ε} (h : Stirs s s') :
    s'.continuation? = s.continuation? := by
  cases h <;> rfl

end Stage

namespace Loop

/-- A loop at rest: neither the state nor a continuation changes. -/
structure Rests (l l' : Loop σ κ ρ ε) : Prop where
  state : l'.state = l.state
  now : l'.now = l.now
  closed : l'.closed = l.closed
  length : l'.tasks.length = l.tasks.length
  stage : ∀ i s, l.stage? i = some s → ∃ s', l'.stage? i = some s' ∧ s.Stirs s'

namespace Rests

theorem of_keeps {l l' : Loop σ κ ρ ε} (h : Keeps l l')
    (hs : ∀ i s, l.stage? i = some s → ∃ s', l'.stage? i = some s' ∧ s.Stirs s') : Rests l l' :=
  ⟨h.state, h.now, h.closed, h.length, hs⟩

theorem of_tasks_eq {l l' : Loop σ κ ρ ε} (hstate : l'.state = l.state) (hnow : l'.now = l.now)
    (hclosed : l'.closed = l.closed) (htasks : l'.tasks = l.tasks) : Rests l l' := by
  refine ⟨hstate, hnow, hclosed, by rw [htasks], fun i s hs => ⟨s, ?_, .same s⟩⟩
  rw [← hs, stage?, stage?, htasks]

theorem of_popped {l l' : Loop σ κ ρ ε} (h : Rests l.popped l') : Rests l l' :=
  ⟨h.state, h.now, h.closed, h.length, h.stage⟩

theorem continuation? {l l' : Loop σ κ ρ ε} (h : Rests l l') (i : TaskId) :
    l'.continuation? i = l.continuation? i := by
  cases hs : l.stage? i with
  | none =>
    have hs' : l'.stage? i = none := by
      rw [stage?_eq_none_iff, h.length]
      exact stage?_eq_none_iff.mp hs
    simp [Loop.continuation?, hs, hs']
  | some s =>
    obtain ⟨s', hs', hst⟩ := h.stage i s hs
    rw [continuation?_of_stage? hs, continuation?_of_stage? hs', hst.continuation?]

theorem shown? {α : Type} {l l' : Loop σ κ ρ ε} (h : Rests l l') (show? : κ → Option α)
    (i : TaskId) : l'.shown? show? i = l.shown? show? i := by
  rw [Loop.shown?, h.continuation? i, Loop.shown?]

/-- The stage that a task had before. -/
theorem stage_before {l l' : Loop σ κ ρ ε} (h : Rests l l') {i : TaskId} {s' : Stage κ ρ ε}
    (hs' : l'.stage? i = some s') : ∃ s, l.stage? i = some s ∧ s.Stirs s' := by
  cases hs : l.stage? i with
  | none =>
    have hle := stage?_eq_none_iff.mp hs
    rw [← h.length] at hle
    rw [stage?_eq_none_iff.mpr hle] at hs'
    cases hs'
  | some s =>
    obtain ⟨s'', hs'', hst⟩ := h.stage i s hs
    rw [hs'] at hs''
    cases hs''
    exact ⟨s, rfl, hst⟩

end Rests

/-- A waiting task that is queued changes nothing else. -/
theorem rests_wake {l : Loop σ κ ρ ε} {t : TaskId} {k : κ} {w : Wait}
    (h : l.stage? t = some (.waiting k w)) (hw : w ≠ .signal) :
    Rests l ((l.move t (.queued k true false)).push [.resume t]) := by
  refine .of_keeps ((keeps_move _ _ _).trans (keeps_push _ _)) fun i s hs => ?_
  by_cases hi : i = t
  · subst hi
    rw [h] at hs
    cases hs
    exact ⟨_, by simp [h], .woken k w hw⟩
  · exact ⟨s, by simp [hi, hs], .same s⟩

theorem rests_count (w : TaskId) (l : Loop σ κ ρ ε) : Rests l (l.count w) := by
  unfold count
  split
  · rename_i k left h
    split
    · exact rests_wake h (fun e => by cases e)
    · refine .of_keeps (keeps_move _ _ _) fun i s hs => ?_
      by_cases hi : i = w
      · subst hi
        rw [h] at hs
        cases hs
        exact ⟨.waiting k (.tasks (left - 1)), by simp [h], .counted k left _⟩
      · exact ⟨s, by simp [hi, hs], .same s⟩
  · exact .of_tasks_eq rfl rfl rfl rfl

theorem rests_expire (t rank : TaskId) (l : Loop σ κ ρ ε) : Rests l (l.expire t rank) := by
  unfold expire
  split
  · rename_i k due r h
    split
    · exact rests_wake h (fun e => by cases e)
    · exact .of_tasks_eq rfl rfl rfl rfl
  · exact .of_tasks_eq rfl rfl rfl rfl

/-- A turn that resumes no task leaves the state and the continuations alone. -/
theorem rests_turned {b : Behaviour σ κ ρ ε} {l : Loop σ κ ρ ε} (h : l.resumption? = none) :
    Rests l (l.turned b) := by
  cases hhead : l.ready.head? with
  | none =>
    have hr : l.ready = [] := List.head?_eq_none_iff.mp hhead
    have he : l.turned b = l := by simp [turned, turn, hr]
    rw [he]
    exact .of_tasks_eq rfl rfl rfl rfl
  | some c =>
    rw [turned_of_head hhead]
    cases c with
    | resume t =>
      rw [show handle b l.popped (.resume t) = l.popped from resume_popped hhead h]
      exact .of_tasks_eq rfl rfl rfl rfl
    | settled t => exact .of_tasks_eq rfl rfl rfl rfl
    | counted w => exact .of_popped (rests_count w l.popped)
    | expired t rank => exact .of_popped (rests_expire t rank l.popped)

/-- **The turn of another task leaves a task where it stands** that does not stir by itself and is not
    cancelled. -/
theorem stage?_turned_of_ne {b : Behaviour σ κ ρ ε} {l : Loop σ κ ρ ε} {i : TaskId}
    {s : Stage κ ρ ε} (hs : l.stage? i = some s) (hstill : ∀ s', s.Stirs s' → s' = s)
    (hr : ∀ r, l.resumption? = some r → r.task ≠ i)
    (hcancel : ∀ t k w, l.resumption? = some ⟨t, k, some w⟩ →
      .cancel i ∉ (b l.facts k w l.state).orders) : (l.turned b).stage? i = some s := by
  cases hres : l.resumption? with
  | none =>
    obtain ⟨s', hs', hst⟩ := (rests_turned (b := b) hres).stage i s hs
    rw [← hstill s' hst]
    exact hs'
  | some r =>
    have hne : i ≠ r.task := fun heq => hr r hres heq.symm
    obtain ⟨t, k, _ | w⟩ := r
    · rw [turned_of_drop hres, stage?_finish, if_neg hne]
      exact hs
    · rw [turned_of_run hres, stage?_runTask_of_ne hne,
        stage?_ordered_of_notMem (l := l.popped) (lt_of_stage? hs) (hcancel t k w hres)]
      exact hs

/-- A turn that resumes no task drops none from the tracked set but one whose end is settled. -/
theorem mem_tracked_turned {b : Behaviour σ κ ρ ε} {l : Loop σ κ ρ ε} {i : TaskId}
    (h : l.resumption? = none) (hi : i ∈ l.tracked) :
    i ∈ (l.turned b).tracked ∨ .settled i ∈ l.ready := by
  cases hhead : l.ready.head? with
  | none =>
    have hr : l.ready = [] := List.head?_eq_none_iff.mp hhead
    exact .inl (by simpa [turned, turn, hr] using hi)
  | some c =>
    have hmem : c ∈ l.ready := List.mem_of_mem_head? hhead
    rw [turned_of_head hhead]
    cases c with
    | resume t =>
      rw [show handle b l.popped (.resume t) = l.popped from resume_popped hhead h]
      exact .inl hi
    | settled t =>
      by_cases hit : i = t
      · exact .inr (hit ▸ hmem)
      · exact .inl (List.mem_filter.mpr ⟨hi, by simpa using hit⟩)
    | counted w =>
      refine .inl ?_
      show i ∈ (l.popped.count w).tracked
      unfold count
      split
      · split <;> exact hi
      · exact hi
    | expired t rank =>
      refine .inl ?_
      show i ∈ (l.popped.expire t rank).tracked
      unfold expire
      split
      · split <;> exact hi
      · exact hi

/-- The clock stands still during a turn. -/
theorem now_turned (b : Behaviour σ κ ρ ε) (l : Loop σ κ ρ ε) : (l.turned b).now = l.now := by
  cases h : l.resumption? with
  | none => exact (rests_turned h).now
  | some r =>
    rw [turned_of_resumption? h]
    split
    · exact now_runTask _ _ _ _ l.popped
    · exact (keeps_finish _ _ l.popped).now

end Loop

end CodeSession
