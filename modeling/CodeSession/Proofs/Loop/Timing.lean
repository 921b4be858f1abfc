import CodeSession.Proofs.Loop.Queue

/-!
# When timers run out

No timer runs out before its time, and none is missed.

* `Untimed` -- the operations that set no timer and let none run out;
* `Clocked` -- timers that have run out were due, and those that are due have run out;
  `Clocked.turned` and `Clocked.fireAt` keep it;
* `stage?_turned_of_timer` -- a task that waits for a time is queued as its timer runs out;
* `Clocked.lt_of_idle` -- no timer of a loop with an empty queue is due.
-/

namespace CodeSession.Loop

variable {σ κ ρ ε : Type} {l l' l'' : Loop σ κ ρ ε} {t : TaskId} {k : κ} {rank time : Nat}
  {due : Option Nat}

/-! ## 1. Operations that leave the timers alone -/

/-- No timer is set and none runs out; a task may stop waiting for one. -/
structure Untimed (l l' : Loop σ κ ρ ε) : Prop where
  now : l'.now = l.now
  armed : l'.armed = l.armed
  timer : ∀ t k due rank, l'.stage? t = some (.waiting k (.timer due rank)) →
    l.stage? t = some (.waiting k (.timer due rank))
  expired : ∀ t rank, .expired t rank ∈ l'.ready ↔ .expired t rank ∈ l.ready

theorem Untimed.of_tasks_eq (hnow : l'.now = l.now) (harmed : l'.armed = l.armed)
    (htasks : l'.tasks = l.tasks) (hready : l'.ready = l.ready) : Untimed l l' := by
  refine ⟨hnow, harmed, fun t k due rank h => ?_, fun t rank => by rw [hready]⟩
  rw [← h, stage?, stage?, htasks]

theorem Untimed.refl (l : Loop σ κ ρ ε) : Untimed l l := .of_tasks_eq rfl rfl rfl rfl

theorem Untimed.trans (h : Untimed l l') (h' : Untimed l' l'') : Untimed l l'' where
  now := h'.now.trans h.now
  armed := h'.armed.trans h.armed
  timer t k due rank hs := h.timer t k due rank (h'.timer t k due rank hs)
  expired t rank := (h'.expired t rank).trans (h.expired t rank)

theorem untimed_push {cs : List Callback} (l : Loop σ κ ρ ε)
    (h : ∀ t rank, .expired t rank ∉ cs) : Untimed l (l.push cs) := by
  refine ⟨rfl, rfl, fun t k due rank hs => hs, fun t rank => ?_⟩
  show .expired t rank ∈ l.ready ++ cs ↔ _
  rw [List.mem_append]
  exact or_iff_left (h t rank)

theorem untimed_resume (t : TaskId) (l : Loop σ κ ρ ε) : Untimed l (l.push [.resume t]) :=
  untimed_push l fun u rank h => by cases List.mem_singleton.mp h

/-- A task is changed that does not begin to wait for a time. -/
theorem untimed_modify {f : Task κ ρ ε → Task κ ρ ε} (t : TaskId) (l : Loop σ κ ρ ε)
    (h : ∀ task k due rank, (f task).stage = .waiting k (.timer due rank) →
      task.stage = .waiting k (.timer due rank)) : Untimed l (l.modify t f) := by
  refine ⟨rfl, rfl, fun u k due rank hs => ?_, fun u rank => Iff.rfl⟩
  rw [stage?_modify] at hs
  split at hs
  · obtain ⟨task, htask, hstage⟩ := Option.map_eq_some_iff.mp hs
    rw [stage?, htask]
    exact congrArg some (h task k due rank hstage)
  · exact hs

theorem untimed_move {s : Stage κ ρ ε} (t : TaskId) (l : Loop σ κ ρ ε)
    (h : ∀ k due rank, s ≠ .waiting k (.timer due rank)) : Untimed l (l.move t s) :=
  untimed_modify t l fun _ k due rank e => absurd e (h k due rank)

/-- A task is queued. -/
theorem untimed_wake {begun cancelled : Bool} (t : TaskId) (k : κ) (l : Loop σ κ ρ ε) :
    Untimed l ((l.move t (.queued k begun cancelled)).push [.resume t]) :=
  (untimed_move t l fun _ _ _ e => by cases e).trans (untimed_resume t _)

theorem untimed_add (name : String) (isTracked : Bool) (k : κ) (l : Loop σ κ ρ ε) :
    Untimed l (l.add name isTracked k) := by
  refine ⟨rfl, rfl, fun u k' due rank hs => ?_, fun u rank => ?_⟩
  · rw [stage?_add] at hs
    split at hs
    · cases hs
    · exact hs
  · simp [add]

theorem untimed_cancel (t : TaskId) (l : Loop σ κ ρ ε) : Untimed l (l.cancel t) := by
  unfold cancel
  split
  · exact untimed_move t l fun _ _ _ e => by cases e
  · exact untimed_wake t _ l
  · exact .refl l

theorem untimed_signal (t : TaskId) (f : κ → κ) (l : Loop σ κ ρ ε) : Untimed l (l.signal t f) := by
  unfold signal
  split
  · exact untimed_wake t _ l
  · exact .refl l

theorem untimed_watch (watcher : TaskId) (l : Loop σ κ ρ ε) (t : TaskId) :
    Untimed l (l.watch watcher t) := by
  unfold watch
  split
  · exact untimed_push l fun u rank h => by cases List.mem_singleton.mp h
  · exact untimed_modify t l fun _ _ _ _ e => e

theorem untimed_foldl_watch (watcher : TaskId) (ids : List TaskId) (l : Loop σ κ ρ ε) :
    Untimed l (ids.foldl (watch watcher) l) := by
  induction ids generalizing l with
  | nil => exact .refl l
  | cons t ids ih => exact (untimed_watch watcher l t).trans (ih _)

theorem untimed_finish (t : TaskId) (e : Ending ρ ε) (l : Loop σ κ ρ ε) :
    Untimed l (l.finish t e) := by
  unfold finish
  split
  · exact .refl l
  · rename_i task _
    have hnotes : ∀ u rank, .expired u rank ∉ (if task.isTracked then [Callback.settled t] else [])
        ++ task.watchers.map Callback.counted := by
      intro u rank hmem
      rcases List.mem_append.mp hmem with hmem | hmem
      · split at hmem
        · cases List.mem_singleton.mp hmem
        · cases hmem
      · obtain ⟨_, _, e⟩ := List.mem_map.mp hmem
        cases e
    have hmodify : Untimed l
        (l.modify t fun task => { task with stage := .ended e, watchers := [] }) :=
      untimed_modify t l fun _ _ _ _ h => by cases h
    have hended : ∀ ended (l : Loop σ κ ρ ε), Untimed l { l with ended := ended } :=
      fun _ _ => .of_tasks_eq rfl rfl rfl rfl
    exact hmodify.trans ((untimed_push _ hnotes).trans (hended _ _))

theorem untimed_obey (l : Loop σ κ ρ ε) (o : Order κ) : Untimed l (l.obey o) := by
  cases o with
  | spawn name k =>
    unfold obey
    dsimp only
    split
    · exact .refl l
    · exact untimed_add name true k l
  | cancel t => exact untimed_cancel t l
  | _ => exact .of_tasks_eq rfl rfl rfl rfl

theorem untimed_foldl_obey (orders : List (Order κ)) (l : Loop σ κ ρ ε) :
    Untimed l (orders.foldl obey l) := by
  induction orders generalizing l with
  | nil => exact .refl l
  | cons o orders ih => exact (untimed_obey l o).trans (ih _)

theorem untimed_foldl_obey_state (x : σ) (orders : List (Order κ)) (l : Loop σ κ ρ ε) :
    Untimed l (orders.foldl obey { l with state := x }) :=
  have h : Untimed l { l with state := x } := .of_tasks_eq rfl rfl rfl rfl
  h.trans (untimed_foldl_obey orders _)

theorem untimed_perform (f : Facts → σ → σ × List (Order κ)) (l : Loop σ κ ρ ε) :
    Untimed l (l.perform f) :=
  untimed_foldl_obey_state _ _ l

theorem untimed_count (watcher : TaskId) (l : Loop σ κ ρ ε) : Untimed l (l.count watcher) := by
  unfold count
  split
  · split
    · exact untimed_wake watcher _ l
    · exact untimed_move watcher l fun _ _ _ e => by cases e
  · exact .refl l

/-- The queue goes on behind a callback that is not the end of a timer. -/
theorem untimed_popped {c : Callback} (hhead : l.ready.head? = some c)
    (hc : ∀ t rank, c ≠ .expired t rank) : Untimed l l.popped :=
  ⟨rfl, rfl, fun _ _ _ _ h => h, fun t rank =>
    ⟨ready_of_mem_popped, fun h => mem_popped hhead h (hc t rank).symm⟩⟩

/-! ## 2. Timers against the clock -/

/-- The timers against the clock: each was set, those that have run out were due, and those that are
    due have run out. -/
structure Clocked (l : Loop σ κ ρ ε) : Prop where
  armed : ∀ t k time rank, l.stage? t = some (.waiting k (.timer (some time) rank)) →
    rank < l.armed
  expired : ∀ t rank, .expired t rank ∈ l.ready → rank < l.armed ∧
    ∀ k due, l.stage? t = some (.waiting k (.timer due rank)) →
      ∃ time, due = some time ∧ time ≤ l.now
  due : ∀ t k time rank, l.stage? t = some (.waiting k (.timer (some time) rank)) →
    time ≤ l.now → .expired t rank ∈ l.ready

theorem Clocked.untimed (h : Clocked l) (hu : Untimed l l') : Clocked l' where
  armed t k time rank hs := by
    rw [hu.armed]
    exact h.armed t k time rank (hu.timer t k _ rank hs)
  expired t rank hmem := by
    obtain ⟨hlt, htime⟩ := h.expired t rank ((hu.expired t rank).mp hmem)
    rw [hu.armed, hu.now]
    exact ⟨hlt, fun k due hs => htime k due (hu.timer t k due rank hs)⟩
  due t k time rank hs hle := by
    rw [hu.now] at hle
    exact (hu.expired t rank).mpr (h.due t k time rank (hu.timer t k _ rank hs) hle)

/-- In a loop with an empty queue no timer is due. -/
theorem Clocked.lt_of_idle (h : Clocked l) (hidle : l.ready = [])
    (hs : l.stage? t = some (.waiting k (.timer (some time) rank))) : l.now < time := by
  refine Nat.lt_of_not_le fun hle => ?_
  have hmem := h.due t k time rank hs hle
  rw [hidle] at hmem
  cases hmem

/-- A timer that is set is not due, and comes after all that were set before. -/
theorem Clocked.set (h : Clocked l) (hnow : l'.now = l.now) (harmed : l.armed ≤ l'.armed)
    (hready : l'.ready = l.ready) (hstage : ∀ u, l'.stage? u =
      if u = t then (l.stage? u).map fun _ => .waiting k (.timer due l.armed) else l.stage? u)
    (hlater : ∀ time, due = some time → l.now < time ∧ l.armed < l'.armed) : Clocked l' := by
  have hbefore : ∀ u k' d rank, l'.stage? u = some (.waiting k' (.timer d rank)) →
      l.stage? u = some (.waiting k' (.timer d rank)) ∨ d = due ∧ rank = l.armed := by
    intro u k' d rank hs
    rw [hstage] at hs
    split at hs
    · obtain ⟨_, _, he⟩ := Option.map_eq_some_iff.mp hs
      cases he
      exact .inr ⟨rfl, rfl⟩
    · exact .inl hs
  constructor
  case armed =>
    intro u k' time rank hs
    rcases hbefore u k' _ rank hs with hold | ⟨he, rfl⟩
    · have hlt := h.armed u k' time rank hold
      omega
    · exact (hlater time he.symm).2
  case expired =>
    intro u rank hmem
    rw [hready] at hmem
    obtain ⟨hlt, htime⟩ := h.expired u rank hmem
    refine ⟨by omega, fun k' d hs => ?_⟩
    rcases hbefore u k' d rank hs with hold | ⟨_, rfl⟩
    · rw [hnow]
      exact htime k' d hold
    · omega
  case due =>
    intro u k' time rank hs hle
    rw [hready]
    rw [hnow] at hle
    rcases hbefore u k' _ rank hs with hold | ⟨he, _⟩
    · exact h.due u k' time rank hold hle
    · have hlt := (hlater time he.symm).1
      omega

/-- A task that begins to wait may set a timer. -/
theorem Clocked.pause (h : Clocked l) (t : TaskId) (p : Pause) (k : κ) :
    Clocked (l.pause t p k) := by
  unfold Loop.pause
  split
  · exact h.untimed (untimed_wake t k l)
  · exact h.untimed (untimed_wake t k l)
  · exact h.set rfl (Nat.le_refl _) rfl (stage?_move t (.waiting k (.timer none l.armed)) l)
      fun time e => by cases e
  · rename_i ticks hticks
    have hpositive : 0 < ticks := Nat.pos_of_ne_zero fun e => hticks (by rw [e])
    refine h.set rfl (Nat.le_succ _) rfl
      (stage?_move t (.waiting k (.timer (some (l.now + ticks)) l.armed)) l) fun time e => ?_
    cases e
    exact ⟨Nat.lt_add_of_pos_right hpositive, Nat.lt_succ_self _⟩
  · exact h.untimed (untimed_move t l fun _ _ _ e => by cases e)
  · rename_i ids _
    have hwaits : Untimed l (l.move t (.waiting k (.tasks ids.length))) :=
      untimed_move t l fun _ _ _ e => by cases e
    exact h.untimed (hwaits.trans (untimed_foldl_watch t _ _))

theorem Clocked.goOn (h : Clocked l) (t : TaskId) (n : Next κ ρ ε) : Clocked (l.goOn t n) := by
  cases n with
  | pause p k => exact h.pause t p k
  | finish e => exact h.untimed (untimed_finish t e l)

/-- The end of a timer is taken from the queue, and its task is queued. -/
theorem Clocked.expire (h : Clocked l) (hhead : l.ready.head? = some (.expired t rank)) :
    Clocked (l.popped.expire t rank) := by
  unfold Loop.expire
  split
  · rename_i k d r hs
    have hs' : l.stage? t = some (.waiting k (.timer d r)) := hs
    split
    · rename_i hr
      subst hr
      have hother : ∀ u k' d' r', ((l.popped.move t (.queued k true false)).push
          [.resume t]).stage? u = some (.waiting k' (.timer d' r')) →
          u ≠ t ∧ l.stage? u = some (.waiting k' (.timer d' r')) := by
        intro u k' d' r' hu
        rw [stage?_push, stage?_move] at hu
        split at hu
        · obtain ⟨_, _, he⟩ := Option.map_eq_some_iff.mp hu
          cases he
        · rename_i hne
          exact ⟨hne, hu⟩
      constructor
      case armed => exact fun u k' time r' hu => h.armed u k' time r' (hother u k' _ r' hu).2
      case expired =>
        intro u r' hmem
        have hmem' : .expired u r' ∈ l.popped.ready := by
          rcases List.mem_append.mp hmem with hmem | hmem
          · exact hmem
          · cases List.mem_singleton.mp hmem
        obtain ⟨hlt, htime⟩ := h.expired u r' (ready_of_mem_popped hmem')
        exact ⟨hlt, fun k' d' hu => htime k' d' (hother u k' d' r' hu).2⟩
      case due =>
        intro u k' time r' hu hle
        obtain ⟨hne, hold⟩ := hother u k' _ r' hu
        have hmem := h.due u k' time r' hold hle
        refine List.mem_append_left _ (mem_popped hhead hmem fun e => ?_)
        cases e
        exact hne rfl
    · rename_i hr
      refine ⟨h.armed, fun u r' hmem => h.expired u r' (ready_of_mem_popped hmem),
        fun u k' time r' hu hle => mem_popped hhead (h.due u k' time r' hu hle) fun e => ?_⟩
      cases e
      rw [show l.stage? t = some (.waiting k' (.timer (some time) rank)) from hu] at hs'
      cases hs'
      exact hr rfl
  · rename_i hno
    refine ⟨h.armed, fun u r' hmem => h.expired u r' (ready_of_mem_popped hmem),
      fun u k' time r' hu hle => mem_popped hhead (h.due u k' time r' hu hle) fun e => ?_⟩
    cases e
    exact hno _ _ _ hu

/-- **Every turn keeps the timers in line with the clock.** -/
theorem Clocked.turned (h : Clocked l) (b : Behaviour σ κ ρ ε) : Clocked (l.turned b) := by
  cases hhead : l.ready.head? with
  | none =>
    have hr : l.ready = [] := List.head?_eq_none_iff.mp hhead
    have he : l.turned b = l := by simp [Loop.turned, turn, hr]
    rw [he]
    exact h
  | some c =>
    rw [turned_of_head hhead]
    cases c with
    | resume t =>
      have hpop : Clocked l.popped := h.untimed (untimed_popped hhead fun _ _ e => by cases e)
      have hrun : ∀ k w, Clocked (l.popped.runTask b t k w) := fun k w =>
        (hpop.untimed (untimed_foldl_obey_state _ _ l.popped)).goOn t _
      show Clocked (l.popped.resume b t)
      unfold resume
      split
      · split
        · split
          · exact hrun _ _
          · exact hpop.untimed (untimed_finish t _ _)
        · exact hrun _ _
      · exact hpop
    | settled t =>
      have hpop : Clocked l.popped := h.untimed (untimed_popped hhead fun _ _ e => by cases e)
      exact hpop.untimed (.of_tasks_eq rfl rfl rfl rfl)
    | counted w =>
      have hpop : Clocked l.popped := h.untimed (untimed_popped hhead fun _ _ e => by cases e)
      exact hpop.untimed (untimed_count w l.popped)
    | expired t rank => exact h.expire hhead

/-! ## 3. The clock moves -/

theorem mem_timers {timer : Timer} : timer ∈ l.timers ↔
    ∃ k, l.stage? timer.task = some (.waiting k (.timer (some timer.due) timer.rank)) := by
  unfold timers
  rw [List.mem_filterMap]
  constructor
  · rintro ⟨⟨task, i⟩, hmem, htimer⟩
    have hget : l.tasks[i]? = some task := by simpa using List.mem_zipIdx_iff_getElem?.mp hmem
    unfold timerOf at htimer
    split at htimer
    · rename_i k due rank hstage
      cases htimer
      exact ⟨k, by rw [stage?, hget]; exact congrArg some hstage⟩
    · cases htimer
  · rintro ⟨k, hs⟩
    obtain ⟨task, hget, hstage⟩ := Option.map_eq_some_iff.mp hs
    refine ⟨(task, timer.task), List.mem_zipIdx_iff_getElem?.mpr hget, ?_⟩
    simp [timerOf, hstage]

/-- What runs out as the clock is set: the timers that are due. -/
theorem expired_mem_fireAt : .expired t rank ∈ (l.fireAt time).ready ↔
    .expired t rank ∈ l.ready ∨
      ∃ k when, l.stage? t = some (.waiting k (.timer (some when) rank)) ∧ when ≤ time := by
  show .expired t rank ∈ l.ready ++ List.map _ (List.mergeSort _ _) ↔ _
  rw [List.mem_append, List.mem_map]
  refine or_congr_right ⟨?_, ?_⟩
  · rintro ⟨timer, hmem, he⟩
    rw [List.mem_mergeSort, List.mem_filter, mem_timers] at hmem
    obtain ⟨⟨k, hs⟩, hle⟩ := hmem
    cases he
    exact ⟨k, timer.due, hs, of_decide_eq_true hle⟩
  · rintro ⟨k, when, hs, hle⟩
    refine ⟨⟨when, rank, t⟩, ?_, rfl⟩
    rw [List.mem_mergeSort, List.mem_filter, mem_timers]
    exact ⟨⟨k, hs⟩, decide_eq_true hle⟩

/-- **The clock that moves on keeps the timers in line with it.** -/
theorem Clocked.fireAt (h : Clocked l) (hle : l.now ≤ time) : Clocked (l.fireAt time) where
  armed := h.armed
  expired t rank hmem := by
    rcases expired_mem_fireAt.mp hmem with hold | ⟨k, when, hs, hdue⟩
    · obtain ⟨hlt, htime⟩ := h.expired t rank hold
      refine ⟨hlt, fun k' due' hs => ?_⟩
      obtain ⟨when, rfl, hdue⟩ := htime k' due' hs
      exact ⟨when, rfl, Nat.le_trans hdue hle⟩
    · refine ⟨h.armed t k when rank hs, fun k' due' hs' => ?_⟩
      have hs'' : l.stage? t = some (.waiting k' (.timer due' rank)) := hs'
      rw [hs] at hs''
      cases hs''
      exact ⟨when, rfl, hdue⟩
  due t k when rank hs hdue := expired_mem_fireAt.mpr (.inr ⟨k, when, hs, hdue⟩)

/-- A timer that is set runs out no earlier than the next that is due. -/
theorem exists_nextDue_le (hs : l.stage? t = some (.waiting k (.timer (some time) rank))) :
    ∃ first, l.nextDue = some first ∧ first ≤ time := by
  have hmem : time ∈ l.timers.map Timer.due :=
    List.mem_map.mpr ⟨⟨time, rank, t⟩, mem_timers.mpr ⟨k, hs⟩, rfl⟩
  cases hmin : l.nextDue with
  | none =>
    rw [nextDue, List.min?_eq_none_iff] at hmin
    rw [hmin] at hmem
    cases hmem
  | some first => exact ⟨first, rfl, (List.min?_eq_some_iff.mp hmin).2 time hmem⟩

/-! ## 4. Tasks that wait for a time -/

/-- **A task that waits for a time is queued as its timer runs out**, and by no other turn that
    resumes no task. -/
theorem stage?_turned_of_timer {b : Behaviour σ κ ρ ε} (h : l.resumption? = none)
    (hs : l.stage? t = some (.waiting k (.timer due rank))) :
    (l.turned b).stage? t = some (.waiting k (.timer due rank)) ∨
    .expired t rank ∈ l.ready ∧ (l.turned b).stage? t = some (.queued k true false) := by
  cases hhead : l.ready.head? with
  | none =>
    have hr : l.ready = [] := List.head?_eq_none_iff.mp hhead
    have he : l.turned b = l := by simp [Loop.turned, turn, hr]
    rw [he]
    exact .inl hs
  | some c =>
    rw [turned_of_head hhead]
    have hs' : l.popped.stage? t = some (.waiting k (.timer due rank)) := hs
    cases c with
    | resume u =>
      rw [show handle b l.popped (.resume u) = l.popped from resume_popped hhead h]
      exact .inl hs
    | settled u => exact .inl hs
    | counted w =>
      refine .inl ?_
      show (l.popped.count w).stage? t = _
      unfold count
      split
      · rename_i hw
        have hne : t ≠ w := by
          rintro rfl
          rw [hs'] at hw
          cases hw
        split
        · rw [stage?_push, stage?_move, if_neg hne, hs']
        · rw [stage?_move, if_neg hne, hs']
      · exact hs'
    | expired u r =>
      show (l.popped.expire u r).stage? t = _ ∨ _ ∧ (l.popped.expire u r).stage? t = _
      unfold Loop.expire
      split
      · rename_i k' due' r' hu
        split
        · rename_i hr
          subst hr
          by_cases hne : t = u
          · subst hne
            rw [hs'] at hu
            cases hu
            refine .inr ⟨List.mem_of_mem_head? hhead, ?_⟩
            rw [stage?_push, stage?_move, if_pos rfl, hs']
            rfl
          · rw [stage?_push, stage?_move, if_neg hne]
            exact .inl hs'
        · exact .inl hs'
      · exact .inl hs'

end CodeSession.Loop
