import CodeSession.Proofs.Loop.Turns

/-!
# Tasks that stand apart

What the rest of a loop knows of a task: whether it is tracked, has a callback in the queue, or
watches another. A task that is launched from outside and waits for nothing but signals stands apart
from the rest, so that nothing but its own runs and signals moves it.

* `Within` -- all that is known in a loop is known of certain tasks;
* `Scoped`, `Scoped.turned` -- nothing is known of tasks that do not exist;
* `Apart`, `Apart.turned` -- of one task nothing is known but its own runs;
* `Apart.obeyed`, `Apart.added`, … -- moves from outside leave it apart.
-/

namespace CodeSession

variable {σ κ ρ ε : Type}

/-! ## 1. What is known of tasks -/

/-- A callback runs a task of which one thing may be said, or tells about one of which another. -/
def Callback.Within (P Q : TaskId → Prop) : Callback → Prop
  | .resume t => Q t
  | .settled t | .counted t | .expired t _ => P t

namespace Loop

/-- The failure that is noted when the end of a task is settled is this task's. -/
theorem task_of_failure {l : Loop σ κ ρ ε} {t : TaskId} {f : Failed ε}
    (h : f ∈ (l.tasks[t]?.map (failure t)).getD []) : f.task = t := by
  cases ht : l.tasks[t]? with
  | none => rw [ht] at h; cases h
  | some task =>
    rw [ht] at h
    change f ∈ failure t task at h
    unfold failure at h
    split at h
    · rw [List.mem_singleton.mp h]
    · cases h

/-- All that is known in a loop is known of certain tasks: `Q` holds of those that run or have ended,
    and `P` of those of which anything else is known. -/
structure Within (P Q : TaskId → Prop) (l : Loop σ κ ρ ε) : Prop where
  tracked : ∀ i ∈ l.tracked, P i
  ready : ∀ c ∈ l.ready, c.Within P Q
  watchers : ∀ task ∈ l.tasks, ∀ w ∈ task.watchers, P w
  failed : ∀ f ∈ l.failures, P f.task
  ended : ∀ i ∈ l.ended, Q i

namespace Within

variable {P Q P' Q' : TaskId → Prop} {l : Loop σ κ ρ ε} {t : TaskId}

theorem mono (h : Within P Q l) (hP : ∀ i, P i → P' i) (hQ : ∀ i, Q i → Q' i) :
    Within P' Q' l where
  tracked i hi := hP i (h.tracked i hi)
  ready c hc := by
    have hold := h.ready c hc
    cases c with
    | resume t => exact hQ _ hold
    | _ => exact hP _ hold
  watchers task ht w hw := hP w (h.watchers task ht w hw)
  failed f hf := hP f.task (h.failed f hf)
  ended i hi := hQ i (h.ended i hi)

theorem push (h : Within P Q l) {cs : List Callback} (hcs : ∀ c ∈ cs, c.Within P Q) :
    Within P Q (l.push cs) where
  tracked := h.tracked
  ready c hc := (List.mem_append.mp hc).elim (h.ready c) (hcs c)
  watchers := h.watchers
  failed := h.failed
  ended := h.ended

theorem resume (h : Within P Q l) (ht : Q t) : Within P Q (l.push [.resume t]) :=
  h.push fun c hc => by
    cases List.mem_singleton.mp hc
    exact ht

theorem popped (h : Within P Q l) : Within P Q l.popped where
  tracked := h.tracked
  ready c hc := h.ready c (List.mem_of_mem_tail hc)
  watchers := h.watchers
  failed := h.failed
  ended := h.ended

theorem modify (h : Within P Q l) (t : TaskId) {f : Task κ ρ ε → Task κ ρ ε}
    (hf : ∀ task, (∀ w ∈ task.watchers, P w) → ∀ w ∈ (f task).watchers, P w) :
    Within P Q (l.modify t f) where
  tracked := h.tracked
  ready := h.ready
  watchers task htask := by
    obtain ⟨i, hi⟩ := List.mem_iff_getElem?.mp htask
    have hget : (l.tasks.modify t f)[i]? = some task := hi
    rw [List.getElem?_modify] at hget
    obtain ⟨old, hold, rfl⟩ := Option.map_eq_some_iff.mp hget
    have hwatchers := h.watchers old (List.mem_of_getElem? hold)
    split
    · exact hf old hwatchers
    · exact hwatchers
  failed := h.failed
  ended := h.ended

theorem move (h : Within P Q l) (t : TaskId) (s : Stage κ ρ ε) : Within P Q (l.move t s) :=
  h.modify t fun _ hw => hw

theorem add (h : Within P Q l) (name : String) (isTracked : Bool) (k : κ)
    (hP : isTracked = true → P l.tasks.length) (hQ : Q l.tasks.length) :
    Within P Q (l.add name isTracked k) where
  tracked i hi := by
    cases isTracked with
    | false => exact h.tracked i hi
    | true =>
      rcases List.mem_append.mp hi with hi | hi
      · exact h.tracked i hi
      · rw [List.mem_singleton.mp hi]
        exact hP rfl
  ready c hc := by
    rcases List.mem_append.mp hc with hc | hc
    · exact h.ready c hc
    · rw [List.mem_singleton.mp hc]
      exact hQ
  watchers task htask := by
    rcases List.mem_append.mp htask with htask | htask
    · exact h.watchers task htask
    · rw [List.mem_singleton.mp htask]
      exact fun w hw => (nomatch hw)
  failed := h.failed
  ended := h.ended

section Runs

variable (hQ : ∀ i < l.tasks.length, Q i)

include hQ

theorem cancel (h : Within P Q l) (t : TaskId) : Within P Q (l.cancel t) := by
  unfold Loop.cancel
  split
  · exact h.move t _
  · rename_i hs
    exact (h.move t _).resume (hQ t (lt_of_stage? hs))
  · exact h

theorem signal (h : Within P Q l) (t : TaskId) (f : κ → κ) : Within P Q (l.signal t f) := by
  unfold Loop.signal
  split
  · rename_i hs
    exact (h.move t _).resume (hQ t (lt_of_stage? hs))
  · exact h

theorem count (h : Within P Q l) (w : TaskId) : Within P Q (l.count w) := by
  unfold Loop.count
  split
  · rename_i hs
    split
    · exact (h.move w _).resume (hQ w (lt_of_stage? hs))
    · exact h.move w _
  · exact h

theorem expire (h : Within P Q l) (t rank : TaskId) : Within P Q (l.expire t rank) := by
  unfold Loop.expire
  split
  · rename_i hs
    split
    · exact (h.move t _).resume (hQ t (lt_of_stage? hs))
    · exact h
  · exact h

end Runs

theorem obey (h : Within P Q l) (o : Order κ) (hQ : ∀ i < (l.obey o).tasks.length, Q i)
    (hP : ∀ i, l.tasks.length ≤ i → i < (l.obey o).tasks.length → P i) :
    Within P Q (l.obey o) := by
  cases o with
  | spawn name k =>
    by_cases hc : l.closed = true
    · rw [obey_spawn_closed hc]
      exact h
    · have hopen : l.closed = false := by simpa using hc
      rw [obey_spawn_open hopen] at hQ hP ⊢
      have hlt : l.tasks.length < (l.add name true k).tasks.length := by simp [Loop.add]
      exact h.add name true k (fun _ => hP _ (Nat.le_refl _) hlt) (hQ _ hlt)
  | cancel t =>
    exact h.cancel (fun i hi => hQ i (Nat.lt_of_lt_of_le hi (length_le_obey l _))) t
  | forget => exact ⟨fun i hi => absurd hi List.not_mem_nil, h.ready, h.watchers, h.failed, h.ended⟩
  | _ => exact ⟨h.tracked, h.ready, h.watchers, h.failed, h.ended⟩

theorem foldl_obey (h : Within P Q l) (orders : List (Order κ))
    (hQ : ∀ i < (orders.foldl Loop.obey l).tasks.length, Q i)
    (hP : ∀ i, l.tasks.length ≤ i → i < (orders.foldl Loop.obey l).tasks.length → P i) :
    Within P Q (orders.foldl Loop.obey l) := by
  induction orders generalizing l with
  | nil => exact h
  | cons o orders ih =>
    have hle : (l.obey o).tasks.length ≤ (orders.foldl Loop.obey (l.obey o)).tasks.length :=
      length_le_foldl_obey orders _
    refine ih (h.obey o (fun i hi => hQ i (Nat.lt_of_lt_of_le hi hle)) fun i hi hlt =>
      hP i hi (Nat.lt_of_lt_of_le hlt hle)) hQ fun i hi hlt => ?_
    exact hP i (Nat.le_trans (length_le_obey l o) hi) hlt

theorem foldl_watch (h : Within P Q l) {w : TaskId} (hw : P w) (ids : List TaskId) :
    Within P Q (ids.foldl (watch w) l) := by
  induction ids generalizing l with
  | nil => exact h
  | cons t ids ih =>
    refine ih ?_
    unfold watch
    split
    · refine h.push fun c hc => ?_
      cases List.mem_singleton.mp hc
      exact hw
    · refine h.modify t fun task hold w' hw' => ?_
      rcases List.mem_append.mp hw' with hw' | hw'
      · exact hold w' hw'
      · rw [List.mem_singleton.mp hw']
        exact hw

theorem pause (h : Within P Q l) (p : Pause) (k : κ) (hQ : Q t)
    (hP : ∀ ids, p = .tasks ids → P t) : Within P Q (l.pause t p k) := by
  match p with
  | .sleep none => exact h.move t _
  | .sleep (some 0) => exact (h.move t _).resume hQ
  | .sleep (some (n + 1)) =>
    have hmove := h.move t (.waiting k (.timer (some (l.now + (n + 1))) l.armed))
    exact ⟨hmove.tracked, hmove.ready, hmove.watchers, hmove.failed, hmove.ended⟩
  | .signal => exact h.move t _
  | .tasks [] => exact (h.move t _).resume hQ
  | .tasks (u :: ids) => exact (h.move t _).foldl_watch (hP _ rfl) (u :: ids)

theorem finish (h : Within P Q l) (e : Ending ρ ε) (hQ : Q t)
    (hP : ∀ task, l.tasks[t]? = some task → task.isTracked = true → P t) :
    Within P Q (l.finish t e) := by
  unfold Loop.finish
  split
  · exact h
  · rename_i task htask
    have hnotes : ∀ c ∈ (if task.isTracked then [Callback.settled t] else []) ++
        task.watchers.map Callback.counted, c.Within P Q := by
      intro c hc
      rcases List.mem_append.mp hc with hc | hc
      · split at hc
        · rename_i htracked
          cases List.mem_singleton.mp hc
          exact hP task htask htracked
        · cases hc
      · obtain ⟨w, hw, rfl⟩ := List.mem_map.mp hc
        exact h.watchers task (List.mem_of_getElem? htask) w hw
    have hended : Within P Q ((l.modify t fun task =>
        { task with stage := .ended e, watchers := [] }).push _) :=
      (h.modify t fun _ _ _ hw => by cases hw).push hnotes
    refine ⟨hended.tracked, hended.ready, hended.watchers, hended.failed, fun i hi => ?_⟩
    rcases List.mem_append.mp hi with hi | hi
    · exact h.ended i hi
    · rw [List.mem_singleton.mp hi]
      exact hQ

theorem goOn (h : Within P Q l) (n : Next κ ρ ε) (hQ : Q t)
    (hP : ∀ task, l.tasks[t]? = some task → task.isTracked = true → P t)
    (hwatch : ∀ ids k, n = .pause (.tasks ids) k → P t) : Within P Q (l.goOn t n) := by
  cases n with
  | pause p k => exact h.pause p k hQ fun ids hp => hwatch ids k (hp ▸ rfl)
  | finish e => exact h.finish e hQ hP

theorem settleEnd (h : Within P Q l) (ht : P t) : Within P Q (l.settleEnd t) where
  tracked i hi := h.tracked i ((List.mem_filter.mp hi).1)
  ready := h.ready
  watchers := h.watchers
  failed f hf := by
    rcases List.mem_append.mp hf with hf | hf
    · exact h.failed f hf
    · rw [task_of_failure hf]
      exact ht
  ended := h.ended

/-- Timers tell about the tasks that wait for them. -/
theorem fireAt (h : Within P Q l) (time : Nat)
    (hP : ∀ t k due rank, l.stage? t = some (.waiting k (.timer due rank)) → P t) :
    Within P Q (l.fireAt time) := by
  have hnow : Within P Q { l with now := time } :=
    ⟨h.tracked, h.ready, h.watchers, h.failed, h.ended⟩
  refine hnow.push fun c hc => ?_
  obtain ⟨timer, htimer, rfl⟩ := List.mem_map.mp hc
  have hmem := (List.mem_filter.mp ((List.mergeSort_perm _ _).mem_iff.mp htimer)).1
  obtain ⟨⟨task, i⟩, htask, hof⟩ := List.mem_filterMap.mp hmem
  have hget : l.tasks[i]? = some task := (List.mem_zipIdx_iff_getElem? (x := (task, i))).mp htask
  unfold timerOf at hof
  split at hof
  · rename_i k due rank hs
    cases hof
    exact hP i k (some due) rank (by rw [stage?, hget]; exact congrArg some hs)
  · cases hof

end Within

/-! ## 2. The bonds of a task -/

section Bonds

variable {l : Loop σ κ ρ ε} {t u : TaskId}

/-- Whether a task is tracked, and its watchers. -/
def bonds? (l : Loop σ κ ρ ε) (t : TaskId) : Option (Bool × List TaskId) :=
  l.tasks[t]?.map fun task => (task.isTracked, task.watchers)

theorem bonds?_modify {f : Task κ ρ ε → Task κ ρ ε} (u : TaskId)
    (hf : u = t → ∀ task, ((f task).isTracked, (f task).watchers) = (task.isTracked, task.watchers)) :
    (l.modify u f).bonds? t = l.bonds? t := by
  show ((l.tasks.modify u f)[t]?).map _ = _
  rw [List.getElem?_modify, Option.map_eq_map, Option.map_map, bonds?]
  cases l.tasks[t]? with
  | none => rfl
  | some task =>
    by_cases hu : u = t
    · simpa [hu] using hf hu task
    · simp [hu]

@[simp] theorem bonds?_push (cs : List Callback) : (l.push cs).bonds? t = l.bonds? t := rfl

@[simp] theorem bonds?_move (u : TaskId) (s : Stage κ ρ ε) : (l.move u s).bonds? t = l.bonds? t :=
  bonds?_modify u fun _ _ => rfl

@[simp] theorem bonds?_cancel (u : TaskId) : (l.cancel u).bonds? t = l.bonds? t := by
  unfold cancel
  split <;> simp

@[simp] theorem bonds?_signal (u : TaskId) (f : κ → κ) : (l.signal u f).bonds? t = l.bonds? t := by
  unfold signal
  split <;> simp

@[simp] theorem bonds?_count (u : TaskId) : (l.count u).bonds? t = l.bonds? t := by
  unfold count
  split
  · split <;> simp
  · rfl

@[simp] theorem bonds?_expire (u rank : TaskId) : (l.expire u rank).bonds? t = l.bonds? t := by
  unfold expire
  split
  · split <;> simp
  · rfl

theorem bonds?_add (ht : t < l.tasks.length) (name : String) (isTracked : Bool) (k : κ) :
    (l.add name isTracked k).bonds? t = l.bonds? t := by
  simp only [bonds?, add, List.getElem?_append_left ht]

theorem bonds?_obey (ht : t < l.tasks.length) (o : Order κ) : (l.obey o).bonds? t = l.bonds? t := by
  cases o with
  | spawn name k =>
    show (if l.closed then l else l.add name true k).bonds? t = _
    split
    · rfl
    · exact bonds?_add ht name true k
  | cancel u => exact bonds?_cancel u
  | _ => rfl

theorem bonds?_foldl_obey (ht : t < l.tasks.length) (orders : List (Order κ)) :
    (orders.foldl obey l).bonds? t = l.bonds? t := by
  induction orders generalizing l with
  | nil => rfl
  | cons o orders ih =>
    rw [List.foldl_cons, ih (Nat.lt_of_lt_of_le ht (length_le_obey l o)), bonds?_obey ht]

theorem bonds?_foldl_watch {ids : List TaskId} (ht : t ∉ ids) (w : TaskId) :
    (ids.foldl (watch w) l).bonds? t = l.bonds? t := by
  induction ids generalizing l with
  | nil => rfl
  | cons u ids ih =>
    obtain ⟨hne, hrest⟩ := List.ne_and_not_mem_of_not_mem_cons ht
    rw [List.foldl_cons, ih hrest]
    unfold watch
    split
    · rfl
    · exact bonds?_modify u fun h => absurd h.symm hne

theorem bonds?_pause {p : Pause} (ht : ∀ ids, p = .tasks ids → t ∉ ids) (u : TaskId) (k : κ) :
    (l.pause u p k).bonds? t = l.bonds? t := by
  match p with
  | .sleep none => exact bonds?_move u _
  | .sleep (some 0) => exact bonds?_move u _
  | .sleep (some (n + 1)) => exact bonds?_move u _
  | .signal => exact bonds?_move u _
  | .tasks [] => exact bonds?_move u _
  | .tasks (v :: ids) => exact (bonds?_foldl_watch (ht _ rfl) u).trans (bonds?_move u _)

/-- The end of a task leaves it without watchers. -/
theorem bonds?_finish (h : l.bonds? t = some (false, [])) (u : TaskId) (e : Ending ρ ε) :
    (l.finish u e).bonds? t = some (false, []) := by
  unfold finish
  split
  · exact h
  · show ((l.tasks.modify u _)[t]?).map _ = _
    rw [List.getElem?_modify, Option.map_eq_map, Option.map_map]
    obtain ⟨task, htask, hbonds⟩ := Option.map_eq_some_iff.mp h
    obtain ⟨htracked, hwatchers⟩ := Prod.mk.inj hbonds
    rw [htask]
    by_cases hu : u = t <;> simp [hu, htracked, hwatchers]

theorem bonds?_fireAt (time : Nat) : (l.fireAt time).bonds? t = l.bonds? t := rfl

end Bonds

/-! ## 3. Turns -/

section Turns

variable {P Q : TaskId → Prop} {l : Loop σ κ ρ ε} {b : Behaviour σ κ ρ ε} {t u : TaskId} {k : κ}
  {w : Wake}

theorem lt_of_bonds? {x : Bool × List TaskId} (h : l.bonds? t = some x) : t < l.tasks.length := by
  obtain ⟨task, htask, _⟩ := Option.map_eq_some_iff.mp h
  exact (List.getElem?_eq_some_iff.mp htask).1

theorem turned_of_nil (h : l.ready = []) : l.turned b = l := by
  simp [Loop.turned, turn, h]

/-- **A turn makes no more known of tasks**, but of one that ends or watches others, and of those that
    are spawned. -/
theorem Within.turned (h : Within P Q l) (hQ : ∀ i < (l.turned b).tasks.length, Q i)
    (hnew : ∀ i, l.tasks.length ≤ i → i < (l.turned b).tasks.length → P i)
    (htracked : ∀ t task, l.tasks[t]? = some task → task.isTracked = true → P t)
    (hwatch : ∀ t k w ids k', l.resumption? = some ⟨t, k, some w⟩ →
      (b l.facts k w l.state).next = .pause (.tasks ids) k' → P t) : Within P Q (l.turned b) := by
  have hfinish : ∀ (z : Loop σ κ ρ ε) (t : TaskId), t < l.tasks.length → z.bonds? t = l.bonds? t →
      ∀ task, z.tasks[t]? = some task → task.isTracked = true → P t := by
    intro z t ht hbonds task htask htrue
    obtain ⟨old, hold⟩ : ∃ old, l.tasks[t]? = some old :=
      ⟨_, List.getElem?_eq_some_iff.mpr ⟨ht, rfl⟩⟩
    refine htracked t old hold ?_
    simp only [bonds?, htask, hold, Option.map_some, Option.some.injEq, Prod.mk.injEq] at hbonds
    exact hbonds.1 ▸ htrue
  have hlen : l.tasks.length ≤ (l.turned b).tasks.length := by
    cases hr : l.resumption? with
    | none => exact Nat.le_of_eq (rests_turned hr).length.symm
    | some r =>
      obtain ⟨t, k, _ | w⟩ := r
      · rw [turned_of_drop hr, (keeps_finish _ _ _).length]
        exact Nat.le_refl _
      · exact length_le_turned_of_run hr
  have hQ' : ∀ i < l.tasks.length, Q i := fun i hi => hQ i (Nat.lt_of_lt_of_le hi hlen)
  cases hr : l.resumption? with
  | some r =>
    obtain ⟨t, k, _ | w⟩ := r
    · have hlt : t < l.tasks.length := Resumption.lt hr
      rw [turned_of_drop hr]
      exact h.popped.finish _ (hQ' t hlt) (hfinish l.popped t hlt rfl)
    · have hlt : t < l.tasks.length := Resumption.lt hr
      rw [turned_of_run hr, runTask_eq] at hQ hnew ⊢
      rw [(keeps_goOn _ _ _).length] at hQ hnew
      have hstate : Within P Q { l.popped with state := (b l.facts k w l.state).state } :=
        ⟨h.tracked, h.popped.ready, h.watchers, h.failed, h.ended⟩
      have hordered : Within P Q (l.popped.ordered b k w) := hstate.foldl_obey _ hQ hnew
      refine hordered.goOn _ (hQ' t hlt) (hfinish _ t hlt ?_) fun ids k' hnext =>
        hwatch t k w ids k' hr hnext
      exact bonds?_foldl_obey (l := { l.popped with state := (b l.facts k w l.state).state }) hlt _
  | none =>
    cases hhead : l.ready.head? with
    | none =>
      rw [turned_of_nil (List.head?_eq_none_iff.mp hhead)]
      exact h
    | some c =>
      rw [turned_of_head hhead]
      cases c with
      | resume t =>
        rw [show handle b l.popped (.resume t) = l.popped from resume_popped hhead hr]
        exact h.popped
      | settled t => exact h.popped.settleEnd (h.ready (.settled t) (List.mem_of_head? hhead))
      | counted w => exact Within.count (l := l.popped) hQ' h.popped w
      | expired t rank => exact Within.expire (l := l.popped) hQ' h.popped t rank

/-- The bonds of a task that is not tracked and has no watchers stay, if no task comes to watch it. -/
theorem bonds?_turned (h : l.bonds? t = some (false, []))
    (hwatch : ∀ u k w ids k', l.resumption? = some ⟨u, k, some w⟩ →
      (b l.facts k w l.state).next = .pause (.tasks ids) k' → t ∉ ids) :
    (l.turned b).bonds? t = some (false, []) := by
  cases hr : l.resumption? with
  | some r =>
    obtain ⟨u, k, _ | w⟩ := r
    · rw [turned_of_drop hr]
      exact bonds?_finish (l := l.popped) h u _
    · rw [turned_of_run hr, runTask_eq]
      have hordered : (l.popped.ordered b k w).bonds? t = some (false, []) :=
        (bonds?_foldl_obey (l := { l.popped with state := (b l.facts k w l.state).state })
          (lt_of_bonds? h) _).trans h
      cases hnext : (b l.popped.facts k w l.popped.state).next with
      | pause p k' =>
        exact (bonds?_pause (fun ids hp => hwatch u k w ids k' hr (hp ▸ hnext)) u k').trans hordered
      | finish e => exact bonds?_finish hordered u e
  | none =>
    cases hhead : l.ready.head? with
    | none =>
      rw [turned_of_nil (List.head?_eq_none_iff.mp hhead)]
      exact h
    | some c =>
      rw [turned_of_head hhead]
      cases c with
      | resume u =>
        rw [show handle b l.popped (.resume u) = l.popped from resume_popped hhead hr]
        exact h
      | settled u => exact h
      | counted u => exact (bonds?_count u).trans h
      | expired u rank => exact (bonds?_expire u rank).trans h

end Turns

/-! ## 4. Tasks that do not exist -/

/-- Nothing is known of tasks that do not exist. -/
def Scoped (l : Loop σ κ ρ ε) : Prop :=
  Within (· < l.tasks.length) (· < l.tasks.length) l

theorem scoped_start (s : σ) : Scoped (start s : Loop σ κ ρ ε) where
  tracked _ hi := (nomatch hi)
  ready _ hc := (nomatch hc)
  watchers _ htask := (nomatch htask)
  failed _ hf := (nomatch hf)
  ended _ hi := (nomatch hi)

/-- What is known of tasks that exist is known of them when there are more. -/
theorem Scoped.of_length {l l' : Loop σ κ ρ ε} (h : Scoped l)
    (hle : l.tasks.length ≤ l'.tasks.length) :
    Within (· < l'.tasks.length) (· < l'.tasks.length) l :=
  h.mono (fun _ hi => Nat.lt_of_lt_of_le hi hle) fun _ hi => Nat.lt_of_lt_of_le hi hle

theorem Scoped.turned {l : Loop σ κ ρ ε} (h : Scoped l) (b : Behaviour σ κ ρ ε) :
    Scoped (l.turned b) := by
  have hle : l.tasks.length ≤ (l.turned b).tasks.length := by
    cases hr : l.resumption? with
    | none => exact Nat.le_of_eq (rests_turned hr).length.symm
    | some r =>
      obtain ⟨t, k, _ | w⟩ := r
      · rw [turned_of_drop hr, (keeps_finish _ _ _).length]
        exact Nat.le_refl _
      · exact length_le_turned_of_run hr
  refine (h.of_length hle).turned (fun i hi => hi) (fun i _ hi => hi) (fun t task ht _ => ?_)
    fun t k w ids k' hr _ => Nat.lt_of_lt_of_le (Resumption.lt hr) hle
  exact Nat.lt_of_lt_of_le (List.getElem?_eq_some_iff.mp ht).1 hle

/-! ## 5. A task apart -/

/-- Of a task nothing is known but its own runs: it is not tracked, nothing tells about its end or
    waits for it, and it waits for nothing but signals. -/
structure Apart (t : TaskId) (l : Loop σ κ ρ ε) : Prop where
  within : Within (· ≠ t) (fun _ => True) l
  bonds : l.bonds? t = some (false, [])
  stage : ∀ k w, l.stage? t = some (.waiting k w) → w = .signal

namespace Apart

variable {l : Loop σ κ ρ ε} {b : Behaviour σ κ ρ ε} {t : TaskId}

theorem lt (h : Apart t l) : t < l.tasks.length :=
  lt_of_bonds? h.bonds

/-- A task that is launched from outside stands apart. -/
theorem launch (h : Scoped l) (k : κ) : Apart l.tasks.length (l.launch k) where
  within := by
    refine (h.mono (fun i hi => Nat.ne_of_lt hi) fun _ _ => trivial).add "" false k ?_ trivial
    exact fun hfalse => by cases hfalse
  bonds := by simp [Loop.launch, bonds?, add]
  stage k' w hs := by
    rw [Loop.launch, stage?_add, if_pos rfl] at hs
    cases hs

/-- **A turn leaves a task apart** that waits for nothing but signals, if none comes to wait for it. -/
theorem turned (h : Apart t l)
    (hwatch : ∀ u k w ids k', l.resumption? = some ⟨u, k, some w⟩ →
      (b l.facts k w l.state).next = .pause (.tasks ids) k' → t ∉ ids)
    (hown : ∀ k w p k', l.resumption? = some ⟨t, k, some w⟩ →
      (b l.facts k w l.state).next = .pause p k' → p = .signal) : Apart t (l.turned b) where
  within := by
    refine h.within.turned (fun _ _ => trivial) (fun i hi _ => ?_) (fun u task hu htrue => ?_)
      fun u k w ids k' hr hnext => ?_
    · exact Nat.ne_of_gt (Nat.lt_of_lt_of_le h.lt hi)
    · rintro rfl
      have hbonds := h.bonds
      simp only [bonds?, hu, Option.map_some, Option.some.injEq, Prod.mk.injEq] at hbonds
      rw [hbonds.1] at htrue
      cases htrue
    · rintro rfl
      cases hown k w _ k' hr hnext
  bonds := bonds?_turned h.bonds hwatch
  stage k' v hs' := by
    cases hr : l.resumption? with
    | none =>
      obtain ⟨s, hs, hst⟩ := (rests_turned (b := b) hr).stage_before hs'
      cases hst with
      | same => exact h.stage k' v hs
      | counted _ m n => cases h.stage _ _ hs
    | some r =>
      obtain ⟨u, k, _ | w⟩ := r
      · rw [turned_of_drop hr, stage?_finish] at hs'
        split at hs'
        · obtain ⟨_, _, he⟩ := Option.map_eq_some_iff.mp hs'
          cases he
        · exact h.stage k' v hs'
      · rcases stage?_turned_of_run hr hs' with ⟨rfl, he⟩ | ⟨_, s, hs, ⟨_, he⟩ | ⟨_, rfl⟩⟩ |
          ⟨_, _, _, _, _, _, he⟩
        · cases hnext : (b l.facts k w l.state).next with
          | finish e =>
            rw [hnext] at he
            cases he
          | pause p k'' =>
            obtain rfl := hown k w p k'' hr hnext
            rw [hnext] at he
            cases he
            rfl
        · cases s <;> cases he
        · exact h.stage k' v hs
        · cases he

end Apart

/-! ## 6. Moves from outside -/

section Outside

variable {l l' : Loop σ κ ρ ε} {t : TaskId}

theorem Within.reset {P Q : TaskId → Prop} (h : Within P Q l) (s : σ) :
    Within P Q { l with state := s } :=
  ⟨h.tracked, h.ready, h.watchers, h.failed, h.ended⟩

theorem Scoped.reset (h : Scoped l) (s : σ) : Scoped { l with state := s } :=
  Within.reset h s

theorem Scoped.added (h : Scoped l) (name : String) (isTracked : Bool) (k : κ) :
    Scoped (l.add name isTracked k) := by
  have hlt : l.tasks.length < (l.add name isTracked k).tasks.length := by simp [Loop.add]
  exact (h.of_length (Nat.le_of_lt hlt)).add name isTracked k (fun _ => hlt) hlt

theorem Scoped.obeyed (h : Scoped l) (orders : List (Order κ)) : Scoped (orders.foldl obey l) :=
  (h.of_length (length_le_foldl_obey orders l)).foldl_obey orders (fun _ hi => hi)
    fun _ _ hi => hi

theorem Scoped.cancelled (h : Scoped l) (t : TaskId) : Scoped (l.cancel t) := by
  have hlength := (keeps_cancel t l).length
  exact (h.of_length (Nat.le_of_eq hlength.symm)).cancel (fun _ hi => hlength ▸ hi) t

theorem Scoped.signalled (h : Scoped l) (t : TaskId) (f : κ → κ) : Scoped (l.signal t f) := by
  have hlength := (keeps_signal t f l).length
  exact (h.of_length (Nat.le_of_eq hlength.symm)).signal (fun _ hi => hlength ▸ hi) t f

theorem Scoped.fired (h : Scoped l) (time : Nat) : Scoped (l.fireAt time) :=
  Within.fireAt h time fun _ _ _ _ hs => lt_of_stage? hs

/-- A task stays apart if no more is known of it and it does not begin to wait. -/
theorem Apart.of_stage (h : Apart t l) (hwithin : Within (· ≠ t) (fun _ => True) l')
    (hbonds : l'.bonds? t = l.bonds? t)
    (hstage : ∀ k w, l'.stage? t = some (.waiting k w) → l.stage? t = some (.waiting k w)) :
    Apart t l' where
  within := hwithin
  bonds := hbonds.trans h.bonds
  stage k w hs := h.stage k w (hstage k w hs)

theorem Apart.reset (h : Apart t l) (s : σ) : Apart t { l with state := s } :=
  ⟨h.within.reset s, h.bonds, h.stage⟩

theorem Apart.added (h : Apart t l) (name : String) (isTracked : Bool) (k : κ) :
    Apart t (l.add name isTracked k) := by
  refine h.of_stage (h.within.add name isTracked k (fun _ => (Nat.ne_of_lt h.lt).symm) trivial)
    (bonds?_add h.lt name isTracked k) fun k' w hs => ?_
  rwa [stage?_add, if_neg (Nat.ne_of_lt h.lt)] at hs

theorem Apart.obeyed (h : Apart t l) (orders : List (Order κ)) : Apart t (orders.foldl obey l) := by
  refine h.of_stage (h.within.foldl_obey orders (fun _ _ => trivial) fun i hi _ => ?_)
    (bonds?_foldl_obey h.lt orders) fun k w hs => ?_
  · exact (Nat.ne_of_lt (Nat.lt_of_lt_of_le h.lt hi)).symm
  · by_cases hmem : Order.cancel t ∈ orders
    · rw [stage?_foldl_obey_of_mem h.lt hmem] at hs
      obtain ⟨s, _, hcancel⟩ := Option.map_eq_some_iff.mp hs
      cases s <;> cases hcancel
    · rwa [stage?_foldl_obey_of_notMem h.lt hmem] at hs

theorem Apart.cancelled (h : Apart t l) (u : TaskId) : Apart t (l.cancel u) := by
  refine h.of_stage (h.within.cancel (fun _ _ => trivial) u) (bonds?_cancel u) fun k w hs => ?_
  rw [stage?_cancel] at hs
  split at hs
  · obtain ⟨s, _, hcancel⟩ := Option.map_eq_some_iff.mp hs
    cases s <;> cases hcancel
  · exact hs

theorem Apart.signalled (h : Apart t l) (u : TaskId) (f : κ → κ) : Apart t (l.signal u f) := by
  refine h.of_stage (h.within.signal (fun _ _ => trivial) u f) (bonds?_signal u f)
    fun k w hs => ?_
  unfold signal at hs
  split at hs
  · rw [stage?_push, stage?_move] at hs
    split at hs
    · obtain ⟨_, _, hqueued⟩ := Option.map_eq_some_iff.mp hs
      cases hqueued
    · exact hs
  · exact hs

theorem Apart.fired (h : Apart t l) (time : Nat) : Apart t (l.fireAt time) := by
  refine h.of_stage (h.within.fireAt time fun u k due rank hs => ?_) (bonds?_fireAt time)
    fun _ _ hs => hs
  rintro rfl
  cases h.stage k _ hs

end Outside

end Loop

end CodeSession
