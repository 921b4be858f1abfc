import CodeSession.Loop.Clock

/-!
# Where the tasks of a loop stand

Each operation of a loop, told by what it does to the stages of its tasks.

* `Keeps` -- the operations that leave the shared state, the clock and the tracked set alone, and
  neither add nor lose a task;
* `stage?_cancel`, `stage?_goOn`, … -- the stages after one operation;
* `stage?_foldl_obey_of_mem`, `stage?_foldl_obey_of_notMem`, `stage?_foldl_obey_new` -- the stages
  after orders: a cancelled task is marked, others stay, and new ones are queued;
* `shown?_foldl_obey` -- orders that spawn no task of a kind leave those of that kind alone.
-/

namespace CodeSession

variable {σ κ ρ ε α : Type}

/-! ## 1. Stages -/

namespace Stage

/-- The continuation of a task at a stage. -/
def continuation? : Stage κ ρ ε → Option κ
  | .queued k _ _ => some k
  | .waiting k _ => some k
  | .ended _ => none

/-- The stage of a task that is cancelled. -/
def cancel : Stage κ ρ ε → Stage κ ρ ε
  | .queued k begun _ => .queued k begun true
  | .waiting k _ => .queued k true true
  | .ended e => .ended e

@[simp] theorem continuation?_queued (k : κ) (begun cancelled : Bool) :
    (queued k begun cancelled : Stage κ ρ ε).continuation? = some k := rfl

@[simp] theorem continuation?_waiting (k : κ) (w : Wait) :
    (waiting k w : Stage κ ρ ε).continuation? = some k := rfl

@[simp] theorem continuation?_ended (e : Ending ρ ε) :
    (ended e : Stage κ ρ ε).continuation? = none := rfl

@[simp] theorem continuation?_cancel (s : Stage κ ρ ε) :
    s.cancel.continuation? = s.continuation? := by
  cases s <;> rfl

@[simp] theorem cancel_cancel (s : Stage κ ρ ε) : s.cancel.cancel = s.cancel := by
  cases s <;> rfl

end Stage

namespace Loop

/-- The continuation of a task that has not ended. -/
def continuation? (l : Loop σ κ ρ ε) (t : TaskId) : Option κ :=
  (l.stage? t).bind Stage.continuation?

/-- What the continuation of a task shows. -/
def shown? (show? : κ → Option α) (l : Loop σ κ ρ ε) (t : TaskId) : Option α :=
  (l.continuation? t).bind show?

theorem continuation?_of_stage? {l : Loop σ κ ρ ε} {t : TaskId} {s : Stage κ ρ ε}
    (h : l.stage? t = some s) : l.continuation? t = s.continuation? := by
  simp [continuation?, h]

theorem shown?_of_stage? {show? : κ → Option α} {l : Loop σ κ ρ ε} {t : TaskId} {s : Stage κ ρ ε}
    (h : l.stage? t = some s) : l.shown? show? t = s.continuation?.bind show? := by
  simp [shown?, continuation?, h]

theorem continuation?_eq_some_iff {l : Loop σ κ ρ ε} {t : TaskId} {k : κ} :
    l.continuation? t = some k ↔ ∃ s, l.stage? t = some s ∧ s.continuation? = some k := by
  simp [continuation?, Option.bind_eq_some_iff]

theorem shown?_eq_some_iff {show? : κ → Option α} {l : Loop σ κ ρ ε} {t : TaskId} {a : α} :
    l.shown? show? t = some a ↔ ∃ k, l.continuation? t = some k ∧ show? k = some a := by
  simp [shown?, Option.bind_eq_some_iff]

theorem stage?_eq_none_iff {l : Loop σ κ ρ ε} {t : TaskId} :
    l.stage? t = none ↔ l.tasks.length ≤ t := by
  simp [stage?]

theorem ending?_eq_some_iff {l : Loop σ κ ρ ε} {t : TaskId} {e : Ending ρ ε} :
    l.ending? t = some e ↔ l.stage? t = some (.ended e) := by
  unfold ending?
  split
  · rename_i e' hs
    simp [hs]
  · rename_i hnone
    exact ⟨(fun h => by cases h), fun hs => absurd hs (hnone e)⟩

theorem lt_of_stage? {l : Loop σ κ ρ ε} {t : TaskId} {s : Stage κ ρ ε}
    (h : l.stage? t = some s) : t < l.tasks.length := by
  refine Nat.lt_of_not_le fun hle => ?_
  rw [stage?_eq_none_iff.mpr hle] at h
  cases h

theorem lt_of_continuation? {l : Loop σ κ ρ ε} {t : TaskId} {k : κ}
    (h : l.continuation? t = some k) : t < l.tasks.length := by
  obtain ⟨s, hs, _⟩ := continuation?_eq_some_iff.mp h
  exact lt_of_stage? hs

/-- A task that is found among those that wait for a signal waits for one. -/
theorem stage?_of_mem_awaiting {show? : κ → Option α} {l : Loop σ κ ρ ε} {t : TaskId} {a : α}
    (h : (t, a) ∈ l.awaiting show?) :
    ∃ k, l.stage? t = some (.waiting k .signal) ∧ show? k = some a := by
  obtain ⟨⟨task, i⟩, hmem, hshow⟩ := List.mem_filterMap.mp h
  have hget : l.tasks[i]? = some task := by
    simpa using List.mem_zipIdx_iff_getElem?.mp hmem
  obtain ⟨b, hb, he⟩ := Option.map_eq_some_iff.mp hshow
  obtain ⟨rfl, rfl⟩ := Prod.mk.inj he
  obtain ⟨k, hk, hka⟩ := Option.bind_eq_some_iff.mp hb
  have hstage : task.stage = .waiting k .signal := by
    unfold Task.awaiting? at hk
    split at hk
    · rename_i k' hk'
      cases hk
      exact hk'
    · cases hk
  exact ⟨k, by simp [stage?, hget, hstage], hka⟩

/-! ## 2. Operations that keep the state and the tracked set -/

/-- The state, the clock and the tracked set are the same, and no task is added or lost. -/
structure Keeps (l l' : Loop σ κ ρ ε) : Prop where
  state : l'.state = l.state
  now : l'.now = l.now
  closed : l'.closed = l.closed
  tracked : l'.tracked = l.tracked
  length : l'.tasks.length = l.tasks.length

namespace Keeps

theorem refl (l : Loop σ κ ρ ε) : Keeps l l := ⟨rfl, rfl, rfl, rfl, rfl⟩

theorem trans {l₁ l₂ l₃ : Loop σ κ ρ ε} (h : Keeps l₁ l₂) (h' : Keeps l₂ l₃) : Keeps l₁ l₃ :=
  ⟨h'.state.trans h.state, h'.now.trans h.now, h'.closed.trans h.closed,
    h'.tracked.trans h.tracked, h'.length.trans h.length⟩

end Keeps

theorem keeps_push (cs : List Callback) (l : Loop σ κ ρ ε) : Keeps l (l.push cs) :=
  ⟨rfl, rfl, rfl, rfl, rfl⟩

theorem keeps_modify (t : TaskId) (f : Task κ ρ ε → Task κ ρ ε) (l : Loop σ κ ρ ε) :
    Keeps l (l.modify t f) :=
  ⟨rfl, rfl, rfl, rfl, by simp [modify]⟩

theorem keeps_move (t : TaskId) (s : Stage κ ρ ε) (l : Loop σ κ ρ ε) : Keeps l (l.move t s) :=
  keeps_modify t _ l

theorem keeps_cancel (t : TaskId) (l : Loop σ κ ρ ε) : Keeps l (l.cancel t) := by
  unfold cancel
  split
  · exact keeps_move _ _ _
  · exact (keeps_move _ _ _).trans (keeps_push _ _)
  · exact Keeps.refl l

theorem keeps_signal (t : TaskId) (f : κ → κ) (l : Loop σ κ ρ ε) : Keeps l (l.signal t f) := by
  unfold signal
  split
  · exact (keeps_move _ _ _).trans (keeps_push _ _)
  · exact Keeps.refl l

theorem keeps_watch (w : TaskId) (l : Loop σ κ ρ ε) (t : TaskId) : Keeps l (l.watch w t) := by
  unfold watch
  split
  · exact keeps_push _ _
  · exact keeps_modify _ _ _

theorem keeps_foldl_watch (w : TaskId) (ids : List TaskId) (l : Loop σ κ ρ ε) :
    Keeps l (ids.foldl (watch w) l) := by
  induction ids generalizing l with
  | nil => exact Keeps.refl l
  | cons t ids ih => exact (keeps_watch w l t).trans (ih _)

theorem keeps_pause (t : TaskId) (p : Pause) (k : κ) (l : Loop σ κ ρ ε) :
    Keeps l (l.pause t p k) := by
  unfold pause
  split
  · exact (keeps_move _ _ _).trans (keeps_push _ _)
  · exact (keeps_move _ _ _).trans (keeps_push _ _)
  · exact keeps_move _ _ _
  · exact (keeps_move _ _ _).trans ⟨rfl, rfl, rfl, rfl, rfl⟩
  · exact keeps_move _ _ _
  · exact (keeps_move _ _ _).trans (keeps_foldl_watch _ _ _)

theorem keeps_finish (t : TaskId) (e : Ending ρ ε) (l : Loop σ κ ρ ε) :
    Keeps l (l.finish t e) := by
  unfold finish
  split
  · exact Keeps.refl l
  · exact (keeps_modify t _ l).trans ⟨rfl, rfl, rfl, rfl, rfl⟩

theorem keeps_goOn (t : TaskId) (n : Next κ ρ ε) (l : Loop σ κ ρ ε) : Keeps l (l.goOn t n) := by
  cases n with
  | pause p k => exact keeps_pause t p k l
  | finish e => exact keeps_finish t e l

/-! ## 3. Stages after one operation -/

@[simp] theorem stage?_push (cs : List Callback) (l : Loop σ κ ρ ε) (i : TaskId) :
    (l.push cs).stage? i = l.stage? i := rfl

theorem stage?_modify (t : TaskId) (f : Task κ ρ ε → Task κ ρ ε) (l : Loop σ κ ρ ε) (i : TaskId) :
    (l.modify t f).stage? i = if i = t then l.tasks[i]?.map fun task => (f task).stage
      else l.stage? i := by
  simp only [stage?, modify, List.getElem?_modify]
  by_cases h : i = t
  · subst h
    cases l.tasks[i]? <;> simp
  · cases l.tasks[i]? <;> simp [h, Ne.symm h]

@[simp] theorem stage?_move (t : TaskId) (s : Stage κ ρ ε) (l : Loop σ κ ρ ε) (i : TaskId) :
    (l.move t s).stage? i = if i = t then (l.stage? i).map fun _ => s else l.stage? i := by
  rw [move, stage?_modify]
  simp [stage?, Option.map_map, Function.comp_def]

@[simp] theorem stage?_add (name : String) (isTracked : Bool) (k : κ) (l : Loop σ κ ρ ε)
    (i : TaskId) : (l.add name isTracked k).stage? i =
      if i = l.tasks.length then some (.queued k false false) else l.stage? i := by
  simp only [stage?, add, List.getElem?_append]
  rcases Nat.lt_trichotomy i l.tasks.length with hlt | heq | hgt
  · simp [hlt, Nat.ne_of_lt hlt]
  · simp [heq]
  · have hout : i - l.tasks.length ≠ 0 := Nat.sub_ne_zero_of_lt hgt
    simp [Nat.not_lt.mpr (Nat.le_of_lt hgt), Nat.ne_of_gt hgt, hout]

@[simp] theorem stage?_cancel (t : TaskId) (l : Loop σ κ ρ ε) (i : TaskId) :
    (l.cancel t).stage? i = if i = t then (l.stage? i).map Stage.cancel else l.stage? i := by
  unfold cancel
  by_cases h : i = t
  · subst h
    cases hs : l.stage? i with
    | none => simp [hs]
    | some s => cases s <;> simp [hs, Stage.cancel]
  · split <;> simp [h]

/-- A signal reaches a task that waits for one, and no other. -/
theorem stage?_signal_self (f : κ → κ) {l : Loop σ κ ρ ε} {t : TaskId} {s : Stage κ ρ ε}
    (hs : l.stage? t = some s) : (l.signal t f).stage? t = some s ∨
      ∃ k, s = .waiting k .signal ∧ (l.signal t f).stage? t = some (.queued (f k) true false) := by
  unfold signal
  split
  · rename_i k hwaits
    obtain rfl := Option.some.inj (hs.symm.trans hwaits)
    refine .inr ⟨k, rfl, ?_⟩
    rw [stage?_push, stage?_move, if_pos rfl, hwaits]
    rfl
  · exact .inl hs

theorem stage?_signal_of_ne (f : κ → κ) (l : Loop σ κ ρ ε) {t i : TaskId} (hi : i ≠ t) :
    (l.signal t f).stage? i = l.stage? i := by
  unfold signal
  split
  · rw [stage?_push, stage?_move, if_neg hi]
  · rfl

@[simp] theorem stage?_watch (w : TaskId) (l : Loop σ κ ρ ε) (t i : TaskId) :
    (l.watch w t).stage? i = l.stage? i := by
  unfold watch
  split
  · rfl
  · rw [stage?_modify]
    split <;> simp [stage?]

@[simp] theorem stage?_foldl_watch (w : TaskId) (ids : List TaskId) (l : Loop σ κ ρ ε)
    (i : TaskId) : (ids.foldl (watch w) l).stage? i = l.stage? i := by
  induction ids generalizing l with
  | nil => rfl
  | cons t ids ih => rw [List.foldl_cons, ih, stage?_watch]

/-- The stage of a task that pauses. -/
def paused (p : Pause) (k : κ) (l : Loop σ κ ρ ε) : Stage κ ρ ε :=
  match p with
  | .sleep (some 0) | .tasks [] => .queued k true false
  | .sleep none => .waiting k (.timer none l.armed)
  | .sleep (some ticks) => .waiting k (.timer (some (l.now + ticks)) l.armed)
  | .signal => .waiting k .signal
  | .tasks ids => .waiting k (.tasks ids.length)

/-- The stage of a task after a run. -/
def after (n : Next κ ρ ε) (l : Loop σ κ ρ ε) : Stage κ ρ ε :=
  match n with
  | .pause p k => l.paused p k
  | .finish e => .ended e

@[simp] theorem continuation?_paused (p : Pause) (k : κ) (l : Loop σ κ ρ ε) :
    (l.paused p k).continuation? = some k := by
  unfold paused
  split <;> rfl

theorem next_of_after_eq_ended {n : Next κ ρ ε} {l : Loop σ κ ρ ε} {e : Ending ρ ε}
    (h : l.after n = .ended e) : n = .finish e := by
  cases n with
  | finish e' => exact congrArg Next.finish (Stage.ended.inj h)
  | pause p k =>
    have hk := continuation?_paused p k l
    rw [show l.paused p k = .ended e from h] at hk
    cases hk

theorem exists_pause_of_after {n : Next κ ρ ε} {l : Loop σ κ ρ ε} {k : κ}
    (h : (l.after n).continuation? = some k) : ∃ p, n = .pause p k := by
  cases n with
  | pause p k' =>
    have hk : (l.paused p k').continuation? = some k := h
    rw [continuation?_paused] at hk
    cases hk
    exact ⟨p, rfl⟩
  | finish e => cases h

/-- No run leaves its own task cancelled. -/
theorem eq_false_of_after {n : Next κ ρ ε} {l : Loop σ κ ρ ε} {k : κ} {begun cancelled : Bool}
    (h : l.after n = .queued k begun cancelled) : cancelled = false := by
  unfold after paused at h
  split at h
  · split at h <;> cases h <;> rfl
  · cases h

theorem stage?_pause (t : TaskId) (p : Pause) (k : κ) (l : Loop σ κ ρ ε) (i : TaskId) :
    (l.pause t p k).stage? i =
      if i = t then (l.stage? i).map fun _ => l.paused p k else l.stage? i := by
  unfold pause paused
  split
  any_goals simp
  rename_i ticks _
  exact stage?_move t (.waiting k (.timer (some (l.now + ticks)) l.armed)) l i

/-- A task pauses for the ends of others by watching each of them. -/
theorem pause_tasks {ids : List TaskId} (hne : ids ≠ []) (t : TaskId) (k : κ) (l : Loop σ κ ρ ε) :
    l.pause t (.tasks ids) k =
      ids.foldl (watch t) (l.move t (.waiting k (.tasks ids.length))) := by
  cases ids with
  | nil => exact absurd rfl hne
  | cons u ids => rfl

theorem paused_tasks {ids : List TaskId} (hne : ids ≠ []) (k : κ) (l : Loop σ κ ρ ε) :
    l.paused (.tasks ids) k = .waiting k (.tasks ids.length) := by
  cases ids with
  | nil => exact absurd rfl hne
  | cons u ids => rfl

theorem stage?_finish (t : TaskId) (e : Ending ρ ε) (l : Loop σ κ ρ ε) (i : TaskId) :
    (l.finish t e).stage? i = if i = t then (l.stage? i).map fun _ => .ended e else l.stage? i := by
  unfold finish
  split
  · rename_i h
    by_cases hi : i = t
    · subst hi
      simp [stage?, h]
    · simp [hi]
  · refine (stage?_modify t (fun task => { task with stage := .ended e, watchers := [] }) l i).trans ?_
    simp [stage?, Option.map_map, Function.comp_def]

theorem stage?_goOn (t : TaskId) (n : Next κ ρ ε) (l : Loop σ κ ρ ε) (i : TaskId) :
    (l.goOn t n).stage? i = if i = t then (l.stage? i).map fun _ => l.after n else l.stage? i := by
  cases n with
  | pause p k => exact stage?_pause t p k l i
  | finish e => exact stage?_finish t e l i

/-! ## 4. Stages after orders -/

theorem obey_spawn_closed {l : Loop σ κ ρ ε} (h : l.closed = true) (name : String) (k : κ) :
    l.obey (.spawn name k) = l := by
  simp [obey, h]

theorem obey_spawn_open {l : Loop σ κ ρ ε} (h : l.closed = false) (name : String) (k : κ) :
    l.obey (.spawn name k) = l.add name true k := by
  simp [obey, h]

@[simp] theorem state_obey (l : Loop σ κ ρ ε) (o : Order κ) : (l.obey o).state = l.state := by
  cases o with
  | spawn name k =>
    unfold obey
    dsimp only
    split <;> rfl
  | cancel t => exact (keeps_cancel t l).state
  | _ => rfl

@[simp] theorem now_obey (l : Loop σ κ ρ ε) (o : Order κ) : (l.obey o).now = l.now := by
  cases o with
  | spawn name k =>
    unfold obey
    dsimp only
    split <;> rfl
  | cancel t => exact (keeps_cancel t l).now
  | _ => rfl

theorem closed_obey (l : Loop σ κ ρ ε) (o : Order κ) :
    (l.obey o).closed = true ↔ l.closed = true ∨ o = .seal := by
  cases o with
  | spawn name k =>
    by_cases h : l.closed = true <;> simp [obey, add, h]
  | cancel t =>
    have h := (keeps_cancel t l).closed
    simp [obey, h]
  | _ => simp [obey]

theorem length_le_obey (l : Loop σ κ ρ ε) (o : Order κ) :
    l.tasks.length ≤ (l.obey o).tasks.length := by
  cases o with
  | spawn name k =>
    unfold obey
    dsimp only
    split <;> simp [add]
  | cancel t => exact Nat.le_of_eq (keeps_cancel t l).length.symm
  | _ => exact Nat.le_refl _

/-- The stage of a task of the loop after an order. -/
theorem stage?_obey {l : Loop σ κ ρ ε} {i : TaskId} (hi : i < l.tasks.length) (o : Order κ) :
    (l.obey o).stage? i = match o with
      | .cancel t => if i = t then (l.stage? i).map Stage.cancel else l.stage? i
      | _ => l.stage? i := by
  cases o with
  | spawn name k =>
    unfold obey
    dsimp only
    split
    · rfl
    · rw [stage?_add, if_neg (Nat.ne_of_lt hi)]
  | cancel t => exact stage?_cancel t l i
  | _ => rfl

section Orders

variable {orders : List (Order κ)} {l : Loop σ κ ρ ε} {i : TaskId}

@[simp] theorem state_foldl_obey (orders : List (Order κ)) (l : Loop σ κ ρ ε) :
    (orders.foldl obey l).state = l.state := by
  induction orders generalizing l with
  | nil => rfl
  | cons o orders ih => rw [List.foldl_cons, ih, state_obey]

@[simp] theorem now_foldl_obey (orders : List (Order κ)) (l : Loop σ κ ρ ε) :
    (orders.foldl obey l).now = l.now := by
  induction orders generalizing l with
  | nil => rfl
  | cons o orders ih => rw [List.foldl_cons, ih, now_obey]

theorem closed_foldl_obey (orders : List (Order κ)) (l : Loop σ κ ρ ε) :
    (orders.foldl obey l).closed = true ↔ l.closed = true ∨ .seal ∈ orders := by
  induction orders generalizing l with
  | nil => simp
  | cons o orders ih =>
    rw [List.foldl_cons, ih, closed_obey, List.mem_cons, or_assoc, @eq_comm _ o]

theorem length_le_foldl_obey (orders : List (Order κ)) (l : Loop σ κ ρ ε) :
    l.tasks.length ≤ (orders.foldl obey l).tasks.length := by
  induction orders generalizing l with
  | nil => exact Nat.le_refl _
  | cons o orders ih => exact Nat.le_trans (length_le_obey l o) (ih _)

/-- A task that is spawned by an open set is added. -/
theorem length_lt_foldl_obey {name : String} {k : κ} (hopen : l.closed = false)
    (hspawn : .spawn name k ∈ orders) (hseal : .seal ∉ orders) :
    l.tasks.length < (orders.foldl obey l).tasks.length := by
  induction orders generalizing l with
  | nil => cases hspawn
  | cons o orders ih =>
    obtain ⟨hne, hrest⟩ := not_or.mp (mt List.mem_cons.mpr hseal)
    rw [List.foldl_cons]
    rcases List.mem_cons.mp hspawn with rfl | hmem
    · refine Nat.lt_of_lt_of_le ?_ (length_le_foldl_obey orders _)
      simp [obey, hopen, add]
    · have hopen' : (l.obey o).closed = false := by
        rw [← Bool.not_eq_true, closed_obey]
        rintro (h | rfl)
        · rw [hopen] at h
          cases h
        · exact hne rfl
      exact Nat.lt_of_le_of_lt (length_le_obey l o) (ih hopen' hmem hrest)

/-- A closed set takes no task, and orders that spawn none add none. -/
theorem length_foldl_obey_eq (h : l.closed = true ∨ ∀ name k, .spawn name k ∉ orders) :
    (orders.foldl obey l).tasks.length = l.tasks.length := by
  induction orders generalizing l with
  | nil => rfl
  | cons o orders ih =>
    have hone : (l.obey o).tasks.length = l.tasks.length := by
      cases o with
      | spawn name k =>
        have hclosed := h.resolve_right fun hno => hno name k List.mem_cons_self
        rw [obey_spawn_closed hclosed]
      | cancel t => exact (keeps_cancel t l).length
      | _ => rfl
    rw [List.foldl_cons, ih ?_, hone]
    exact h.imp (fun hc => (closed_obey l o).mpr (.inl hc))
      fun hno name k hk => hno name k (List.mem_cons_of_mem _ hk)

theorem stage?_foldl_obey_of_notMem (hi : i < l.tasks.length) (h : Order.cancel i ∉ orders) :
    (orders.foldl obey l).stage? i = l.stage? i := by
  induction orders generalizing l with
  | nil => rfl
  | cons o orders ih =>
    obtain ⟨ho, hrest⟩ := not_or.mp (mt List.mem_cons.mpr h)
    rw [List.foldl_cons, ih (Nat.lt_of_lt_of_le hi (length_le_obey l o)) hrest, stage?_obey hi]
    cases o with
    | cancel t =>
      have hne : i ≠ t := fun e => ho (congrArg Order.cancel e)
      exact if_neg hne
    | _ => rfl

theorem stage?_foldl_obey_of_mem (hi : i < l.tasks.length) (h : Order.cancel i ∈ orders) :
    (orders.foldl obey l).stage? i = (l.stage? i).map Stage.cancel := by
  induction orders generalizing l with
  | nil => simp at h
  | cons o orders ih =>
    have hlt : i < (l.obey o).tasks.length := Nat.lt_of_lt_of_le hi (length_le_obey l o)
    rw [List.foldl_cons]
    by_cases hrest : Order.cancel i ∈ orders
    · rw [ih hlt hrest, stage?_obey hi]
      cases o with
      | cancel t =>
        by_cases e : i = t
        · simp [e, Option.map_map, Function.comp_def]
        · simp [e]
      | _ => rfl
    · rcases List.mem_cons.mp h with rfl | hmem
      · rw [stage?_foldl_obey_of_notMem hlt hrest, stage?_obey hi]
        exact if_pos rfl
      · exact absurd hmem hrest

/-- A task that orders add is queued, and a spawned one; a closed set takes none. -/
theorem stage?_foldl_obey_new {s : Stage κ ρ ε} (hi : l.tasks.length ≤ i)
    (h : (orders.foldl obey l).stage? i = some s) :
    l.closed = false ∧ ∃ name k cancelled, .spawn name k ∈ orders ∧ s = .queued k false cancelled := by
  induction orders generalizing l with
  | nil =>
    rw [List.foldl_nil, stage?_eq_none_iff.mpr hi] at h
    cases h
  | cons o orders ih =>
    rw [List.foldl_cons] at h
    by_cases hnew : (l.obey o).tasks.length ≤ i
    · obtain ⟨hclosed, name, k, c, hmem, hs⟩ := ih hnew h
      refine ⟨?_, name, k, c, List.mem_cons_of_mem _ hmem, hs⟩
      cases hl : l.closed with
      | false => rfl
      | true => rw [(closed_obey l o).mpr (.inl hl)] at hclosed; cases hclosed
    · -- the order added task `i` itself
      have hlt := Nat.lt_of_not_le hnew
      cases o with
      | spawn name k =>
        by_cases hl : l.closed = true
        · exact absurd hi (by simpa [obey_spawn_closed hl name k] using hlt)
        · have he := obey_spawn_open (Bool.not_eq_true _ ▸ hl) name k
          have hit : i = l.tasks.length := by
            rw [he] at hlt
            simp only [add, List.length_append, List.length_singleton] at hlt
            exact Nat.le_antisymm (Nat.le_of_lt_succ hlt) hi
          have hs : (l.obey (.spawn name k)).stage? i = some (.queued k false false) := by
            rw [he, stage?_add, if_pos hit]
          refine ⟨by simpa using hl, name, k, ?_⟩
          by_cases hmem : Order.cancel i ∈ orders
          · rw [stage?_foldl_obey_of_mem hlt hmem, hs] at h
            exact ⟨true, by simp, by simpa [Stage.cancel] using h.symm⟩
          · rw [stage?_foldl_obey_of_notMem hlt hmem, hs] at h
            exact ⟨false, by simp, by simpa using h.symm⟩
      | cancel t => exact absurd hi (Nat.not_le.mpr ((keeps_cancel t l).length ▸ hlt))
      | _ => exact absurd hi (Nat.not_le.mpr hlt)

theorem continuation?_foldl_obey (hi : i < l.tasks.length) :
    (orders.foldl obey l).continuation? i = l.continuation? i := by
  unfold continuation?
  by_cases h : Order.cancel i ∈ orders
  · rw [stage?_foldl_obey_of_mem hi h]
    cases l.stage? i <;> simp
  · rw [stage?_foldl_obey_of_notMem hi h]

/-- Orders that spawn nothing that shows leave what the tasks show alone. -/
theorem shown?_foldl_obey {show? : κ → Option α}
    (h : ∀ name k, .spawn name k ∈ orders → show? k = none) :
    (orders.foldl obey l).shown? show? i = l.shown? show? i := by
  by_cases hi : i < l.tasks.length
  · rw [shown?, continuation?_foldl_obey hi, shown?]
  · have hle := Nat.le_of_not_lt hi
    have hnone : l.continuation? i = none := by simp [continuation?, stage?_eq_none_iff.mpr hle]
    rw [shown?, shown?, hnone, continuation?]
    cases hs : (orders.foldl obey l).stage? i with
    | none => rfl
    | some s =>
      obtain ⟨_, name, k, c, hmem, rfl⟩ := stage?_foldl_obey_new hle hs
      exact h name k hmem

/-- Without an order to empty it, the tracked set keeps its tasks and takes up new ones. -/
theorem mem_tracked_foldl_obey (hforget : Order.forget ∉ orders)
    (h : i ∈ l.tracked ∨ l.tasks.length ≤ i ∧ i < (orders.foldl obey l).tasks.length) :
    i ∈ (orders.foldl obey l).tracked := by
  induction orders generalizing l with
  | nil =>
    rcases h with h | ⟨hle, hlt⟩
    · exact h
    · exact absurd hle (Nat.not_le.mpr hlt)
  | cons o orders ih =>
    obtain ⟨ho, hrest⟩ := not_or.mp (mt List.mem_cons.mpr hforget)
    refine ih hrest ?_
    cases o with
    | spawn name k =>
      by_cases hl : l.closed = true
      · simpa [obey_spawn_closed hl name k] using h
      · have he := obey_spawn_open (Bool.not_eq_true _ ▸ hl) name k
        rw [List.foldl_cons, he] at h
        rw [he]
        rcases h with h | ⟨hle, hlt⟩
        · exact .inl (by simp [add, h])
        · rcases Nat.eq_or_lt_of_le hle with heq | hgt
          · exact .inl (by simp [add, heq])
          · exact .inr ⟨by simpa [add] using Nat.succ_le_of_lt hgt, hlt⟩
    | cancel t =>
      have hk := keeps_cancel t l
      show i ∈ (l.cancel t).tracked ∨ (l.cancel t).tasks.length ≤ i ∧ _
      rw [hk.tracked, hk.length]
      exact h
    | forget => exact absurd rfl ho
    | _ => exact h

end Orders

end Loop

end CodeSession
