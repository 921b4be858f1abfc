import CodeSession.Proofs.Loop.Stages
import CodeSession.Proofs.Loop.Turns

/-!
# The entries of tasks

What is kept of a task from its start to its end and beyond: its name, whether it is tracked, and how
it has ended.

* `Entry`, `Loop.entryOf?`, `Loop.Spawned`, `Loop.failureOf` -- the entry of a task, whether it has been
  spawned, and the error that it has raised;
* `Aligned` -- the operations that change neither the entries, nor the tracked set, nor the errors, nor
  the notes of ends that are yet to be settled;
* `entryOf?_add`, `entryOf?_finish` -- the operations that change entries.
-/

namespace CodeSession

variable {σ κ ρ ε : Type}

/-! ## 1. Entries -/

/-- The entry of a task in the books: its name, whether it is tracked, and how it has ended. -/
structure Entry (ρ ε : Type) where
  name : String
  isTracked : Bool
  ending? : Option (Ending ρ ε)

namespace Entry

/-- The error that a task has raised. -/
def failure (t : TaskId) (r : Entry ρ ε) : List (Failed ε) :=
  match r.ending? with
  | some (.raised e) => [⟨t, r.name, e⟩]
  | _ => []

end Entry

/-- How a task that stands at a stage has ended. -/
def Stage.ending? : Stage κ ρ ε → Option (Ending ρ ε)
  | .ended e => some e
  | _ => none

theorem Stage.ending?_eq_none_of_continuation? {s : Stage κ ρ ε} {k : κ}
    (h : s.continuation? = some k) : s.ending? = none := by
  cases s with
  | ended e => cases h
  | _ => rfl

@[simp] theorem Stage.ending?_cancel (s : Stage κ ρ ε) : s.cancel.ending? = s.ending? := by
  cases s <;> rfl

/-- The entry of a task. -/
def Task.entry (task : Task κ ρ ε) : Entry ρ ε :=
  ⟨task.name, task.isTracked, task.stage.ending?⟩

namespace Loop

variable {l l' l'' : Loop σ κ ρ ε} {t i : TaskId}

/-- The entry of a task. -/
def entryOf? (l : Loop σ κ ρ ε) (t : TaskId) : Option (Entry ρ ε) :=
  l.tasks[t]?.map Task.entry

/-- Whether a task has been spawned. -/
def Spawned (l : Loop σ κ ρ ε) (t : TaskId) : Prop :=
  (l.entryOf? t).any Entry.isTracked = true

instance (l : Loop σ κ ρ ε) (t : TaskId) : Decidable (l.Spawned t) :=
  inferInstanceAs (Decidable (_ = true))

/-- The error that a task has raised. -/
def failureOf (l : Loop σ κ ρ ε) (t : TaskId) : List (Failed ε) :=
  ((l.entryOf? t).map (Entry.failure t)).getD []

theorem ending?_eq_bind (l : Loop σ κ ρ ε) (t : TaskId) :
    l.ending? t = (l.stage? t).bind Stage.ending? := by
  unfold ending?
  cases l.stage? t with
  | none => rfl
  | some s => cases s <;> rfl

theorem ending?_of_stage? {s : Stage κ ρ ε} (h : l.stage? t = some s) : l.ending? t = s.ending? := by
  rw [ending?_eq_bind, h]
  rfl

theorem ending?_eq_entryOf? (l : Loop σ κ ρ ε) (t : TaskId) :
    l.ending? t = (l.entryOf? t).bind Entry.ending? := by
  rw [ending?_eq_bind, stage?, entryOf?]
  cases l.tasks[t]? <;> rfl

theorem failure_entry (t : TaskId) (task : Task κ ρ ε) : task.entry.failure t = failure t task := by
  obtain ⟨name, isTracked, stage, watchers⟩ := task
  cases stage with
  | ended e => cases e <;> rfl
  | _ => rfl

theorem exists_task_of_stage? {s : Stage κ ρ ε} (h : l.stage? t = some s) :
    ∃ task, l.tasks[t]? = some task ∧ task.stage = s :=
  Option.map_eq_some_iff.mp h

theorem spawned_iff : l.Spawned t ↔ ∃ task, l.tasks[t]? = some task ∧ task.isTracked = true := by
  unfold Spawned entryOf?
  cases l.tasks[t]? <;> simp [Task.entry]

theorem lt_of_spawned (h : l.Spawned t) : t < l.tasks.length := by
  obtain ⟨task, ht, _⟩ := spawned_iff.mp h
  exact (List.getElem?_eq_some_iff.mp ht).1

/-! ## 2. Operations that leave the entries alone -/

/-- The set, the errors, the entries and the notes of ends are the same. -/
structure Aligned (l l' : Loop σ κ ρ ε) : Prop where
  tracked : l'.tracked = l.tracked
  failures : l'.failures = l.failures
  entry : ∀ i, l'.entryOf? i = l.entryOf? i
  notes : ∀ i, l'.ready.count (.settled i) = l.ready.count (.settled i)

namespace Aligned

theorem refl (l : Loop σ κ ρ ε) : Aligned l l := ⟨rfl, rfl, fun _ => rfl, fun _ => rfl⟩

theorem trans (h : Aligned l l') (h' : Aligned l' l'') : Aligned l l'' :=
  ⟨h'.tracked.trans h.tracked, h'.failures.trans h.failures,
    fun i => (h'.entry i).trans (h.entry i), fun i => (h'.notes i).trans (h.notes i)⟩

theorem ending? (h : Aligned l l') (i : TaskId) : l'.ending? i = l.ending? i := by
  rw [ending?_eq_entryOf?, ending?_eq_entryOf?, h.entry]

theorem spawned (h : Aligned l l') (i : TaskId) : l'.Spawned i ↔ l.Spawned i := by
  unfold Spawned
  rw [h.entry]

end Aligned

theorem aligned_push {cs : List Callback} (h : ∀ i, .settled i ∉ cs) (l : Loop σ κ ρ ε) :
    Aligned l (l.push cs) :=
  ⟨rfl, rfl, fun _ => rfl, fun i => by
    rw [push, List.count_append, List.count_eq_zero.mpr (h i), Nat.add_zero]⟩

theorem aligned_resume (t : TaskId) (l : Loop σ κ ρ ε) : Aligned l (l.push [.resume t]) :=
  aligned_push (fun i h => by cases List.mem_singleton.mp h) l

/-- A callback that settles no end leaves the queue. -/
theorem aligned_popped {c : Callback} (h : l.ready.head? = some c) (hc : ∀ i, c ≠ .settled i) :
    Aligned l l.popped := by
  refine ⟨rfl, rfl, fun _ => rfl, fun i => ?_⟩
  obtain ⟨rest, hr⟩ := List.head?_eq_some_iff.mp h
  simp [popped, hr, hc i]

theorem entryOf?_modify (t : TaskId) (f : Task κ ρ ε → Task κ ρ ε) (l : Loop σ κ ρ ε) (i : TaskId) :
    (l.modify t f).entryOf? i =
      if i = t then l.tasks[i]?.map fun task => (f task).entry else l.entryOf? i := by
  unfold entryOf? modify
  rw [List.getElem?_modify]
  by_cases h : i = t
  · subst h
    cases l.tasks[i]? <;> simp
  · cases l.tasks[i]? <;> simp [h, Ne.symm h]

/-- A change of a task that its entry does not show. -/
theorem aligned_modify {f : Task κ ρ ε → Task κ ρ ε}
    (h : ∀ task, l.tasks[t]? = some task → (f task).entry = task.entry) :
    Aligned l (l.modify t f) := by
  refine ⟨rfl, rfl, fun i => ?_, fun _ => rfl⟩
  rw [entryOf?_modify]
  split
  · rename_i hit
    subst hit
    unfold entryOf?
    cases hi : l.tasks[i]? with
    | none => rfl
    | some task => exact congrArg some (h task hi)
  · rfl

/-- A task that has not ended moves to a stage that is no end. -/
theorem aligned_move {s : Stage κ ρ ε} (s' : Stage κ ρ ε) (hs : l.stage? t = some s)
    (hold : s.ending? = none) (hnew : s'.ending? = none) : Aligned l (l.move t s') := by
  refine aligned_modify fun task ht => ?_
  obtain ⟨task', ht', rfl⟩ := exists_task_of_stage? hs
  obtain rfl : task' = task := Option.some.inj (ht'.symm.trans ht)
  show Entry.mk _ _ s'.ending? = Entry.mk _ _ task'.stage.ending?
  rw [hold, hnew]

theorem aligned_cancel (t : TaskId) (l : Loop σ κ ρ ε) : Aligned l (l.cancel t) := by
  unfold cancel
  split
  · rename_i hs
    exact aligned_move _ hs rfl rfl
  · rename_i hs
    exact (aligned_move _ hs rfl rfl).trans (aligned_resume t _)
  · exact .refl l

theorem aligned_count (w : TaskId) (l : Loop σ κ ρ ε) : Aligned l (l.count w) := by
  unfold count
  split
  · rename_i hs
    split
    · exact (aligned_move _ hs rfl rfl).trans (aligned_resume w _)
    · exact aligned_move _ hs rfl rfl
  · exact .refl l

theorem aligned_watch (v : TaskId) (l : Loop σ κ ρ ε) (t : TaskId) : Aligned l (l.watch v t) := by
  unfold watch
  split
  · exact aligned_push (fun i h => by cases List.mem_singleton.mp h) l
  · exact aligned_modify fun _ _ => rfl

theorem aligned_foldl_watch (v : TaskId) (ids : List TaskId) (l : Loop σ κ ρ ε) :
    Aligned l (ids.foldl (watch v) l) := by
  induction ids generalizing l with
  | nil => exact .refl l
  | cons t ids ih => exact (aligned_watch v l t).trans (ih _)

/-- A queued task pauses. -/
theorem aligned_pause {k₀ : κ} {begun cancelled : Bool}
    (hs : l.stage? t = some (.queued k₀ begun cancelled)) (p : Pause) (k : κ) :
    Aligned l (l.pause t p k) := by
  have hmove : ∀ s : Stage κ ρ ε, s.ending? = none → Aligned l (l.move t s) :=
    fun s => aligned_move s hs rfl
  unfold pause
  split
  · exact (hmove _ rfl).trans (aligned_resume t _)
  · exact (hmove _ rfl).trans (aligned_resume t _)
  · exact hmove _ rfl
  · rename_i ticks _
    have hset := hmove (.waiting k (.timer (some (l.now + ticks)) l.armed)) rfl
    exact ⟨hset.tracked, hset.failures, hset.entry, hset.notes⟩
  · exact hmove _ rfl
  · exact (hmove _ rfl).trans (aligned_foldl_watch t _ _)

theorem entryOf?_add (name : String) (isTracked : Bool) (k : κ) (l : Loop σ κ ρ ε) (i : TaskId) :
    (l.add name isTracked k).entryOf? i =
      if i = l.tasks.length then some ⟨name, isTracked, none⟩ else l.entryOf? i := by
  unfold entryOf? add
  dsimp only
  rcases Nat.lt_trichotomy i l.tasks.length with hlt | heq | hgt
  · rw [List.getElem?_append_left hlt, if_neg (Nat.ne_of_lt hlt)]
  · rw [if_pos heq, heq, List.getElem?_concat_length]
    rfl
  · rw [if_neg (Nat.ne_of_gt hgt), List.getElem?_eq_none (by simp; omega),
      List.getElem?_eq_none (by omega)]

theorem spawned_add (name : String) (isTracked : Bool) (k : κ) (l : Loop σ κ ρ ε) (i : TaskId) :
    (l.add name isTracked k).Spawned i ↔
      if i = l.tasks.length then isTracked = true else l.Spawned i := by
  unfold Spawned
  rw [entryOf?_add]
  split <;> simp

theorem entryOf?_finish (t : TaskId) (e : Ending ρ ε) (l : Loop σ κ ρ ε) (i : TaskId) :
    (l.finish t e).entryOf? i =
      if i = t then (l.entryOf? i).map fun r => { r with ending? := some e } else l.entryOf? i := by
  unfold finish
  split
  · rename_i h
    split
    · rename_i hit
      subst hit
      simp [entryOf?, h]
    · rfl
  · refine (entryOf?_modify t (fun task => { task with stage := .ended e, watchers := [] }) l i).trans ?_
    split
    · unfold entryOf?
      cases l.tasks[i]? <;> rfl
    · rfl

theorem spawned_finish (t : TaskId) (e : Ending ρ ε) (l : Loop σ κ ρ ε) (i : TaskId) :
    (l.finish t e).Spawned i ↔ l.Spawned i := by
  unfold Spawned
  rw [entryOf?_finish]
  split <;> cases l.entryOf? i <;> rfl

end Loop

end CodeSession
