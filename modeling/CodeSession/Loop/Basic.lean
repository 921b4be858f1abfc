/-!
# Tasks of a cooperative loop

Tasks that take turns: one runs until it pauses or ends, then the next in the queue. This file
holds what a task is and what it may ask for.

* A `Behaviour` says what a task does when it is resumed: from its continuation, the way it is
  woken (`Wake`) and the shared state to a `Burst` -- the new state, orders to the loop, and a
  pause or an ending.
* A `Task` is queued, waiting or ended (`Stage`). A queued task has one `resume` in the queue.
* A `Loop` holds the shared state, the tasks, the queue, and the set of tracked tasks: tasks
  that are spawned while the set is open are tracked until the note of their end is handled.
-/

namespace CodeSession

/-- The number of a task. -/
abbrev TaskId := Nat

/-! ## 1. Behaviour -/

/-- How a task is woken. -/
inductive Wake where
  | go
  | cancelled
  deriving DecidableEq, Repr

/-- How a task ends. -/
inductive Ending (ρ ε : Type) where
  | returned (r : ρ)
  | raised (e : ε)
  | cancelled
  deriving DecidableEq, Repr

/-- What a task waits for: a time to pass (with no length, for ever; of length zero, the others to
    run once), a signal from outside, or other tasks to end. -/
inductive Pause where
  | sleep (ticks : Option Nat)
  | signal
  | tasks (ids : List TaskId)
  deriving DecidableEq, Repr

/-- What a task asks of the loop before it pauses: to spawn a tracked task, to cancel one, to
    close the tracked set, to empty it. -/
inductive Order (κ : Type) where
  | spawn (name : String) (k : κ)
  | cancel (t : TaskId)
  | seal
  | forget

/-- How a run of a task goes on. -/
inductive Next (κ ρ ε : Type) where
  | pause (p : Pause) (k : κ)
  | finish (e : Ending ρ ε)

/-- One run of a task, up to its pause or end. -/
structure Burst (σ κ ρ ε : Type) where
  state : σ
  orders : List (Order κ)
  next : Next κ ρ ε

/-- What a task can see of the loop: whether the tracked set is closed, the tracked tasks, and the
    number that the next task will have. -/
structure Facts where
  closed : Bool
  tracked : List TaskId
  fresh : TaskId
  deriving DecidableEq, Repr

/-- What a spawn returns: the new task, or none once the set is closed. -/
def Facts.spawned? (facts : Facts) : Option TaskId :=
  if facts.closed then none else some facts.fresh

theorem Facts.spawned?_eq_none_iff {facts : Facts} :
    facts.spawned? = none ↔ facts.closed = true := by
  unfold spawned?
  cases facts.closed <;> simp

theorem Facts.spawned?_eq_some_iff {facts : Facts} {t : TaskId} :
    facts.spawned? = some t ↔ facts.closed = false ∧ t = facts.fresh := by
  unfold spawned?
  cases facts.closed <;> simp [eq_comm]

/-- What tasks do when they are resumed. -/
abbrev Behaviour (σ κ ρ ε : Type) := Facts → κ → Wake → σ → Burst σ κ ρ ε

/-! ## 2. Tasks -/

/-- What a waiting task waits for. A timer has a rank, the number of timers set before it. -/
inductive Wait where
  | timer (due : Option Nat) (rank : Nat)
  | signal
  | tasks (left : Nat)
  deriving DecidableEq, Repr

/-- Where a task stands. -/
inductive Stage (κ ρ ε : Type) where
  | queued (k : κ) (begun cancelled : Bool)
  | waiting (k : κ) (w : Wait)
  | ended (e : Ending ρ ε)

/-- A task; the watchers wait for its end, and a name may be empty. -/
structure Task (κ ρ ε : Type) where
  name : String
  isTracked : Bool
  stage : Stage κ ρ ε
  watchers : List TaskId

namespace Task

variable {κ ρ ε : Type}

/-- Whether a task has ended. -/
def hasEnded (t : Task κ ρ ε) : Bool :=
  match t.stage with
  | .ended _ => true
  | _ => false

/-- The continuation of a task that has not ended. -/
def continuation? (t : Task κ ρ ε) : Option κ :=
  match t.stage with
  | .queued k _ _ => some k
  | .waiting k _ => some k
  | .ended _ => none

/-- The continuation of a task that waits for a signal. -/
def awaiting? (t : Task κ ρ ε) : Option κ :=
  match t.stage with
  | .waiting k .signal => some k
  | _ => none

end Task

/-! ## 3. The loop -/

/-- What stands in the queue: the next run of a task, the note that a tracked task has ended, the
    note that one of the tasks waited for has ended, the end of a timer. -/
inductive Callback where
  | resume (t : TaskId)
  | settled (t : TaskId)
  | counted (watcher : TaskId)
  | expired (t : TaskId) (rank : Nat)
  deriving DecidableEq, Repr

/-- An error that a tracked task has raised. -/
structure Failed (ε : Type) where
  task : TaskId
  name : String
  error : ε

/-- A loop. The clock counts ticks; `armed` timers have been set; `failures` holds the errors of the
    tracked tasks that raised one, `ended` the tasks that have ended, both in order. -/
structure Loop (σ κ ρ ε : Type) where
  state : σ
  tasks : List (Task κ ρ ε)
  ready : List Callback
  tracked : List TaskId
  closed : Bool
  now : Nat
  armed : Nat
  failures : List (Failed ε)
  ended : List TaskId

namespace Loop

variable {σ κ ρ ε : Type}

/-- A loop without tasks at time zero. -/
def start (s : σ) : Loop σ κ ρ ε :=
  ⟨s, [], [], [], false, 0, 0, [], []⟩

/-- What a task can see of a loop. -/
def facts (l : Loop σ κ ρ ε) : Facts :=
  ⟨l.closed, l.tracked, l.tasks.length⟩

/-- The stage of a task. -/
def stage? (l : Loop σ κ ρ ε) (t : TaskId) : Option (Stage κ ρ ε) :=
  l.tasks[t]?.map Task.stage

/-- Put callbacks at the end of the queue. -/
def push (cs : List Callback) (l : Loop σ κ ρ ε) : Loop σ κ ρ ε :=
  { l with ready := l.ready ++ cs }

/-- Change a task. -/
def modify (t : TaskId) (f : Task κ ρ ε → Task κ ρ ε) (l : Loop σ κ ρ ε) : Loop σ κ ρ ε :=
  { l with tasks := l.tasks.modify t f }

/-- Move a task to a stage. -/
def move (t : TaskId) (s : Stage κ ρ ε) (l : Loop σ κ ρ ε) : Loop σ κ ρ ε :=
  l.modify t fun task => { task with stage := s }

/-- How a task has ended. -/
def ending? (l : Loop σ κ ρ ε) (t : TaskId) : Option (Ending ρ ε) :=
  match l.stage? t with
  | some (.ended e) => some e
  | _ => none

/-- The tasks that wait for a signal, with what their continuations show. -/
def awaiting {α : Type} (show? : κ → Option α) (l : Loop σ κ ρ ε) : List (TaskId × α) :=
  l.tasks.zipIdx.filterMap fun p => (p.1.awaiting?.bind show?).map fun a => (p.2, a)

@[simp] theorem push_nil (l : Loop σ κ ρ ε) : l.push [] = l := by
  simp [push]

@[simp] theorem push_push (as bs : List Callback) (l : Loop σ κ ρ ε) :
    (l.push as).push bs = l.push (as ++ bs) := by
  simp [push]

end Loop

end CodeSession
