import CodeSession.Loop.Basic

/-!
# Turns of a loop

One turn takes the first callback from the queue and handles it:

* a task is resumed: its behaviour runs, its orders are carried out, and it pauses or ends. A task
  that was cancelled before it began ends without a run;
* the end of a tracked task is settled: it leaves the tracked set, and an error is noted;
* the end of a task is counted for a watcher, which is queued when it was the last one;
* a timer that has run out queues its task, if the task still waits for it.

Beside the turns there are moves from outside: a task is launched, an operation runs on the
shared state, a signal arrives.
-/

namespace CodeSession.Loop

variable {σ κ ρ ε : Type}

/-! ## 1. Orders -/

/-- Add a task and queue its first run. -/
def add (name : String) (isTracked : Bool) (k : κ) (l : Loop σ κ ρ ε) : Loop σ κ ρ ε :=
  { l with
    tasks := l.tasks ++ [⟨name, isTracked, .queued k false false, []⟩]
    tracked := if isTracked then l.tracked ++ [l.tasks.length] else l.tracked
    ready := l.ready ++ [.resume l.tasks.length] }

/-- Cancel a task: a queued one is marked, a waiting one is queued with the mark, an ended one
    stays as it is. -/
def cancel (t : TaskId) (l : Loop σ κ ρ ε) : Loop σ κ ρ ε :=
  match l.stage? t with
  | some (.queued k begun _) => l.move t (.queued k begun true)
  | some (.waiting k _) => (l.move t (.queued k true true)).push [.resume t]
  | _ => l

/-- Carry out an order. A closed set takes no more tasks. -/
def obey (l : Loop σ κ ρ ε) : Order κ → Loop σ κ ρ ε
  | .spawn name k => if l.closed then l else l.add name true k
  | .cancel t => l.cancel t
  | .seal => { l with closed := true }
  | .forget => { l with tracked := [] }

/-! ## 2. Pauses and ends -/

/-- Let a task watch another. It is told of its end by a callback, also if the other has ended
    before: a task that watches nothing but ended ones still waits until its callbacks come up, and
    what stood in the queue before them comes first. -/
def watch (watcher : TaskId) (l : Loop σ κ ρ ε) (t : TaskId) : Loop σ κ ρ ε :=
  match l.stage? t with
  | some (.ended _) => l.push [.counted watcher]
  | _ => l.modify t fun task => { task with watchers := task.watchers ++ [watcher] }

/-- Let a task pause. -/
def pause (t : TaskId) (p : Pause) (k : κ) (l : Loop σ κ ρ ε) : Loop σ κ ρ ε :=
  match p with
  | .sleep (some 0) | .tasks [] => (l.move t (.queued k true false)).push [.resume t]
  | .sleep none => l.move t (.waiting k (.timer none l.armed))
  | .sleep (some ticks) =>
    { l.move t (.waiting k (.timer (some (l.now + ticks)) l.armed)) with armed := l.armed + 1 }
  | .signal => l.move t (.waiting k .signal)
  | .tasks ids => ids.foldl (watch t) (l.move t (.waiting k (.tasks ids.length)))

/-- End a task: its end is settled if it is tracked, and counted for its watchers. -/
def finish (t : TaskId) (e : Ending ρ ε) (l : Loop σ κ ρ ε) : Loop σ κ ρ ε :=
  match l.tasks[t]? with
  | none => l
  | some task =>
    let notes := (if task.isTracked then [Callback.settled t] else [])
      ++ task.watchers.map Callback.counted
    let l := (l.modify t fun task => { task with stage := .ended e, watchers := [] }).push notes
    { l with ended := l.ended ++ [t] }

/-- Let a task go on after a run. -/
def goOn (t : TaskId) (n : Next κ ρ ε) (l : Loop σ κ ρ ε) : Loop σ κ ρ ε :=
  match n with
  | .pause p k => l.pause t p k
  | .finish e => l.finish t e

/-! ## 3. Turns -/

/-- Run a task. -/
def runTask (b : Behaviour σ κ ρ ε) (t : TaskId) (k : κ) (w : Wake) (l : Loop σ κ ρ ε) :
    Loop σ κ ρ ε :=
  let burst := b l.facts k w l.state
  (burst.orders.foldl obey { l with state := burst.state }).goOn t burst.next

/-- Resume a task. -/
def resume (b : Behaviour σ κ ρ ε) (t : TaskId) (l : Loop σ κ ρ ε) : Loop σ κ ρ ε :=
  match l.stage? t with
  | some (.queued k begun cancelled) =>
    if cancelled then
      if begun then l.runTask b t k .cancelled else l.finish t .cancelled
    else l.runTask b t k .go
  | _ => l

/-- The failure that the end of a task is. -/
def failure (t : TaskId) (task : Task κ ρ ε) : List (Failed ε) :=
  match task.stage with
  | .ended (.raised e) => [⟨t, task.name, e⟩]
  | _ => []

/-- Settle the end of a tracked task. -/
def settleEnd (t : TaskId) (l : Loop σ κ ρ ε) : Loop σ κ ρ ε :=
  { l with
    tracked := l.tracked.filter (· != t)
    failures := l.failures ++ (l.tasks[t]?.map (failure t)).getD [] }

/-- Count an end for a watcher. -/
def count (watcher : TaskId) (l : Loop σ κ ρ ε) : Loop σ κ ρ ε :=
  match l.stage? watcher with
  | some (.waiting k (.tasks left)) =>
    if left ≤ 1 then (l.move watcher (.queued k true false)).push [.resume watcher]
    else l.move watcher (.waiting k (.tasks (left - 1)))
  | _ => l

/-- End a timer. -/
def expire (t rank : TaskId) (l : Loop σ κ ρ ε) : Loop σ κ ρ ε :=
  match l.stage? t with
  | some (.waiting k (.timer _ r)) =>
    if r = rank then (l.move t (.queued k true false)).push [.resume t] else l
  | _ => l

/-- Handle a callback. -/
def handle (b : Behaviour σ κ ρ ε) (l : Loop σ κ ρ ε) : Callback → Loop σ κ ρ ε
  | .resume t => l.resume b t
  | .settled t => l.settleEnd t
  | .counted watcher => l.count watcher
  | .expired t rank => l.expire t rank

/-- One turn; none when the queue is empty. -/
def turn (b : Behaviour σ κ ρ ε) (l : Loop σ κ ρ ε) : Option (Loop σ κ ρ ε) :=
  match l.ready with
  | [] => none
  | c :: rest => some (handle b { l with ready := rest } c)

/-! ## 4. Moves from outside -/

/-- Launch a task that is not tracked. -/
def launch (k : κ) (l : Loop σ κ ρ ε) : Loop σ κ ρ ε :=
  l.add "" false k

/-- Run an operation on the shared state and carry out its orders. -/
def perform (f : Facts → σ → σ × List (Order κ)) (l : Loop σ κ ρ ε) : Loop σ κ ρ ε :=
  let r := f l.facts l.state
  r.2.foldl obey { l with state := r.1 }

/-- Give a signal to a task that waits for one; its continuation takes up what has arrived. -/
def signal (t : TaskId) (f : κ → κ) (l : Loop σ κ ρ ε) : Loop σ κ ρ ε :=
  match l.stage? t with
  | some (.waiting k .signal) => (l.move t (.queued (f k) true false)).push [.resume t]
  | _ => l

end CodeSession.Loop
