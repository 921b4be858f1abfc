import CodeSession.Loop.Basic

/-!
# Waiting for the tracked set

The runs of a task that waits until no task is tracked, and of one that closes the tracked set:

* `idle` -- while tasks are tracked, wait for all of them and look again;
* `close` -- close the set, cancel what is tracked and wait for it; then `closed` empties the set.

Each tracked task that raised an error is told by one line of the log (`failureLine`). What a loop
calls a task without a name is its own affair, and depends on the tasks that it has had for others.
-/

namespace CodeSession.Tracking

variable {κ ρ ε : Type}

/-- Wait until no task is tracked. -/
def idle (facts : Facts) (again : κ) (done : ρ) : Next κ ρ ε :=
  if facts.tracked.isEmpty then .finish (.returned done) else .pause (.tasks facts.tracked) again

/-- The orders that close the set. -/
def closeOrders (facts : Facts) : List (Order κ) :=
  .seal :: facts.tracked.map Order.cancel

/-- The names of a loop that numbers its tasks. -/
def numbered (t : TaskId) : String :=
  "Task-" ++ toString (t + 1)

/-- The line that is logged for a task that raised an error. A task without a name goes by the one
    that the loop has given it, which is the loop's `own` choice. -/
def failureLine (own : TaskId → String) (t : TaskId) (name text : String) : String :=
  "Background task '" ++ (if name.isEmpty then own t else name) ++ "' failed: " ++ text

end CodeSession.Tracking
