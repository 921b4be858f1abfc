import CodeSession.Loop.Turn
import CodeSession.Decimal.Binary64

/-!
# The clock of a loop

The loop settles: it takes turns until the queue is empty, with the clock standing still; then the
surroundings may make a move, until they have none. The clock moves from outside; timers that fall
due on the way fire at their times, those of one time in the order in which they were set.
A tick is 2⁻¹⁰⁷⁴ seconds, so every finite binary64 number of seconds is a whole number of ticks.
-/

namespace CodeSession.Loop

variable {σ κ ρ ε : Type}

/-! ## 1. Settling -/

/-- At most so many turns and moves of the surroundings. -/
def settleFor (b : Behaviour σ κ ρ ε) (surroundings : Loop σ κ ρ ε → Option (Loop σ κ ρ ε)) :
    Nat → Loop σ κ ρ ε → Loop σ κ ρ ε
  | 0, l => l
  | n + 1, l =>
    match l.turn b with
    | some l => settleFor b surroundings n l
    | none =>
      match surroundings l with
      | some l => settleFor b surroundings n l
      | none => l

/-- More turns than any settling takes. -/
def patience : Nat := 1000000

/-- Take turns until nothing is left to do. -/
def settle (b : Behaviour σ κ ρ ε) (surroundings : Loop σ κ ρ ε → Option (Loop σ κ ρ ε))
    (l : Loop σ κ ρ ε) : Loop σ κ ρ ε :=
  settleFor b surroundings patience l

/-! ## 2. Timers -/

/-- A timer that will run out. -/
structure Timer where
  due : Nat
  rank : Nat
  task : TaskId
  deriving DecidableEq, Repr

/-- The timer of a task. -/
def timerOf (t : TaskId) (task : Task κ ρ ε) : Option Timer :=
  match task.stage with
  | .waiting _ (.timer (some due) rank) => some ⟨due, rank, t⟩
  | _ => none

/-- The timers that will run out. -/
def timers (l : Loop σ κ ρ ε) : List Timer :=
  l.tasks.zipIdx.filterMap fun p => timerOf p.2 p.1

/-- The earliest time at which a timer runs out. -/
def nextDue (l : Loop σ κ ρ ε) : Option Nat :=
  (l.timers.map Timer.due).min?

/-- Set the clock and queue the ends of the timers that are due, in the order of their times and
    then of their ranks. -/
def fireAt (time : Nat) (l : Loop σ κ ρ ε) : Loop σ κ ρ ε :=
  let due : List Timer := (l.timers.filter (·.due ≤ time)).mergeSort fun a b =>
    a.due < b.due || (a.due == b.due && a.rank ≤ b.rank)
  Loop.push (due.map fun t => .expired t.task t.rank) { l with now := time }

/-- Move the clock to a time, at most so many stops on the way. -/
def advanceFor (b : Behaviour σ κ ρ ε) (surroundings : Loop σ κ ρ ε → Option (Loop σ κ ρ ε))
    (target : Nat) : Nat → Loop σ κ ρ ε → Loop σ κ ρ ε
  | 0, l => l
  | n + 1, l =>
    match l.nextDue with
    | some due =>
      if due ≤ target then
        advanceFor b surroundings target n ((l.fireAt (max l.now due)).settle b surroundings)
      else { l with now := target }
    | none => { l with now := target }

/-- Move the clock on by so many ticks: it stops at each time at which timers run out, and the loop
    settles there. -/
def advance (b : Behaviour σ κ ρ ε) (surroundings : Loop σ κ ρ ε → Option (Loop σ κ ρ ε))
    (ticks : Nat) (l : Loop σ κ ρ ε) : Loop σ κ ρ ε :=
  advanceFor b surroundings (l.now + ticks) patience l

/-! ## 3. Lengths of time -/

/-- The ticks of a number of seconds: none for ever, zero for what is not positive. -/
def ticksOf : Binary64 → Option Nat
  | .finite negative units => some (if negative then 0 else units)
  | .infinite negative => if negative then some 0 else none
  | .nan => some 0

end CodeSession.Loop
