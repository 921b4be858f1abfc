import CodeSession.Backend.Reply
import CodeSession.Loop.Clock
import CodeSession.Loop.Tracking

/-!
# Chores

Background tasks written as scripts: a chore waits at a gate, sleeps, spawns further chores and
fails or ends, each only if its script says so; when it is cancelled it cleans up in the same
manner. Everything it does is noted in a log. Chores run on a `Loop` next to tasks that wait until
nothing is tracked and tasks that close the tracked set.
-/

namespace CodeSession

open Backend

/-! ## 1. Scripts -/

/-- The script of a chore. The lengths of sleeps are in ticks, none for ever. The task of a chore that
    is unnamed is spawned without a name. -/
structure Chore where
  name : String
  isUnnamed : Bool
  gate : Option String
  sleep : Option (Option Nat)
  spawns : List Chore
  fails : Option Fault
  cleanupSleep : Option (Option Nat)
  cleanupSpawns : List Chore
  swallows : Bool
  cleanupFails : Option Fault

instance : Inhabited Chore := ⟨⟨"", false, none, none, [], none, none, [], false, none⟩⟩

namespace Chore

/-- The name that the task of a chore is spawned under. -/
def taskName (c : Chore) : String :=
  if c.isUnnamed then "" else c.name

/-! ## 2. Runs -/

/-- Where a chore stands: at its start, past its gate, past its sleep, past the sleep of its
    cleanup. -/
inductive Point where
  | start
  | gate
  | sleep
  | cleanup
  deriving DecidableEq, Repr

/-- The tasks of a loop of chores. -/
inductive Job where
  | chore (c : Chore) (p : Point)
  | idle
  | close
  | closing

/-- What chores share: the log, and the gates that are open. -/
structure World where
  log : List String
  opened : List String
  deriving DecidableEq, Repr

/-- Write a line. -/
def World.note (line : String) (w : World) : World :=
  { w with log := w.log ++ [line] }

/-- A run of a chore. -/
abbrev Run := Burst World Job Unit Fault

/-- Spawn chores; a closed set drops them, and each is noted. -/
def spawnAll (closed : Bool) (cs : List Chore) (w : World) : World × List (Order Job) :=
  if closed then (cs.foldl (fun w c => w.note (c.name ++ " dropped")) w, [])
  else (w, cs.map fun c => .spawn c.taskName (.chore c .start))

/-- Go on past the sleep: spawn, fail or end. -/
def afterSleep (facts : Facts) (c : Chore) (w : World) : Run :=
  let (w, orders) := spawnAll facts.closed c.spawns w
  match c.fails with
  | some f => ⟨w, orders, .finish (.raised f)⟩
  | none => ⟨w.note (c.name ++ " end"), orders, .finish (.returned ())⟩

/-- Go on past the gate. -/
def afterGate (facts : Facts) (c : Chore) (w : World) : Run :=
  match c.sleep with
  | some length => ⟨w, [], .pause (.sleep length) (.chore c .sleep)⟩
  | none => afterSleep facts c w

/-- Begin. An open gate is passed at once. -/
def begin (facts : Facts) (c : Chore) (w : World) : Run :=
  let w := w.note (c.name ++ " start")
  match c.gate with
  | some g =>
    if w.opened.contains g then afterGate facts c w else ⟨w, [], .pause .signal (.chore c .gate)⟩
  | none => afterGate facts c w

/-- Go on past the sleep of the cleanup: spawn, then end normally, fail or stay cancelled. -/
def afterCleanup (facts : Facts) (c : Chore) (w : World) : Run :=
  let (w, orders) := spawnAll facts.closed c.cleanupSpawns w
  if c.swallows then ⟨w.note (c.name ++ " swallowed"), orders, .finish (.returned ())⟩
  else
    match c.cleanupFails with
    | some f => ⟨w, orders, .finish (.raised f)⟩
    | none => ⟨w, orders, .finish .cancelled⟩

/-- Clean up. -/
def cleanUp (facts : Facts) (c : Chore) (w : World) : Run :=
  let w := w.note (c.name ++ " cancelled")
  match c.cleanupSleep with
  | some length => ⟨w, [], .pause (.sleep length) (.chore c .cleanup)⟩
  | none => afterCleanup facts c w

/-- What chores do when they are resumed. A chore that is cancelled in its cleanup stays
    cancelled. -/
def behaviour : Behaviour World Job Unit Fault := fun facts job wake w =>
  match job, wake with
  | .chore c .start, .go => begin facts c w
  | .chore c .gate, .go => afterGate facts c w
  | .chore c .sleep, .go => afterSleep facts c w
  | .chore c .cleanup, .go => afterCleanup facts c w
  | .chore _ .start, .cancelled => ⟨w, [], .finish .cancelled⟩
  | .chore _ .cleanup, .cancelled => ⟨w, [], .finish .cancelled⟩
  | .chore c .gate, .cancelled => cleanUp facts c w
  | .chore c .sleep, .cancelled => cleanUp facts c w
  | .idle, _ => ⟨w, [], Tracking.idle facts .idle ()⟩
  | .close, _ =>
    let orders := Tracking.closeOrders facts
    if facts.tracked.isEmpty then ⟨w, orders ++ [.forget], .finish (.returned ())⟩
    else ⟨w, orders, .pause (.tasks facts.tracked) .closing⟩
  | .closing, _ => ⟨w, [.forget], .finish (.returned ())⟩

/-! ## 3. The loop of chores -/

/-- A loop of chores. -/
abbrev Board := Loop World Job Unit Fault

namespace Board

/-- A board without chores. -/
def empty : Board := Loop.start ⟨[], []⟩

/-- Spawn a chore; a closed board drops it. -/
def spawn (c : Chore) (b : Board) : Board :=
  b.perform fun facts w => spawnAll facts.closed [c] w

/-- The chores that wait at a gate. -/
def waitingAt (g : String) (b : Board) : List TaskId :=
  (b.awaiting fun job => match job with
    | .chore c .gate => if c.gate == some g then some () else none
    | _ => none).map (·.1)

/-- Open a gate for good. -/
def release (g : String) (b : Board) : Board :=
  let opened := { b with state := { b.state with opened := b.state.opened ++ [g] } }
  (b.waitingAt g).foldl (fun b t => b.signal t id) opened

/-- Nothing but the chores moves the board. -/
def still (_ : Board) : Option Board := none

/-- Run until nothing is left to do. -/
def settle (b : Board) : Board :=
  Loop.settle behaviour still b

/-- Move the clock on. -/
def advance (ticks : Nat) (b : Board) : Board :=
  Loop.advance behaviour still ticks b

end Board

end Chore

end CodeSession
