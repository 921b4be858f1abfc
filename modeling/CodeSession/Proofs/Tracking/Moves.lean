import CodeSession.Chore
import CodeSession.Proofs.Loop.Queue
import CodeSession.Proofs.Loop.Settling

/-!
# What may happen to a tracked set

A loop whose tasks are background work, which is tracked, and calls, which are not: calls that wait
until nothing is tracked, and calls that close the set.

* `Duty`, `Staffed` -- what a task is to the set, and the behaviours that act accordingly: work spawns
  work, sleeps, waits for signals and ends in any way; calls run as `Tracking.idle` and
  `Tracking.closeOrders` say;
* `staffed_chores` -- chores are such work;
* `Move`, `step`, `play` -- what may happen, one thing at a time and in any order;
* `settled?`, `ran?`, `sealed?`, `finished?` -- the events of a move;
* `play_release`, `exists_play_settle`, … -- what is done with a board of chores is a run.
-/

namespace CodeSession.Tracking

variable {σ κ ρ ε α : Type}

/-! ## 1. Duties -/

/-- What a task is to the tracked set: background work, a call that waits until nothing is tracked, or
    a call that closes the set, before its first step and after it. -/
inductive Duty where
  | work
  | idle
  | close
  | closing
  deriving DecidableEq, Repr

/-- A run of background work: it spawns work and nothing else, and it pauses as work, for a time or for
    a signal. -/
structure Works (duty : κ → Duty) (r : Burst σ κ ρ ε) : Prop where
  orders : ∀ o ∈ r.orders, ∃ name k, o = .spawn name k ∧ duty k = .work
  pause : ∀ p k, r.next = .pause p k → duty k = .work ∧ ∀ ids, p ≠ .tasks ids

/-- The tasks of a behaviour do as their duties say. The tracked tasks are listed in any order. -/
structure Staffed (b : Behaviour σ κ ρ ε) (duty : κ → Duty) : Prop where
  work : ∀ facts k wake x, duty k = .work → Works duty (b facts k wake x)
  idle : ∀ facts k x, duty k = .idle → (b facts k .go x).orders = [] ∧
    ∃ ids again done, ids.Perm facts.tracked ∧ duty again = .idle ∧
      (b facts k .go x).next = Tracking.idle { facts with tracked := ids } again done
  close : ∀ facts k x, duty k = .close → ∃ ids, ids.Perm facts.tracked ∧
    if facts.tracked = [] then
      (b facts k .go x).orders = closeOrders { facts with tracked := ids } ++ [.forget] ∧
        ∃ done, (b facts k .go x).next = .finish (.returned done)
    else
      (b facts k .go x).orders = closeOrders { facts with tracked := ids } ∧
        ∃ rest, duty rest = .closing ∧ (b facts k .go x).next = .pause (.tasks ids) rest
  closing : ∀ facts k x, duty k = .closing → (b facts k .go x).orders = [.forget] ∧
    ∃ done, (b facts k .go x).next = .finish (.returned done)

end CodeSession.Tracking

namespace CodeSession.Chore

open Tracking Backend

/-- The duty of a task of a board. -/
def Job.duty : Job → Duty
  | .chore _ _ => .work
  | .idle => .idle
  | .close => .close
  | .closing => .closing

variable {facts : Facts} {c : Chore} {w : World}

theorem spawnAll_orders {closed : Bool} {cs : List Chore} {o : Order Job}
    (h : o ∈ (spawnAll closed cs w).2) : ∃ name k, o = .spawn name k ∧ Job.duty k = .work := by
  unfold spawnAll at h
  split at h
  · cases h
  · obtain ⟨c, _, rfl⟩ := List.mem_map.mp h
    exact ⟨c.taskName, .chore c .start, rfl, rfl⟩

theorem works_afterSleep : Works Job.duty (afterSleep facts c w) := by
  unfold afterSleep
  dsimp only
  split
  · exact ⟨fun o h => spawnAll_orders h, fun p k h => by cases h⟩
  · exact ⟨fun o h => spawnAll_orders h, fun p k h => by cases h⟩

/-- A pause of a chore that neither spawns nor waits for tasks. -/
theorem works_pause {p : Pause} {c' : Chore} {point : Point} (hp : ∀ ids, p ≠ .tasks ids) :
    Works Job.duty (⟨w, [], .pause p (.chore c' point)⟩ : Run) := by
  refine ⟨fun o h => (List.not_mem_nil h).elim, fun p' k h => ?_⟩
  cases h
  exact ⟨rfl, hp⟩

theorem works_afterGate : Works Job.duty (afterGate facts c w) := by
  unfold afterGate
  split
  · exact works_pause fun ids h => by cases h
  · exact works_afterSleep

theorem works_begin : Works Job.duty (begin facts c w) := by
  unfold begin
  dsimp only
  split
  · split
    · exact works_afterGate
    · exact works_pause fun ids h => by cases h
  · exact works_afterGate

theorem works_afterCleanup : Works Job.duty (afterCleanup facts c w) := by
  unfold afterCleanup
  dsimp only
  split
  · exact ⟨fun o h => spawnAll_orders h, fun p k h => by cases h⟩
  · split
    · exact ⟨fun o h => spawnAll_orders h, fun p k h => by cases h⟩
    · exact ⟨fun o h => spawnAll_orders h, fun p k h => by cases h⟩

theorem works_cleanUp : Works Job.duty (cleanUp facts c w) := by
  unfold cleanUp
  dsimp only
  split
  · exact works_pause fun ids h => by cases h
  · exact works_afterCleanup

/-- A chore that ends at once. -/
theorem works_cancelled : Works Job.duty (⟨w, [], .finish .cancelled⟩ : Run) :=
  ⟨fun o h => (List.not_mem_nil h).elim, fun p k h => by cases h⟩

/-- **Chores are background work**, and the other tasks of a board are calls. -/
theorem staffed_chores : Staffed behaviour Job.duty where
  work facts k wake w hk := by
    cases k with
    | chore c point =>
      cases wake with
      | go =>
        cases point with
        | start => exact works_begin
        | gate => exact works_afterGate
        | sleep => exact works_afterSleep
        | cleanup => exact works_afterCleanup
      | cancelled =>
        cases point with
        | start => exact works_cancelled
        | gate => exact works_cleanUp
        | sleep => exact works_cleanUp
        | cleanup => exact works_cancelled
    | _ => cases hk
  idle facts k w hk := by
    cases k with
    | idle => exact ⟨rfl, facts.tracked, .idle, (), .refl _, rfl, rfl⟩
    | _ => cases hk
  close facts k w hk := by
    cases k with
    | close =>
      obtain ⟨closed, tracked, fresh⟩ := facts
      refine ⟨tracked, .refl _, ?_⟩
      cases tracked with
      | nil => exact ⟨rfl, (), rfl⟩
      | cons t ts => exact ⟨rfl, .closing, rfl, rfl⟩
    | _ => cases hk
  closing facts k w hk := by
    cases k with
    | closing => exact ⟨rfl, (), rfl⟩
    | _ => cases hk

end CodeSession.Chore

namespace CodeSession.Tracking

variable {σ κ ρ ε α : Type}

/-! ## 2. Moves -/

/-- What may happen to a tracked set: the loop takes a turn, work is spawned, a call is made, a task is
    given the signal that it waits for, a tracked task is cancelled by itself, what the tasks share
    changes, the clock moves. -/
inductive Move (σ κ : Type) where
  | turn
  | spawn (name : String) (k : κ)
  | call (k : κ)
  | signal (t : TaskId)
  | cancel (t : TaskId)
  | change (x : σ)
  | wait (ticks : Nat)

/-- Whether a move spawns work. -/
def Move.isSpawn : Move σ κ → Bool
  | .spawn _ _ => true
  | _ => false

/-- Whether a move is a turn. -/
def Move.isTurn : Move σ κ → Bool
  | .turn => true
  | _ => false

section Runs

variable (b : Behaviour σ κ ρ ε) (duty : κ → Duty)

/-- A loop after a move. A move that is not possible changes nothing. -/
def step (l : Loop σ κ ρ ε) : Move σ κ → Loop σ κ ρ ε
  | .turn => l.turned b
  | .spawn name k => if duty k = .work then l.obey (.spawn name k) else l
  | .call k => if duty k = .idle ∨ duty k = .close then l.launch k else l
  | .signal t => l.signal t id
  | .cancel t => if t ∈ l.tracked then l.cancel t else l
  | .change x => { l with state := x }
  | .wait ticks => l.fireAt (l.now + ticks)

/-- A loop after a run. -/
def play (l : Loop σ κ ρ ε) (ms : List (Move σ κ)) : Loop σ κ ρ ε :=
  ms.foldl (step b duty) l

variable {b duty} {l : Loop σ κ ρ ε} {ms ns : List (Move σ κ)} {m : Move σ κ}

@[simp] theorem play_nil : play b duty l [] = l := rfl

@[simp] theorem play_cons : play b duty l (m :: ms) = play b duty (step b duty l m) ms := rfl

@[simp] theorem play_append :
    play b duty l (ms ++ ns) = play b duty (play b duty l ms) ns := by
  simp [play]

/-- What every step preserves holds after every run. -/
theorem play_induction {P : Loop σ κ ρ ε → Prop} (hl : P l)
    (hstep : ∀ l m, P l → P (step b duty l m)) (ms : List (Move σ κ)) : P (play b duty l ms) := by
  induction ms generalizing l with
  | nil => exact hl
  | cons m ms ih => exact ih (hstep l m hl)

/-! ## 3. Events -/

variable (b duty) in
/-- The events of a run, in order. -/
def log (event? : Loop σ κ ρ ε → Move σ κ → Option α) : Loop σ κ ρ ε → List (Move σ κ) → List α
  | _, [] => []
  | l, m :: ms => (event? l m).toList ++ log event? (step b duty l m) ms

section Log

variable {event? : Loop σ κ ρ ε → Move σ κ → Option α}

@[simp] theorem log_nil : log b duty event? l [] = [] := rfl

@[simp] theorem log_cons : log b duty event? l (m :: ms) =
    (event? l m).toList ++ log b duty event? (step b duty l m) ms := rfl

theorem log_append : log b duty event? l (ms ++ ns) =
    log b duty event? l ms ++ log b duty event? (play b duty l ms) ns := by
  induction ms generalizing l with
  | nil => rfl
  | cons m ms ih => simp [ih]

/-- What every step preserves of a loop and the events so far holds after every run. -/
theorem play_log_induction {P : Loop σ κ ρ ε → List α → Prop} (hl : P l [])
    (hstep : ∀ l es m, P l es → P (step b duty l m) (es ++ (event? l m).toList))
    (ms : List (Move σ κ)) : P (play b duty l ms) (log b duty event? l ms) := by
  -- the events before the run stand in front
  suffices h : ∀ l es, P l es → P (play b duty l ms) (es ++ log b duty event? l ms) by
    simpa using h l [] hl
  clear hl
  induction ms with
  | nil => intro l es h; simpa using h
  | cons m ms ih =>
    intro l es h
    rw [play_cons, log_cons, ← List.append_assoc]
    exact ih _ _ (hstep l es m h)

end Log

/-- The tracked task whose end is settled by a move. -/
def settled? (l : Loop σ κ ρ ε) : Move σ κ → Option TaskId
  | .turn =>
    match l.ready.head? with
    | some (.settled t) => some t
    | _ => none
  | _ => none

/-- The task that a move runs. -/
def ran? (l : Loop σ κ ρ ε) : Move σ κ → Option TaskId
  | .turn =>
    match l.resumption? with
    | some ⟨t, _, some _⟩ => some t
    | _ => none
  | _ => none

variable (duty) in
/-- The call to close the set whose first step a move takes. -/
def sealed? (l : Loop σ κ ρ ε) : Move σ κ → Option TaskId
  | .turn =>
    match l.resumption? with
    | some ⟨t, k, some _⟩ => if duty k = .close then some t else none
    | _ => none
  | _ => none

variable (b) in
/-- The continuation that a move runs to the end of its task. -/
def finished? (l : Loop σ κ ρ ε) : Move σ κ → Option κ
  | .turn =>
    match l.resumption? with
    | some ⟨_, k, some wake⟩ =>
      match (b l.facts k wake l.state).next with
      | .finish _ => some k
      | .pause _ _ => none
    | _ => none
  | _ => none

end Runs

end CodeSession.Tracking

/-! ## 4. What is done with a board is a run -/

namespace CodeSession.Chore.Board

open Tracking

variable {b : Board} {ms : List (Move World Job)}

/-- To spawn a chore is a move, besides the note of one that is dropped. -/
theorem play_spawn (c : Chore) (b : Board) : b.spawn c = play behaviour Job.duty b
    [.change (spawnAll b.closed [c] b.state).1, .spawn c.taskName (.chore c .start)] := by
  have hduty : Job.duty (.chore c .start) = .work := rfl
  unfold Board.spawn Loop.perform
  simp only [play_cons, play_nil, step, hduty, if_true]
  unfold spawnAll Loop.facts
  cases hclosed : b.closed with
  | true => simp [Loop.obey]
  | false => rfl

/-- To open a gate is to give the chores at it their signal. -/
theorem play_release (g : String) (b : Board) : b.release g = play behaviour Job.duty b
    (.change { b.state with opened := b.state.opened ++ [g] } :: (b.waitingAt g).map .signal) := by
  unfold Board.release play
  rw [List.foldl_cons, List.foldl_map]
  rfl

theorem exists_play_settle (b : Board) : ∃ ms, b.settle = play behaviour Job.duty b ms := by
  refine Loop.settle_induction (P := fun z : Board => ∃ ms, z = play behaviour Job.duty b ms)
    (fun z hz => ?_) (fun z z' _ h => by cases h) ⟨[], rfl⟩
  obtain ⟨ms, rfl⟩ := hz
  exact ⟨ms ++ [.turn], by simp [step]⟩

theorem exists_play_advance (ticks : Nat) (b : Board) :
    ∃ ms, b.advance ticks = play behaviour Job.duty b ms := by
  refine Loop.advance_induction (P := fun z : Board => ∃ ms, z = play behaviour Job.duty b ms)
    (fun z hz => ?_) (fun z z' _ h => by cases h) (fun z ticks hz => ?_) ticks ⟨[], rfl⟩
  · obtain ⟨ms, rfl⟩ := hz
    exact ⟨ms ++ [.turn], by simp [step]⟩
  · obtain ⟨ms, rfl⟩ := hz
    exact ⟨ms ++ [.wait ticks], by simp [step]⟩

end CodeSession.Chore.Board
