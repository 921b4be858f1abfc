import CodeSession.Page.Basic
import CodeSession.Proofs.Session.Calls
import CodeSession.Proofs.Session.Moves

/-!
# The moves of a page

What may happen to a page, one thing at a time and in any order: its loop takes a turn, the user
clicks, types or presses the enter key, its timer fires, it is left, a reply or the files of a folder
reach a call, the clock moves. A move that is not possible changes nothing.

* `step`, `play` -- a page after a move and after a run;
* `exists_play_settle`, `exists_play_advance` -- a page that settles or whose clock moves on makes a
  run.
-/

namespace CodeSession.Page

open Session Backend Folder

/-! ## 1. Moves -/

/-- What may happen to a page. -/
inductive Move where
  | turn
  | click (name : String)
  | type (placeholder text : String)
  | enter (placeholder : String)
  | tick
  | disconnect
  | answer (t : TaskId) (r : Reply)
  | read (t : TaskId) (selected : Selected)
  | wait (ticks : Nat)

/-- Give a reply to a call that waits for one. -/
def answer (t : TaskId) (r : Reply) (p : Page) : Page :=
  if (p.shown? (fun j => j.call.request?) t).isSome then p.signal t (host.onCall (Call.take r)) else p

/-- Give the files of a folder, or why there are none, to a call that waits for them. -/
def deliver (t : TaskId) (selected : Selected) (p : Page) : Page :=
  if (p.shown? (fun j => j.call.path?) t).isSome then
    p.signal t (host.onCall (Call.takeFiles selected))
  else p

/-- A page after a move. -/
def step (p : Page) : Move → Page
  | .turn => p.turned behaviour
  | .click name => (p.click name).1
  | .type placeholder text => (p.type placeholder text).1
  | .enter placeholder => (p.enter placeholder).1
  | .tick => p.tick
  | .disconnect => p.disconnect
  | .answer t r => p.answer t r
  | .read t selected => p.deliver t selected
  | .wait ticks => p.fireAt (p.now + ticks)

/-! ## 2. Runs -/

/-- A page after a run. -/
def play (p : Page) (ms : List Move) : Page :=
  ms.foldl step p

@[simp] theorem play_nil (p : Page) : p.play [] = p := rfl

@[simp] theorem play_cons (p : Page) (m : Move) (ms : List Move) :
    p.play (m :: ms) = (p.step m).play ms := rfl

@[simp] theorem play_append (p : Page) (ms ns : List Move) :
    p.play (ms ++ ns) = (p.play ms).play ns := by
  simp [play]

/-- What every step preserves holds after every run. -/
theorem play_induction {P : Page → Prop} {p : Page} (hp : P p)
    (hstep : ∀ p m, P p → P (p.step m)) (ms : List Move) : P (p.play ms) := by
  induction ms generalizing p with
  | nil => exact hp
  | cons m ms ih => exact ih (hstep p m hp)

/-! ## 3. What a page does by itself is a run -/

/-- **A request that is answered by its number is a move.** -/
theorem step_answer_of_reply? {p p' : Page} {number : Nat} {r : Reply}
    (h : host.reply? number r p = some p') : ∃ t, p.step (.answer t r) = p' := by
  unfold Host.reply? at h
  obtain ⟨⟨t, n⟩, hfind, rfl⟩ := Option.map_eq_some_iff.mp h
  obtain ⟨j, hj, hshow⟩ := Loop.stage?_of_mem_awaiting (List.mem_of_find?_eq_some hfind)
  have hshown : p.shown? (fun j => j.call.request?) t = some n :=
    Loop.shown?_eq_some_iff.mpr ⟨j, by rw [Loop.continuation?_of_stage? hj]; rfl, hshow⟩
  exact ⟨t, by simp [step, answer, hshown]⟩

/-- What a page does by itself, beside its turns, is to read a folder. -/
theorem step_read_of_surroundings {p p' : Page} (h : host.surroundings p = some p') :
    (∃ m, p.step m = p') ∧ p'.now = p.now := by
  unfold Host.surroundings Host.read? at h
  obtain ⟨⟨t, path⟩, hhead, rfl⟩ := Option.map_eq_some_iff.mp h
  obtain ⟨j, hj, hshow⟩ := Loop.stage?_of_mem_awaiting (List.mem_of_mem_head? hhead)
  have hpath : j.call.path?.isSome = true := by
    cases hp : j.call.path? with
    | none => simp [host, hp] at hshow
    | some path => rfl
  have hshown : (p.shown? (fun j => j.call.path?) t).isSome = true := by
    rw [Loop.shown?_of_stage? hj]
    exact hpath
  refine ⟨⟨.read t (p.state.session.files.collect path), ?_⟩, (Loop.keeps_signal t _ p).now⟩
  exact if_pos hshown

theorem exists_play_step {p z z' : Page} (h : ∃ ms, z = p.play ms) (hstep : ∃ m, z.step m = z') :
    ∃ ms, z' = p.play ms := by
  obtain ⟨ms, rfl⟩ := h
  obtain ⟨m, rfl⟩ := hstep
  exact ⟨ms ++ [m], by simp⟩

/-- **A page that settles makes a run.** -/
theorem exists_play_settle (p : Page) : ∃ ms, p.settle = p.play ms :=
  Loop.settle_induction (P := fun z : Page => ∃ ms, z = p.play ms)
    (fun _ h => exists_play_step h ⟨.turn, rfl⟩)
    (fun _ _ h h' => exists_play_step h (step_read_of_surroundings h').1) ⟨[], rfl⟩

/-- **A page whose clock moves on makes a run.** -/
theorem exists_play_advance (ticks : Nat) (p : Page) : ∃ ms, p.advance ticks = p.play ms :=
  Loop.advance_induction (P := fun z : Page => ∃ ms, z = p.play ms)
    (fun _ h => exists_play_step h ⟨.turn, rfl⟩)
    (fun _ _ h h' => ⟨exists_play_step h (step_read_of_surroundings h').1,
      (step_read_of_surroundings h').2⟩)
    (fun _ ticks h => exists_play_step h ⟨.wait ticks, rfl⟩) ticks ⟨[], rfl⟩

end CodeSession.Page
