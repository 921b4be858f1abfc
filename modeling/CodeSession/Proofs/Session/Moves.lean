import CodeSession.Proofs.Loop.Settling
import CodeSession.Session.Basic

/-!
# The moves of a session

What may happen to a session, one thing at a time and in any order: its loop takes a turn, the
user operates it, launches a call or cancels one, a reply or the files of a folder reach a call,
the clock moves. A run is any list of moves; a move that is not possible changes nothing.

* `step`, `play` -- a session after a move and after a run;
* `log` -- the events of a run, in order; `play_log_induction` proves what a step preserves of a
  session and its log for every run;
* `step_answer_of_reply?`, `exists_play_settle`, `exists_play_advance` -- a session that is answered,
  that settles or whose clock moves on makes a run.
-/

namespace CodeSession.Session

open Backend Folder

/-! ## 1. Moves -/

/-- What a user may launch. -/
inductive Demand where
  | send (text : Option String)
  | upload (files : List SelectedFile)
  | choose (path : String)
  | idle
  | close

/-- The call of a demand. -/
def Demand.call : Demand → Call
  | .send text => .send text
  | .upload files => .upload files
  | .choose path => .choose path
  | .idle => .idle
  | .close => .close

/-- Whether a call may be cancelled by the one who launched it: a message, an upload or a folder,
    as far as it has come. -/
def Call.isRevocable : Call → Bool
  | .send _ | .sending _ | .upload _ | .uploading _ | .choose _ | .reading _ _ _ => true
  | _ => false

/-- What may happen to a session. -/
inductive Move where
  | turn
  | switch (target : Json.Value)
  | write (text : String)
  | acknowledge
  | launch (d : Demand)
  | revoke (t : TaskId)
  | answer (t : TaskId) (r : Reply)
  | read (t : TaskId) (s : Selected)
  | wait (ticks : Nat)
  | prepare (e : Endpoint) (p : Prepared)
  | holdReads (held : Bool)

/-- Cancel a call that may be cancelled. -/
def revoke (t : TaskId) (s : Session) : Session :=
  if (s.continuation? t).any Call.isRevocable then s.cancel t else s

/-- Give a reply to a call that waits for one. -/
def answer (t : TaskId) (r : Reply) (s : Session) : Session :=
  if (s.shown? Call.request? t).isSome then s.signal t (Call.take r) else s

/-- Give the files of a folder, or why there are none, to a call that waits for them. -/
def deliver (t : TaskId) (selected : Selected) (s : Session) : Session :=
  if (s.shown? Call.path? t).isSome then s.signal t (Call.takeFiles selected) else s

/-- A session after a move. -/
def step (s : Session) : Move → Session
  | .turn => s.turned behaviour
  | .switch target => (s.activate target).1
  | .write text => s.setDraft text
  | .acknowledge => s.acknowledge
  | .launch d => s.launch d.call
  | .revoke t => s.revoke t
  | .answer t r => s.answer t r
  | .read t selected => s.deliver t selected
  | .wait ticks => s.fireAt (s.now + ticks)
  | .prepare e p => s.prepare e p
  | .holdReads held => s.holdReads held

theorem step_turn (s : Session) : s.step .turn = s.turned behaviour := rfl

/-! ## 2. Runs -/

/-- A session after a run. -/
def play (s : Session) (ms : List Move) : Session :=
  ms.foldl step s

@[simp] theorem play_nil (s : Session) : s.play [] = s := rfl

@[simp] theorem play_cons (s : Session) (m : Move) (ms : List Move) :
    s.play (m :: ms) = (s.step m).play ms := rfl

@[simp] theorem play_append (s : Session) (ms ns : List Move) :
    s.play (ms ++ ns) = (s.play ms).play ns := by
  simp [play]

/-- What every step preserves holds after every run. -/
theorem play_induction {P : Session → Prop} {s : Session} (hs : P s)
    (hstep : ∀ s m, P s → P (s.step m)) (ms : List Move) : P (s.play ms) := by
  induction ms generalizing s with
  | nil => exact hs
  | cons m ms ih => exact ih (hstep s m hs)

/-- The events of a run, in order. -/
def log {α : Type} (event? : Session → Move → Option α) : Session → List Move → List α
  | _, [] => []
  | s, m :: ms => (event? s m).toList ++ log event? (s.step m) ms

section Log

variable {α : Type} {event? : Session → Move → Option α}

@[simp] theorem log_nil (s : Session) : log event? s [] = [] := rfl

@[simp] theorem log_cons (s : Session) (m : Move) (ms : List Move) :
    log event? s (m :: ms) = (event? s m).toList ++ log event? (s.step m) ms := rfl

theorem log_append (s : Session) (ms ns : List Move) :
    log event? s (ms ++ ns) = log event? s ms ++ log event? (s.play ms) ns := by
  induction ms generalizing s with
  | nil => rfl
  | cons m ms ih => simp [ih]

/-- An event of a run is that of one of its moves. -/
theorem exists_of_mem_log {s : Session} {ms : List Move} {a : α} (h : a ∈ log event? s ms) :
    ∃ before m after, ms = before ++ m :: after ∧ event? (s.play before) m = some a := by
  induction ms generalizing s with
  | nil => cases h
  | cons m ms ih =>
    rcases List.mem_append.mp h with h | h
    · exact ⟨[], m, ms, rfl, Option.mem_toList.mp h⟩
    · obtain ⟨before, k, after, rfl, hk⟩ := ih h
      exact ⟨m :: before, k, after, rfl, hk⟩

/-- What every step preserves of a session and the events so far holds after every run. -/
theorem play_log_induction {P : Session → List α → Prop} {s : Session} (hs : P s [])
    (hstep : ∀ s es m, P s es → P (s.step m) (es ++ (event? s m).toList)) (ms : List Move) :
    P (s.play ms) (log event? s ms) := by
  -- the events before the run stand in front
  suffices h : ∀ s es, P s es → P (s.play ms) (es ++ log event? s ms) by simpa using h s [] hs
  clear hs s
  induction ms with
  | nil => intro s es h; simpa using h
  | cons m ms ih =>
    intro s es h
    rw [play_cons, log_cons, ← List.append_assoc]
    exact ih _ _ (hstep s es m h)

end Log

/-- A session at its start. -/
def opened (client : Client) (delay : Binary64) (greeting : Option String) (files : FileSystem) :
    Session :=
  Loop.start (World.start client delay greeting files)

/-- A session at its start, with a backend on the same machine and no folders. -/
def sample : Session :=
  opened (Client.opened ⟨"http", "", "localhost", some 8080, "/", none, none⟩) defaultDelay none
    default

/-! ## 3. What a session does by itself is a run -/

/-- **A request that is answered by its number is a move.** -/
theorem step_answer_of_reply? {s s' : Session} {number : Nat} {r : Reply}
    (h : Host.self.reply? number r s = some s') : ∃ t, s.step (.answer t r) = s' := by
  unfold Host.reply? at h
  obtain ⟨⟨t, n⟩, hfind, rfl⟩ := Option.map_eq_some_iff.mp h
  obtain ⟨c, hc, hshow⟩ := Loop.stage?_of_mem_awaiting (List.mem_of_find?_eq_some hfind)
  have hshown : s.shown? Call.request? t = some n :=
    Loop.shown?_eq_some_iff.mpr ⟨c, by rw [Loop.continuation?_of_stage? hc]; rfl, hshow⟩
  exact ⟨t, by simp [step, answer, hshown, Host.self]⟩

theorem step_read_of_read? {s s' : Session} {held : Bool} (h : Host.self.read? held s = some s') :
    ∃ t selected, s.step (.read t selected) = s' := by
  unfold Host.read? at h
  obtain ⟨⟨t, path⟩, hhead, rfl⟩ := Option.map_eq_some_iff.mp h
  obtain ⟨c, hc, hshow⟩ := Loop.stage?_of_mem_awaiting (List.mem_of_mem_head? hhead)
  have hpath : ∃ p, c.path? = some p := by
    cases hp : c.path? with
    | none => simp [Host.self, hp] at hshow
    | some p => exact ⟨p, rfl⟩
  obtain ⟨p, hp⟩ := hpath
  have hshown : s.shown? Call.path? t = some p :=
    Loop.shown?_eq_some_iff.mpr ⟨c, by rw [Loop.continuation?_of_stage? hc]; rfl, hp⟩
  exact ⟨t, _, by simp [step, deliver, hshown, Host.self]; rfl⟩

theorem now_deliver (t : TaskId) (selected : Selected) (s : Session) :
    (s.deliver t selected).now = s.now := by
  unfold deliver
  split
  · unfold Loop.signal
    split <;> rfl
  · rfl

/-- What a session does by itself, beside its turns, is to read a folder. -/
theorem step_read_of_surroundings {s s' : Session} (h : Host.self.surroundings s = some s') :
    (∃ m, s.step m = s') ∧ s'.now = s.now := by
  obtain ⟨t, selected, rfl⟩ := step_read_of_read? h
  exact ⟨⟨_, rfl⟩, now_deliver t selected s⟩

theorem exists_play_step {s z z' : Session} (h : ∃ ms, z = s.play ms) (hstep : ∃ m, z.step m = z') :
    ∃ ms, z' = s.play ms := by
  obtain ⟨ms, rfl⟩ := h
  obtain ⟨m, rfl⟩ := hstep
  exact ⟨ms ++ [m], by simp⟩

/-- **A session that settles makes a run.** -/
theorem exists_play_settle (s : Session) : ∃ ms, s.settle = s.play ms :=
  Loop.settle_induction (P := fun z : Session => ∃ ms, z = s.play ms)
    (fun _ h => exists_play_step h ⟨.turn, rfl⟩)
    (fun _ _ h h' => exists_play_step h (step_read_of_surroundings h').1) ⟨[], rfl⟩

/-- **A session whose clock moves on makes a run.** -/
theorem exists_play_advance (ticks : Nat) (s : Session) : ∃ ms, s.advance ticks = s.play ms :=
  Loop.advance_induction (P := fun z : Session => ∃ ms, z = s.play ms)
    (fun _ h => exists_play_step h ⟨.turn, rfl⟩)
    (fun _ _ h h' => ⟨exists_play_step h (step_read_of_surroundings h').1,
      (step_read_of_surroundings h').2⟩)
    (fun _ ticks h => exists_play_step h ⟨.wait ticks, rfl⟩) ticks ⟨[], rfl⟩

end CodeSession.Session
