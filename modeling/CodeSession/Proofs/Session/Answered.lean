import CodeSession.Proofs.Session.Dialogue

/-!
# What becomes of a question

How a call that took up a question has ended, and what it leaves in the transcript.

* `Fate.ending` -- how a call ends with its question; `ending_of_sendFate?` -- a run that ends a
  question ends its call so, and the question ends in a reply or is cancelled under way;
* `stage?_step_of_ended` -- a call that has ended stays as it ended;
* `Concluded` -- every question that has ended is one of a call that has ended with it;
* `answered_iff_replied` -- the question stands with one answer, and its call raises nothing,
  exactly if the request ended in a response with a text or a broken connection. A fault that is no trouble of
  the backend leaves the question alone in the transcript and is raised
  (`unanswered_of_brokenPool`).
-/

namespace CodeSession

open Backend Folder Text

/-- A response whose body has a text, or a broken connection. -/
def Backend.Reply.IsReadable : Reply → Prop
  | .response _ _ reading => ∃ s, reading.text = .ok s
  | .broken _ => True
  | .fault _ => False

/-- Only a fault and a body that is not read mean a fault. -/
theorem Backend.Reply.isReadable_iff {r : Reply} :
    r.IsReadable ↔ ∀ x, r.answer ≠ .error (.fault x) := by
  cases r with
  | broken detail => exact ⟨fun _ x hx => (by cases hx), fun _ => trivial⟩
  | fault y => exact ⟨fun hno => hno.elim, fun h => h y rfl⟩
  | response status body reading =>
    cases htext : reading.text with
    | error y =>
      refine ⟨fun ⟨s, hs⟩ => ?_, fun h => absurd (answer_of_unread htext) (h y)⟩
      rw [htext] at hs
      cases hs
    | ok s =>
      refine ⟨fun _ x hx => ?_, fun _ => ⟨s, htext⟩⟩
      rw [answer_of_text htext] at hx
      split at hx <;> cases hx

namespace Session

variable {facts : Facts} {w : World} {c : Call} {wake : Wake} {s : Session} {t : TaskId}

/-! ## 1. How a call ends with its question -/

/-- How a call ends with its question: a fault is raised, and an answer or a trouble of the backend
    is told in the transcript. -/
def Fate.ending : Fate String → Ending Result Failure
  | .landed outcome =>
    match faultOf outcome with
    | some f => .raised (.fault f)
    | none => .returned (some true)
  | _ => .cancelled

/-- A question ends in a reply to its request, or is cancelled under way. -/
inductive Fate.Settles : Fate String → Prop where
  | replied (r : Reply) : Settles (.landed r.answer)
  | aborted : Settles .aborted

theorem next_endSend (outcome : Except CallTrouble String) (w : World) :
    (endSend outcome w).next = .finish (Fate.landed outcome).ending := by
  unfold endSend Fate.ending
  dsimp only
  cases faultOf outcome <;> rfl

/-- A request that is not left open ends in a reply; one that is refused, in a fault. -/
theorem settles_of_fateOf {sending : Sending} {f : Fate String}
    (h : fateOf Reply.answer sending = some f) : f.Settles := by
  cases sending with
  | refused x =>
    cases h
    exact .replied (.fault x)
  | answered n r =>
    cases h
    exact .replied r
  | outstanding n => cases h

/-- A message that is taken up and ends at once ends as its request does. -/
theorem next_beginSend {text : Option String} {f : Fate String}
    (h : sendFate? facts (.send text) .go w = some f) :
    (beginSend facts text w).next = .finish f.ending ∧ f.Settles := by
  by_cases hno : facts.closed = true ∨ strip (text.getD w.chat.draft) = "" ∨ w.chat.pending = true
  · rw [sendFate?_refused text hno] at h
    cases h
  · simp only [not_or, Bool.not_eq_true] at hno
    obtain ⟨hopen, htext, hfree⟩ := hno
    rw [sendFate?_eq text hopen htext hfree] at h
    refine ⟨?_, settles_of_fateOf h⟩
    rw [beginSend_eq text hopen htext hfree]
    dsimp only
    generalize w.client.send (.query (text.getD w.chat.draft)) = sent at h
    obtain ⟨client, sending⟩ := sent
    cases sending with
    | refused x =>
      cases h
      exact next_endSend _ _
    | answered n r =>
      cases h
      exact next_endSend _ _
    | outstanding n => cases h

/-- **A run that ends a question ends its call with it.** -/
theorem ending_of_sendFate? {f : Fate String} (h : sendFate? facts c wake w = some f) :
    (behaviour facts c wake w).next = .finish f.ending ∧ f.Settles := by
  cases c with
  | send text =>
    cases wake with
    | go =>
      have hrun : behaviour facts (.send text) .go w = beginSend facts text w := rfl
      rw [hrun]
      exact next_beginSend h
    | cancelled => cases h
  | sending x =>
    cases wake with
    | go =>
      obtain ⟨n, _ | r⟩ := x
      · cases h
      · cases h
        exact ⟨next_endSend r.answer w, .replied r⟩
    | cancelled =>
      cases h
      exact ⟨rfl, .aborted⟩
  | _ => cases wake <;> cases h

/-! ## 2. Calls that have ended -/

theorem Drift.ended {st : Stage Call Result Failure} {e : Ending Result Failure}
    (h : Drift (.ended e) st) : st = .ended e := by
  cases h with
  | stirs h => cases h; rfl
  | revoked hc h => rfl

/-- **A call that has ended stays as it ended.** -/
theorem stage?_step_of_ended (ht : Tidy s) {e : Ending Result Failure}
    (h : s.stage? t = some (.ended e)) (m : Move) : (s.step m).stage? t = some (.ended e) := by
  have hnone : ∀ c, s.continuation? t ≠ some c := by
    intro c hc
    rw [Loop.continuation?_of_stage? h] at hc
    cases hc
  rcases calm_or_run ht.listeners m with hcalm | ⟨rfl, u, c, wake, hrun⟩
  · obtain ⟨st, hst, hd⟩ := hcalm.stage t _ h fun r hr heq =>
      hnone r.continuation (heq ▸ continuation?_of_resumed? hr)
    rw [hst, hd.ended]
  · have hne : t ≠ u := fun heq => hnone c (heq ▸ Loop.Resumption.continuation?_eq hrun)
    have hlt : t < (s.step .turn).tasks.length :=
      Nat.lt_of_lt_of_le (Loop.lt_of_stage? h) (Loop.length_le_turned_of_run hrun)
    cases hst : (s.step .turn).stage? t with
    | none => exact absurd hlt (Nat.not_lt.mpr (Loop.stage?_eq_none_iff.mp hst))
    | some st =>
      rcases Loop.stage?_turned_of_run hrun hst with ⟨heq, _⟩ | ⟨_, st₀, hs₀, hcase⟩ | ⟨hle, _⟩
      · exact absurd heq hne
      · obtain rfl : st₀ = .ended e := Option.some.inj (hs₀.symm.trans h)
        rcases hcase with ⟨_, rfl⟩ | ⟨_, rfl⟩ <;> rfl
      · exact absurd (Loop.lt_of_stage? h) (Nat.not_lt.mpr hle)

/-- Every question that has ended is one of a call that has ended with it. -/
def Concluded (s : Session) (ended : List Answer) : Prop :=
  ∀ a ∈ ended, s.stage? a.call = some (.ended a.fate.ending) ∧ a.fate.Settles

theorem concluded_step {ended : List Answer} (h : Concluded s ended) (ht : Tidy s) (m : Move) :
    Concluded (s.step m) (ended ++ (s.questionEnd? m).toList) := by
  have hold : Concluded (s.step m) ended := fun a ha =>
    ⟨stage?_step_of_ended ht (h a ha).1 m, (h a ha).2⟩
  rcases calm_or_run ht.listeners m with hcalm | ⟨rfl, t, c, wake, hrun⟩
  · rw [(question?_of_calm hcalm).2, Option.toList_none, List.append_nil]
    exact hold
  · have hended : s.questionEnd? .turn =
        (sendFate? s.facts c wake s.state).map fun f => ⟨t, f⟩ := by
      simp only [questionEnd?, resumed?, hrun]
    rw [hended]
    cases hfate : sendFate? s.facts c wake s.state with
    | none =>
      rw [Option.map_none, Option.toList_none, List.append_nil]
      exact hold
    | some f =>
      obtain ⟨hnext, hsettles⟩ := ending_of_sendFate? hfate
      refine List.forall_mem_append.mpr ⟨hold, List.forall_mem_singleton.mpr ⟨?_, hsettles⟩⟩
      rw [step_turn, Loop.stage?_turned_self hrun, hnext]
      rfl

theorem concluded_play (client : Client) (delay : Binary64) (greeting : Option String)
    (files : FileSystem) (ms : List Move) :
    Concluded ((opened client delay greeting files).play ms)
      (log questionEnd? (opened client delay greeting files) ms) := by
  refine (play_log_induction (P := fun s ended => Tidy s ∧ Concluded s ended)
    ⟨tidy_opened client delay greeting files, fun a ha => by cases ha⟩
    (fun s ended m hs => ?_) ms).2
  exact ⟨tidy_step hs.1 m, concluded_step hs.2 hs.1 m⟩

/-! ## 3. Questions and their answers -/

/-- What a question that has ended once left in the transcript. -/
theorem entries_of_mem {ended : List Answer} {q : Question} {f : Fate String}
    (h : (ended.map Answer.call).Nodup) (hf : ⟨q.call, f⟩ ∈ ended) :
    q.entries ended = ⟨.user, strip q.query⟩ :: f.messages := by
  induction ended using List.reverseRecOn with
  | nil => cases hf
  | append_singleton ended a ih =>
    rw [List.map_append, List.map_singleton, ← List.concat_eq_append, List.nodup_concat] at h
    rw [entries_append]
    rcases List.mem_append.mp hf with hold | hlast
    · have hne : a.call ≠ q.call := fun he => h.1 (he ▸ List.mem_map_of_mem hold)
      rw [ih h.2 hold, if_neg hne, List.append_nil]
    · obtain rfl : ⟨q.call, f⟩ = a := List.mem_singleton.mp hlast
      rw [entries_of_notMem h.1, if_pos rfl]
      rfl

/-- A question whose call is over has ended. -/
theorem Dialogue.exists_answer {greeting : List Message} {asked : List Question}
    {ended : List Answer} {q : Question} (h : Dialogue greeting s asked ended) (hq : q ∈ asked)
    (hover : s.continuation? q.call = none) :
    (ended.map Answer.call).Nodup ∧ ∃ f, ⟨q.call, f⟩ ∈ ended := by
  cases h.standing with
  | still hp hs he =>
    rw [he]
    obtain ⟨⟨call, f⟩, ha, rfl⟩ := List.mem_map.mp (he ▸ List.mem_map_of_mem hq)
    exact ⟨h.once, f, ha⟩
  | underWay p hp hs he =>
    rename_i rest
    refine ⟨he ▸ (once_ask.mp h.once).2, ?_⟩
    rcases List.mem_append.mp hq with hrest | hlast
    · obtain ⟨⟨call, f⟩, ha, rfl⟩ := List.mem_map.mp (he ▸ List.mem_map_of_mem hrest)
      exact ⟨f, ha⟩
    · -- the question that is under way is one of a call that goes on
      obtain rfl : q = p := List.mem_singleton.mp hlast
      obtain ⟨c, hc, _⟩ := Session.messages.exists_of_holds ((hs q.call).mpr rfl)
      rw [hover] at hc
      cases hc

/-- A question has one answer, and its call raises nothing, exactly if its request ended in a reply
    that is no fault. -/
theorem Fate.Settles.answers_iff {f : Fate String} (h : f.Settles) :
    (∃ text, f.messages = [⟨.agent, text⟩]) ∧ f.ending = .returned (some true) ↔
      ∃ r : Reply, f = .landed r.answer ∧ r.IsReadable := by
  cases h with
  | aborted =>
    refine ⟨fun ⟨_, he⟩ => (by cases he), fun ⟨r, hr, _⟩ => (by cases hr)⟩
  | replied r =>
    constructor
    · intro ⟨_, he⟩
      refine ⟨r, rfl, Reply.isReadable_iff.mpr fun x hx => ?_⟩
      rw [hx] at he
      cases he
    · intro ⟨r', hr, hreadable⟩
      rw [hr]
      cases hr' : r'.answer with
      | ok answer => exact ⟨⟨answer, rfl⟩, rfl⟩
      | error t =>
        cases t with
        | backend t => exact ⟨⟨"Error: " ++ t.description, rfl⟩, rfl⟩
        | fault x => exact absurd hr' (Reply.isReadable_iff.mp hreadable x)

/-- **What becomes of the questions of a run.** The transcript is the greeting and then, in order,
    what the questions left there, each of a call of its own. A call that took up a question and is
    over has ended it once, as its request ended: in a reply or by a cancellation under way. The
    question then stands with exactly one answer, the call having raised nothing, if and only if the
    request ended in a response with a text or a broken connection; otherwise it stands alone. -/
theorem answered_iff_replied (client : Client) (delay : Binary64) (greeting : Option String)
    (files : FileSystem) (ms : List Move) :
    let start := opened client delay greeting files
    let s := start.play ms
    let asked := log question? start ms
    let ended := log questionEnd? start ms
    s.state.chat.messages =
      (Chat.start greeting).messages ++ asked.flatMap (Question.entries ended) ∧
    (asked.map Question.call).Nodup ∧
    ∀ q ∈ asked, ∀ e, s.stage? q.call = some (.ended e) →
      ∃ f, ⟨q.call, f⟩ ∈ ended ∧ f.Settles ∧ e = f.ending ∧
        q.entries ended = ⟨.user, strip q.query⟩ :: f.messages ∧
        ((∃ text, q.entries ended = [⟨.user, strip q.query⟩, ⟨.agent, text⟩]) ∧
            e = .returned (some true) ↔
          ∃ r : Reply, f = .landed r.answer ∧ r.IsReadable) := by
  intro start s asked ended
  have hd : Dialogue (Chat.start greeting).messages s asked ended :=
    dialogue_play client delay greeting files ms
  refine ⟨hd.messages, hd.once, fun q hq e he => ?_⟩
  have hover : s.continuation? q.call = none := Loop.continuation?_of_stage? he
  obtain ⟨honce, f, hf⟩ := hd.exists_answer hq hover
  obtain ⟨hstage, hsettles⟩ := concluded_play client delay greeting files ms _ hf
  have hending : e = f.ending := Stage.ended.inj (Option.some.inj (he.symm.trans hstage))
  have hentries := entries_of_mem honce hf
  refine ⟨f, hf, hsettles, hending, hentries, ?_⟩
  rw [hending, ← hsettles.answers_iff, hentries]
  simp only [List.cons.injEq, true_and]

/-- A question whose connection breaks. -/
def brokenQuestion : List Move :=
  [.launch (.send (some " hi ")), .turn, .answer 0 (.broken "refused"), .turn]

/-- The question stands without its blanks and with its answer, and its call has raised nothing. -/
theorem answered_of_brokenQuestion :
    let asked := log question? sample brokenQuestion
    let ended := log questionEnd? sample brokenQuestion
    asked = [⟨0, " hi "⟩] ∧
    (sample.play brokenQuestion).stage? 0 = some (.ended (.returned (some true))) ∧
    ∃ text, Question.entries ended ⟨0, " hi "⟩ = [⟨.user, strip " hi "⟩, ⟨.agent, text⟩] := by
  intro asked ended
  have hasked : asked = [⟨0, " hi "⟩] := rfl
  have hended : ended = [⟨0, .landed (Reply.broken "refused").answer⟩] := rfl
  have hover : (sample.play brokenQuestion).stage? 0 = some (.ended (.returned (some true))) := rfl
  have hq : (⟨0, " hi "⟩ : Question) ∈ asked := hasked ▸ List.mem_singleton_self _
  obtain ⟨f, hf, _, _, _, hiff⟩ :=
    (answered_iff_replied _ _ _ _ brokenQuestion).2.2 _ hq _ hover
  have hlast : (⟨0, f⟩ : Answer) ∈ ended := hf
  rw [hended, List.mem_singleton] at hlast
  cases hlast
  exact ⟨hasked, hover, (hiff.mpr ⟨_, rfl, trivial⟩).1⟩

/-- A question whose request ends in a fault that is no trouble of the backend. -/
def brokenPool : List Move :=
  [.launch (.send (some "hi")), .turn, .answer 0 (.fault ⟨.runtime, "connection pool is gone"⟩),
    .turn]

/-- The question stands alone, and its call has raised the fault. -/
theorem unanswered_of_brokenPool :
    ¬∀ (client : Client) (delay : Binary64) (greeting : Option String) (files : FileSystem)
        (ms : List Move), let start := opened client delay greeting files
      ∀ q ∈ log question? start ms, ∀ e, (start.play ms).stage? q.call = some (.ended e) →
        (∃ text, q.entries (log questionEnd? start ms) =
          [⟨.user, strip q.query⟩, ⟨.agent, text⟩]) ∧ ∀ x, e ≠ .raised x := by
  intro hanswered
  have hasked : log question? sample brokenPool = [⟨0, "hi"⟩] := rfl
  have hover : (sample.play brokenPool).stage? 0 =
      some (.ended (.raised (.fault ⟨.runtime, "connection pool is gone"⟩))) := rfl
  have hq : (⟨0, "hi"⟩ : Question) ∈ log question? sample brokenPool :=
    hasked ▸ List.mem_singleton_self _
  obtain ⟨_, hquiet⟩ := hanswered _ _ _ _ brokenPool _ hq _ hover
  exact hquiet _ rfl

end Session

end CodeSession
