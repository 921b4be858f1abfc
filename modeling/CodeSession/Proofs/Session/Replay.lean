import CodeSession.Proofs.Session.Dialogue
import CodeSession.Proofs.Session.Fetching

/-!
# The chat and the inspection, told by what happens to them

Whatever else happens in a run, the chat comes to what its own events make of it, and so does the
inspection.

* `view_play` -- a part of a session that every step changes by its own events alone is told by the
  log of these events;
* `closes` -- the step that closes the session;
* `ChatEvent`, `chat_play` -- drafts, messages with what their requests end in, and the close;
* `InspectionEvent`, `inspection_play` -- activations and the ends of fetches;
* `settled_replay` -- cancellations under way change nothing but whether the inspection is loading.
-/

namespace CodeSession

open Backend Text

/-! ## 1. Parts of a session -/

namespace Session

open Folder

variable {s s' : Session} {m : Move} {t : TaskId} {c : Call} {wake : Wake}

/-- **A part of a session that every step changes by its own events alone is told by their log.** -/
theorem view_play {α β : Type} {event? : Session → Move → Option α} {after : β → α → β}
    {P : Session → Prop} (view : Session → β) (hs : P s) (hkeep : ∀ s m, P s → P (s.step m))
    (hview : ∀ s m, P s → view (s.step m) = (event? s m).toList.foldl after (view s))
    (ms : List Move) : view (s.play ms) = (log event? s ms).foldl after (view s) := by
  refine (play_log_induction (P := fun z es => P z ∧ view z = es.foldl after (view s)) ⟨hs, rfl⟩
    (fun z es m h => ⟨hkeep z m h.1, ?_⟩) ms).2
  rw [hview z m h.1, h.2, List.foldl_append]

/-- Whether a move closes the session: a call takes its first step that is to close it, and it is
    open. -/
def closes (s : Session) (m : Move) : Bool :=
  match s.resumed? m with
  | some ⟨_, .close, some .go⟩ => !s.closed
  | _ => false

theorem closes_of_calm (h : Calm s m s') : s.closes m = false := by
  unfold closes
  split
  · rename_i hr
    cases h.wake _ hr
  · rfl

theorem closes_of_run (ht : Tidy s) (h : s.resumption? = some ⟨t, c, some wake⟩) :
    s.closes .turn = true ↔ .seal ∈ (behaviour s.facts c wake s.state).orders := by
  have hcloses : s.closes .turn = true ↔ c = .close ∧ wake = .go ∧ s.closed = false := by
    unfold closes
    rw [resumed?, h]
    cases c <;> cases wake <;> simp
  rw [hcloses]
  constructor
  · rintro ⟨rfl, rfl, hopen⟩
    exact seal_mem_beginClose s.state hopen
  · intro hseal
    obtain ⟨rfl, hopen, _⟩ := (ht.tame c wake).seals hseal
    cases wake with
    | go => exact ⟨rfl, rfl, hopen⟩
    | cancelled => exact absurd hseal List.not_mem_nil

/-- **A session is closed by nothing else.** -/
theorem closed_step_eq (ht : Tidy s) (m : Move) : (s.step m).closed = (s.closed || s.closes m) := by
  rcases calm_or_run ht.listeners m with hc | ⟨rfl, t, c, wake, hrun⟩
  · rw [closes_of_calm hc, hc.closed, Bool.or_false]
  · rw [Bool.eq_iff_iff, Bool.or_eq_true, closed_of_run hrun, closes_of_run ht hrun]

end Session

/-! ## 2. The chat -/

/-- The question under way ends. -/
def Chat.meet (f : Session.Fate String) (c : Chat) : Chat :=
  ⟨c.messages ++ f.messages, c.draft, false⟩

namespace Session

open Folder

variable {s s' : Session} {m : Move} {t : TaskId} {c : Call} {wake : Wake} {w : World}

deriving instance DecidableEq for Fate

/-- What happens to the chat: the draft is written; a message is to be sent, the draft if no text is
    given, and its request may end at once; the request under way ends; the session is closed. -/
inductive ChatEvent where
  | wrote (text : String)
  | sent (text : Option String) (fate : Option (Fate String))
  | ended (fate : Fate String)
  | closed
  deriving DecidableEq

/-- What a run of a call does to the chat. A message counts when its call takes its first step. -/
def chatEventOf (facts : Facts) (c : Call) (wake : Wake) (w : World) : Option ChatEvent :=
  match wake, c with
  | .go, .send text => some (.sent text (sendFate? facts (.send text) .go w))
  | wake, c => (sendFate? facts c wake w).map .ended

/-- What a move does to the chat. -/
def chatEvent? (s : Session) (m : Move) : Option ChatEvent :=
  match m with
  | .write text => some (.wrote text)
  | m =>
    if s.closes m then some .closed
    else match s.resumed? m with
      | some ⟨_, c, some wake⟩ => chatEventOf s.facts c wake s.state
      | _ => none

/-- The chat, and whether the session is closed, after an event. -/
def ChatEvent.after (v : Chat × Bool) : ChatEvent → Chat × Bool
  | .wrote text => (v.1.write text, v.2)
  | .sent text fate =>
    if v.2 then v
    else match v.1.ask text with
      | none => v
      | some (_, chat) => (fate.elim chat fun f => chat.meet f, v.2)
  | .ended f => (v.1.meet f, v.2)
  | .closed => (v.1, true)

/-- Between runs of calls the user writes the draft, and nothing else changes in the chat. -/
theorem Move.chat_onState (hv : w.tabs.listeners = [viewer]) (m : Move) (closed : Bool) :
    (m.onState closed w).chat = match m with
      | .write text => w.chat.write text
      | _ => w.chat := by
  cases m with
  | switch target =>
    show (switchTab closed target w).1.chat = w.chat
    cases closed with
    | true => rfl
    | false =>
      cases ht : (Choice.ofValue? target : Option Tab) with
      | none => rw [switchTab_unknown ht]
      | some tab =>
        by_cases htab : tab = .inspect
        · rw [switchTab_inspect hv (htab ▸ ht)]
        · rw [switchTab_other hv ht htab]
  | _ => rfl

/-- What a message makes of the chat. -/
theorem chat_beginSend (facts : Facts) (text : Option String) (w : World) :
    ((beginSend facts text w).state.chat, facts.closed) =
      (ChatEvent.sent text (sendFate? facts (.send text) .go w)).after (w.chat, facts.closed) := by
  by_cases h : facts.closed = true ∨ strip (text.getD w.chat.draft) = "" ∨ w.chat.pending = true
  · rw [beginSend_refused text h]
    cases hclosed : facts.closed with
    | true => rfl
    | false =>
      have hask : w.chat.ask text = none := by
        rw [Chat.ask_eq_none_iff, Chat.isBlankText_iff]
        exact h.resolve_left (by rw [hclosed]; exact Bool.false_ne_true)
      simp only [ChatEvent.after, hask]
      rfl
  · simp only [not_or, Bool.not_eq_true] at h
    obtain ⟨hopen, htext, hfree⟩ := h
    rw [beginSend_eq text hopen htext hfree, sendFate?_eq text hopen htext hfree]
    simp only [ChatEvent.after, hopen, Chat.ask_of_free htext hfree]
    generalize w.client.send (.query (text.getD w.chat.draft)) = sent
    obtain ⟨client, sending⟩ := sent
    cases sending with
    | refused f => exact congrArg (·, false) (chat_endSend _ _).1
    | answered n r => exact congrArg (·, false) (chat_endSend _ _).1
    | outstanding n => rfl

/-- What a run of another call makes of the chat. -/
theorem chat_of_not_send (facts : Facts) (wake : Wake) (hv : w.tabs.listeners = [viewer])
    (hc : wake = .go → ∀ text, c ≠ .send text) :
    (behaviour facts c wake w).state.chat =
      (sendFate? facts c wake w).elim w.chat fun f => w.chat.meet f := by
  have hnone : takes? c wake w (behaviour facts c wake w) = none := by
    cases wake with
    | cancelled => cases c <;> rfl
    | go =>
      cases c with
      | send text => exact absurd rfl (hc rfl text)
      | _ => rfl
  have hrun := chatRun_behaviour (w := w) facts c wake hv
  rw [hnone] at hrun
  generalize sendFate? facts c wake w = fate at hrun
  cases hrun with
  | quiet hchat hnext => exact hchat
  | ended f hc hchat hnext => exact hchat

/-- **A step changes the chat by its own event alone.** -/
theorem chat_step (ht : Tidy s) (m : Move) :
    ((s.step m).state.chat, (s.step m).closed) =
      (s.chatEvent? m).toList.foldl ChatEvent.after (s.state.chat, s.closed) := by
  rcases calm_or_run ht.listeners m with hc | ⟨rfl, t, c, wake, hrun⟩
  · rw [hc.state, m.chat_onState ht.listeners, hc.closed]
    cases m with
    | write text => rfl
    | _ =>
      unfold chatEvent?
      simp only [closes_of_calm hc, Bool.false_eq_true, if_false]
      split
      · rename_i hr
        cases hc.wake _ hr
      · rfl
  · have hevent : s.chatEvent? .turn =
        if s.closes .turn then some .closed else chatEventOf s.facts c wake s.state := by
      simp only [chatEvent?, resumed?, hrun]
    rw [closed_step_eq ht, state_of_run hrun, hevent]
    have hother := chat_of_not_send (c := c) (w := s.state) s.facts wake ht.listeners
    cases hcloses : s.closes .turn with
    | true =>
      obtain ⟨rfl, _⟩ := (ht.tame c wake).seals ((closes_of_run ht hrun).mp hcloses)
      have hfate : sendFate? s.facts .close wake s.state = none := by cases wake <;> rfl
      rw [hother fun _ _ e => (by cases e), hfate, Bool.or_true]
      rfl
    | false =>
      rw [Bool.or_false, if_neg Bool.false_ne_true]
      by_cases hsend : wake = .go ∧ ∃ text, c = .send text
      · obtain ⟨rfl, text, rfl⟩ := hsend
        have hfacts : s.facts.closed = s.closed := rfl
        have hsent : chatEventOf s.facts (.send text) .go s.state =
          some (.sent text (sendFate? s.facts (.send text) .go s.state)) := rfl
        rw [hsent, Option.toList_some, List.foldl_cons, List.foldl_nil, ← hfacts]
        exact chat_beginSend s.facts text s.state
      · have hended : chatEventOf s.facts c wake s.state =
            (sendFate? s.facts c wake s.state).map .ended := by
          cases c <;> cases wake <;> first | rfl | exact absurd ⟨rfl, _, rfl⟩ hsend
        rw [hended, hother fun hgo text e => hsend ⟨hgo, text, e⟩]
        cases sendFate? s.facts c wake s.state <;> rfl

/-- **The chat of a run is told by its events.** -/
theorem chat_play (client : Client) (delay : Binary64) (greeting : Option String)
    (files : FileSystem) (ms : List Move) :
    let start := opened client delay greeting files
    ((start.play ms).state.chat, (start.play ms).closed) =
      (log chatEvent? start ms).foldl ChatEvent.after (Chat.start greeting, false) :=
  view_play (fun s => (s.state.chat, s.closed))
    (tidy_opened client delay greeting files) (fun _ m h => tidy_step h m)
    (fun _ m h => chat_step h m) ms

/-! ## 3. The inspection -/

/-- What happens to the inspection: it is shown, or the fetch with a number ends whose request was
    sent, by a reply, a fault or a cancellation. A fetch that is cancelled before it began has sent
    no request, and nothing happens. -/
inductive InspectionEvent where
  | shown
  | ended (number : Nat) (fate : Fate RecordSet)

/-- Whether an event is no cancellation. -/
def InspectionEvent.isOutcome : InspectionEvent → Bool
  | .ended _ .aborted => false
  | _ => true

/-- What a move does to the inspection. -/
def inspectionEvent? (s : Session) (m : Move) : Option InspectionEvent :=
  if m.activates s.closed then some .shown
  else match s.fetchEnd? m with
    | some ⟨_, .unbegun, _⟩ => none
    | some e => some (.ended e.number e.fate)
    | none => none

/-- The inspection after an event. -/
def InspectionEvent.after (i : Inspection) : InspectionEvent → Inspection
  | .shown => i.issue
  | .ended number fate => i.resolve number fate

/-- **A step changes the inspection by its own event alone.** -/
theorem inspection_step (ht : Tidy s) (m : Move) : (s.step m).state.inspection =
    (s.inspectionEvent? m).toList.foldl InspectionEvent.after s.state.inspection := by
  have hcourse := course_step ht m
  unfold inspectionEvent?
  generalize s.fetchEnd? m = e at hcourse ⊢
  cases hcourse with
  | still hm hall hi =>
    rw [if_neg (by rw [hm]; exact Bool.false_ne_true), hi]
    rfl
  | issued t hm htn hnew hother hi =>
    rw [if_pos hm, hi]
    rfl
  | ended t n fate hm htn hgone hother hi hland =>
    rw [if_neg (by rw [hm]; exact Bool.false_ne_true), hi]
    cases fate <;> rfl

/-- **The inspection of a run is told by its events.** -/
theorem inspection_play (client : Client) (delay : Binary64) (greeting : Option String)
    (files : FileSystem) (ms : List Move) :
    let start := opened client delay greeting files
    (start.play ms).state.inspection =
      (log inspectionEvent? start ms).foldl InspectionEvent.after Inspection.start :=
  view_play (fun s => s.state.inspection)
    (tidy_opened client delay greeting files) (fun _ m h => tidy_step h m)
    (fun _ m h => inspection_step h m) ms

end Session

/-- The inspection but for whether it is loading. -/
def Inspection.settled (i : Inspection) : Inspection :=
  { i with loading := false }

namespace Session

/-- What an event makes of an inspection, but for whether it is loading, does not depend on that. -/
theorem settled_after {i j : Inspection} (h : i.settled = j.settled) (e : InspectionEvent) :
    (e.after i).settled = (e.after j).settled := by
  obtain ⟨snapshot, loading, error, issued⟩ := i
  obtain ⟨snapshot', loading', error', issued'⟩ := j
  simp only [Inspection.settled, Inspection.mk.injEq, true_and] at h
  obtain ⟨rfl, rfl, rfl⟩ := h
  cases e with
  | shown => rfl
  | ended number fate =>
    cases fate with
    | landed outcome =>
      show (Inspection.land _ _ _).settled = (Inspection.land _ _ _).settled
      unfold Inspection.land
      split
      · obtain (t | f) | records := outcome <;> rfl
      · rfl
    | aborted =>
      show (Inspection.abandon _ _).settled = (Inspection.abandon _ _).settled
      unfold Inspection.abandon
      split <;> rfl
    | unbegun => rfl

theorem settled_after_of_cancelled {e : InspectionEvent} (h : e.isOutcome = false)
    (i : Inspection) : (e.after i).settled = i.settled := by
  unfold InspectionEvent.isOutcome at h
  split at h
  · show (Inspection.abandon _ i).settled = i.settled
    unfold Inspection.abandon
    split <;> rfl
  · cases h

/-- **Cancellations change nothing but whether the inspection is loading.** -/
theorem settled_replay (es : List InspectionEvent) {i j : Inspection} (h : i.settled = j.settled) :
    (es.foldl InspectionEvent.after i).settled =
      ((es.filter InspectionEvent.isOutcome).foldl InspectionEvent.after j).settled := by
  induction es generalizing i j with
  | nil => exact h
  | cons e es ih =>
    cases he : e.isOutcome with
    | true =>
      rw [List.filter_cons_of_pos he]
      exact ih (settled_after h e)
    | false =>
      rw [List.filter_cons_of_neg (by rw [he]; exact Bool.false_ne_true)]
      exact ih ((settled_after_of_cancelled he i).trans h)

end Session

end CodeSession
