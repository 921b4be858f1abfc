import CodeSession.Proofs.Session.Messages
import Mathlib.Data.List.Induction
import Mathlib.Data.List.Nodup

/-!
# The dialogue

The transcript of a run is told by the questions that were taken up and by how they ended.

* `beginSend_eq`, `beginSend_refused` -- a message is refused if the session is closed, its query is
  blank or another question is pending; else the question is taken up and the query sent;
* `ChatRun` -- what a run of a call does to the chat;
* `Question`, `Answer` -- the questions taken up and their ends, with the calls that brought them;
* `Dialogue`, `dialogue_step` -- each question stands in the transcript with its own answer right
  behind it; one at most is yet to end, and it is the last.
-/

namespace CodeSession

open Backend Text

theorem Chat.isBlankText_iff {s : String} : Chat.isBlankText s = true ↔ strip s = "" := by
  simp [Chat.isBlankText, String.isEmpty_iff]

/-- A question that is not blank is taken up while none is pending. -/
theorem Chat.ask_of_free {text : Option String} {c : Chat} (htext : strip (text.getD c.draft) ≠ "")
    (hfree : c.pending = false) : c.ask text = some (text.getD c.draft,
      ⟨c.messages ++ [⟨.user, strip (text.getD c.draft)⟩], "", true⟩) := by
  have hblank : ¬(Chat.isBlankText (text.getD c.draft) || c.pending) = true := by
    rw [Bool.or_eq_true, Chat.isBlankText_iff, hfree]
    exact not_or.mpr ⟨htext, Bool.false_ne_true⟩
  unfold Chat.ask
  exact if_neg hblank

namespace Session

open Folder

variable {facts : Facts} {w w' : World} {c : Call} {wake : Wake}

/-! ## 1. Messages -/

/-- What the end of a question adds to the transcript. A fault that is no trouble of the backend and
    a cancellation add nothing. -/
def Fate.messages : Fate String → List Message
  | .landed (.ok answer) => [⟨.agent, answer⟩]
  | .landed (.error (.backend t)) => [⟨.agent, "Error: " ++ t.description⟩]
  | _ => []

theorem messages_landed (outcome : Except CallTrouble String) :
    Fate.messages (.landed outcome) = (Chat.closing outcome).toList := by
  obtain (t | f) | answer := outcome <;> rfl

/-- A message that cannot be sent now is refused, and nothing else happens. -/
theorem beginSend_refused (text : Option String)
    (h : facts.closed = true ∨ strip (text.getD w.chat.draft) = "" ∨ w.chat.pending = true) :
    beginSend facts text w = w.done [] (some false) := by
  unfold beginSend
  by_cases hclosed : facts.closed = true
  · rw [if_pos hclosed]
  · have hask : w.chat.ask text = none := by
      rw [Chat.ask_eq_none_iff, Chat.isBlankText_iff]
      exact h.resolve_left hclosed
    rw [if_neg hclosed, hask]

/-- The state in which a question has been taken up and sent through a client. -/
def World.asking (query : String) (client : Client) (w : World) : World :=
  { w with
    chat := ⟨w.chat.messages ++ [⟨.user, strip query⟩], "", true⟩
    client := client }

/-- **Any other message is taken up**, and goes on as its request does. -/
theorem beginSend_eq (text : Option String) (hopen : facts.closed = false)
    (htext : strip (text.getD w.chat.draft) ≠ "") (hfree : w.chat.pending = false) :
    beginSend facts text w =
      let query := text.getD w.chat.draft
      let sent := w.client.send (.query query)
      match sent.2 with
      | .refused f => endSend (.error (.fault f)) (w.asking query sent.1)
      | .answered _ r => endSend r.answer (w.asking query sent.1)
      | .outstanding n => (w.asking query sent.1).await [] (.sending ⟨n, none⟩) := by
  unfold beginSend
  rw [if_neg (by simp [hopen]), Chat.ask_of_free htext hfree]
  dsimp only
  generalize w.client.send (.query (text.getD w.chat.draft)) = sent
  obtain ⟨client, sending⟩ := sent
  cases sending <;> rfl

/-- A message that is refused ends no question. -/
theorem sendFate?_refused (text : Option String)
    (h : facts.closed = true ∨ strip (text.getD w.chat.draft) = "" ∨ w.chat.pending = true) :
    sendFate? facts (.send text) .go w = none := by
  show (if facts.closed then none else _) = none
  by_cases hclosed : facts.closed = true
  · rw [if_pos hclosed]
  · have hask : w.chat.ask text = none := by
      rw [Chat.ask_eq_none_iff, Chat.isBlankText_iff]
      exact h.resolve_left hclosed
    rw [if_neg hclosed, hask]

/-- Any other message ends its question at once if its request does. -/
theorem sendFate?_eq (text : Option String) (hopen : facts.closed = false)
    (htext : strip (text.getD w.chat.draft) ≠ "") (hfree : w.chat.pending = false) :
    sendFate? facts (.send text) .go w =
      fateOf Reply.answer (w.client.send (.query (text.getD w.chat.draft))).2 := by
  show (if facts.closed then none else _) = _
  rw [if_neg (by simp [hopen]), Chat.ask_of_free htext hfree]

/-- The query that a run of a call takes up: the call is to send one, and does not refuse it. -/
def takes? (c : Call) (wake : Wake) (w : World) (r : Run) : Option String :=
  match wake, c with
  | .go, .send text => if isRefusal r.next then none else some (text.getD w.chat.draft)
  | _, _ => none

/-- What a run of a call does to the chat, by the query that it takes up and how a question ends in
    it. -/
inductive ChatRun (c : Call) (w : World) (r : Run) :
    Option String → Option (Fate String) → Prop where
  | quiet (hchat : r.state.chat = w.chat)
    (hnext : (r.next.continuation?.bind Call.sending?).isSome = c.sending?.isSome) :
    ChatRun c w r none none
  | asked (query : String) (hc : c.sending? = none) (hquery : strip query ≠ "")
    (hfree : w.chat.pending = false)
    (hchat : r.state.chat = ⟨w.chat.messages ++ [⟨.user, strip query⟩], "", true⟩)
    (hnext : (r.next.continuation?.bind Call.sending?).isSome = true) :
    ChatRun c w r (some query) none
  | answered (query : String) (f : Fate String) (hc : c.sending? = none) (hquery : strip query ≠ "")
    (hfree : w.chat.pending = false)
    (hchat : r.state.chat = ⟨w.chat.messages ++ [⟨.user, strip query⟩] ++ f.messages, "", false⟩)
    (hnext : r.next.continuation? = none) : ChatRun c w r (some query) (some f)
  | ended (f : Fate String) (hc : c.sending?.isSome = true)
    (hchat : r.state.chat = ⟨w.chat.messages ++ f.messages, w.chat.draft, false⟩)
    (hnext : r.next.continuation? = none) : ChatRun c w r none (some f)

theorem chat_endSend (outcome : Except CallTrouble String) (w : World) :
    (endSend outcome w).state.chat =
        ⟨w.chat.messages ++ Fate.messages (.landed outcome), w.chat.draft, false⟩ ∧
      (endSend outcome w).next.continuation? = none ∧
      isRefusal (endSend outcome w).next = false ∧
      (endSend outcome w).state.client = w.client := by
  rw [messages_landed]
  unfold endSend
  dsimp only
  split <;> exact ⟨rfl, rfl, rfl, rfl⟩

theorem chatRun_beginSend (text : Option String) :
    ChatRun (.send text) w (beginSend facts text w)
      (takes? (.send text) .go w (beginSend facts text w))
      (sendFate? facts (.send text) .go w) := by
  by_cases h : facts.closed = true ∨ strip (text.getD w.chat.draft) = "" ∨ w.chat.pending = true
  · rw [beginSend_refused text h, sendFate?_refused text h]
    exact .quiet rfl rfl
  · simp only [not_or, Bool.not_eq_true] at h
    obtain ⟨hopen, htext, hfree⟩ := h
    rw [sendFate?_eq text hopen htext hfree, beginSend_eq text hopen htext hfree]
    dsimp only
    generalize w.client.send (.query (text.getD w.chat.draft)) = sent
    obtain ⟨client, sending⟩ := sent
    cases sending with
    | refused f =>
      obtain ⟨hchat, hnext, hno, _⟩ :=
        chat_endSend (.error (.fault f)) (w.asking (text.getD w.chat.draft) client)
      rw [takes?, if_neg (by simp [hno])]
      exact .answered _ _ rfl htext hfree hchat hnext
    | answered n r =>
      obtain ⟨hchat, hnext, hno, _⟩ :=
        chat_endSend r.answer (w.asking (text.getD w.chat.draft) client)
      rw [takes?, if_neg (by simp [hno])]
      exact .answered _ _ rfl htext hfree hchat hnext
    | outstanding n => exact .asked _ rfl htext hfree rfl rfl

theorem chat_of_kind {k : Kind} (hk : k ≠ .message) (h : Touches k w w') : w'.chat = w.chat := by
  cases h with
  | message chat client h => exact absurd rfl hk
  | _ => rfl

/-- **What every run of a call does to the chat.** -/
theorem chatRun_behaviour (facts : Facts) (c : Call) (wake : Wake)
    (hv : w.tabs.listeners = [viewer]) :
    ChatRun c w (behaviour facts c wake w) (takes? c wake w (behaviour facts c wake w))
      (sendFate? facts c wake w) := by
  by_cases hk : c.kind = .message
  · cases c with
    | send text =>
      cases wake with
      | cancelled => exact .quiet rfl rfl
      | go => exact chatRun_beginSend text
    | sending x =>
      cases wake with
      | cancelled =>
        have hnone : w.chat.messages ++ [] = w.chat.messages := List.append_nil _
        exact .ended .aborted rfl (by
          show w.chat.abandon = ⟨w.chat.messages ++ [], w.chat.draft, false⟩
          rw [hnone]
          rfl) rfl
      | go =>
        obtain ⟨n, _ | r⟩ := x
        · exact .quiet rfl rfl
        · obtain ⟨hchat, hnext, _, _⟩ := chat_endSend r.answer w
          exact .ended (.landed r.answer) rfl hchat hnext
    | _ => cases hk
  · have htakes : takes? c wake w (behaviour facts c wake w) = none := by
      cases c <;> cases wake <;> first | rfl | exact absurd rfl hk
    have hfate : sendFate? facts c wake w = none := by
      cases c <;> cases wake <;> first | rfl | exact absurd rfl hk
    have hnone : ∀ c' : Call, c'.kind = c.kind → c'.sending? = none := by
      intro c' hc'
      cases hs : c'.sending? with
      | none => rfl
      | some n => exact absurd (hc' ▸ kind_of_sending? hs) hk
    rw [htakes, hfate]
    refine .quiet (chat_of_kind hk (touches_behaviour c wake hv)) ?_
    rw [hnone c rfl]
    cases hn : (behaviour facts c wake w).next with
    | finish e => rfl
    | pause p c' =>
      have hc' := hnone c' (((tame_behaviour c wake hv).kind p c' hn).1)
      show c'.sending?.isSome = _
      rw [hc']

/-! ## 2. Questions and answers -/

/-- A question that was taken up: the call and its query. -/
structure Question where
  call : TaskId
  query : String

/-- The end of the question of a call. -/
structure Answer where
  call : TaskId
  fate : Fate String

/-- What stands in the transcript for a question: the question without the blanks at its ends, and
    what the ends of its call added. -/
def Question.entries (answers : List Answer) (q : Question) : List Message :=
  ⟨.user, strip q.query⟩ :: (answers.filter (·.call == q.call)).flatMap fun a => a.fate.messages

/-- The question that a move takes up. -/
def question? (s : Session) (m : Move) : Option Question :=
  match s.resumed? m with
  | some ⟨t, c, some wake⟩ =>
    (takes? c wake s.state (behaviour s.facts c wake s.state)).map fun query => ⟨t, query⟩
  | _ => none

/-- The question that a move ends. -/
def questionEnd? (s : Session) (m : Move) : Option Answer :=
  match s.resumed? m with
  | some ⟨t, c, some wake⟩ => (sendFate? s.facts c wake s.state).map fun fate => ⟨t, fate⟩
  | _ => none

section Entries

variable {asked : List Question} {ended : List Answer} {q : Question}

/-- A question of a call that had none before is another one. -/
theorem once_ask : ((asked ++ [q]).map Question.call).Nodup ↔
    q.call ∉ asked.map Question.call ∧ (asked.map Question.call).Nodup := by
  rw [List.map_append, List.map_singleton, ← List.concat_eq_append]
  exact List.nodup_concat _ _

theorem entries_of_notMem (h : q.call ∉ ended.map Answer.call) :
    q.entries ended = [⟨.user, strip q.query⟩] := by
  have hnone : ended.filter (·.call == q.call) = [] := by
    refine List.filter_eq_nil_iff.mpr fun a ha hcall => h ?_
    exact List.mem_map.mpr ⟨a, ha, beq_iff_eq.mp hcall⟩
  rw [Question.entries, hnone, List.flatMap_nil]

theorem entries_append (a : Answer) (q : Question) : q.entries (ended ++ [a]) =
    q.entries ended ++ if a.call = q.call then a.fate.messages else [] := by
  by_cases h : a.call = q.call
  · simp [Question.entries, h]
  · simp [Question.entries, h]

/-- A new question stands at the end of the transcript. -/
theorem transcript_ask (h : q.call ∉ ended.map Answer.call) :
    (asked ++ [q]).flatMap (Question.entries ended) =
      asked.flatMap (Question.entries ended) ++ [⟨.user, strip q.query⟩] := by
  rw [List.flatMap_append, List.flatMap_singleton, entries_of_notMem h]

/-- The answer to the last question stands at the end of the transcript. -/
theorem transcript_end (h : q.call ∉ asked.map Question.call) (f : Fate String) :
    (asked ++ [q]).flatMap (Question.entries (ended ++ [⟨q.call, f⟩])) =
      (asked ++ [q]).flatMap (Question.entries ended) ++ f.messages := by
  have hold : asked.flatMap (Question.entries (ended ++ [⟨q.call, f⟩])) =
      asked.flatMap (Question.entries ended) := by
    refine List.flatMap_congr fun p hp => ?_
    have hne : q.call ≠ p.call := fun e => h (e ▸ List.mem_map_of_mem hp)
    rw [entries_append, if_neg hne, List.append_nil]
  rw [List.flatMap_append, List.flatMap_append, hold, List.flatMap_singleton,
    List.flatMap_singleton, entries_append, if_pos rfl, List.append_assoc]

end Entries

/-! ## 3. The dialogue so far -/

/-- How the questions stand: all have ended, or all but the last one, which is under way. -/
inductive Standing (s : Session) : List Question → List Answer → Prop where
  | still {asked : List Question} {ended : List Answer} (hpending : s.state.chat.pending = false)
    (hsends : ∀ u, ¬s.Sends u) (hended : ended.map Answer.call = asked.map Question.call) :
    Standing s asked ended
  | underWay {rest : List Question} {ended : List Answer} (q : Question)
    (hpending : s.state.chat.pending = true) (hsends : ∀ u, s.Sends u ↔ u = q.call)
    (hended : ended.map Answer.call = rest.map Question.call) : Standing s (rest ++ [q]) ended

/-- The transcript against the questions taken up and their ends. A call that took up a question has
    it under way or is over. -/
structure Dialogue (greeting : List Message) (s : Session) (asked : List Question)
    (ended : List Answer) : Prop where
  messages : s.state.chat.messages = greeting ++ asked.flatMap (Question.entries ended)
  nonempty : ∀ q ∈ asked, strip q.query ≠ ""
  once : (asked.map Question.call).Nodup
  begun : ∀ q ∈ asked, q.call < s.tasks.length ∧
    ∀ c, s.continuation? q.call = some c → c.sending?.isSome = true
  standing : Standing s asked ended

section Dialogue

variable {s s' : Session} {m : Move} {t : TaskId} {greeting : List Message} {asked : List Question}
  {ended : List Answer}

/-- A step that changes neither the transcript nor what is under way. -/
theorem Dialogue.of_same (h : Dialogue greeting s asked ended)
    (hmessages : s'.state.chat.messages = s.state.chat.messages)
    (hpending : s'.state.chat.pending = s.state.chat.pending)
    (hsends : ∀ u, s'.Sends u ↔ s.Sends u)
    (hbegun : ∀ q ∈ asked, q.call < s'.tasks.length ∧
      ∀ c, s'.continuation? q.call = some c → c.sending?.isSome = true) :
    Dialogue greeting s' asked ended := by
  refine ⟨hmessages.trans h.messages, h.nonempty, h.once, hbegun, ?_⟩
  cases h.standing with
  | still hp hs he => exact .still (hpending.trans hp) (fun u hu => hs u ((hsends u).mp hu)) he
  | underWay q hp hs he =>
    exact .underWay q (hpending.trans hp) (fun u => (hsends u).trans (hs u)) he

theorem Dialogue.calm (h : Dialogue greeting s asked ended) (ht : Tidy s) (hc : Calm s m s') :
    Dialogue greeting s' asked ended := by
  refine h.of_same hc.messages hc.pending (fun u => ?_) fun q hq => ?_
  · exact Session.messages.holds_calm ht hc u
  · obtain ⟨hlt, hsending⟩ := h.begun q hq
    refine ⟨Nat.lt_of_lt_of_le hlt hc.length, fun c' hc' => ?_⟩
    rcases hc.continuation_before hc' with ⟨c, hcont, hrec⟩ | ⟨hnew, _⟩
    · have hold := hsending c hcont
      cases hrec with
      | nothing => exact hold
      | reply r => rw [steady_sending?.take]; exact hold
      | files selected => rw [steady_sending?.takeFiles]; exact hold
    · exact absurd hlt (hnew ▸ Nat.lt_irrefl _)

/-- A call that has not taken up a question has none in the dialogue. -/
theorem Dialogue.notMem (h : Dialogue greeting s asked ended) (hcont : s.continuation? t = some c)
    (hc : c.sending? = none) : t ∉ asked.map Question.call := by
  intro hmem
  obtain ⟨q, hq, rfl⟩ := List.mem_map.mp hmem
  have hsome := (h.begun q hq).2 c hcont
  rw [hc] at hsome
  cases hsome

theorem Dialogue.run (h : Dialogue greeting s asked ended) (ht : Tidy s)
    (hrun : s.resumption? = some ⟨t, c, some wake⟩) :
    Dialogue greeting (s.step .turn)
      (asked ++ ((takes? c wake s.state (behaviour s.facts c wake s.state)).map
        fun query => (⟨t, query⟩ : Question)).toList)
      (ended ++ ((sendFate? s.facts c wake s.state).map fun f => (⟨t, f⟩ : Answer)).toList) := by
  have hcont : s.continuation? t = some c := Loop.Resumption.continuation?_eq hrun
  have hlt : t < s.tasks.length := Loop.Resumption.lt hrun
  have hlength : s.tasks.length ≤ (s.step .turn).tasks.length := Loop.length_le_turned_of_run hrun
  have hstate := state_of_run hrun
  have hold : s.Sends t ↔ c.sending?.isSome = true := Session.messages.holds_iff hcont
  have hself : (s.step .turn).Sends t ↔
      ((behaviour s.facts c wake s.state).next.continuation?.bind Call.sending?).isSome = true :=
    Session.messages.holds_run_self hrun
  have hother : ∀ u, u ≠ t → ((s.step .turn).Sends u ↔ s.Sends u) := fun u hu =>
    Session.messages.holds_run_of_ne ht hrun hu
  -- of the calls with a question only the one that runs may move, and it stays with its question
  have hbegun : ((behaviour s.facts c wake s.state).next.continuation?.bind Call.sending?).isSome =
        true ∨ (behaviour s.facts c wake s.state).next.continuation? = none ∨
        t ∉ asked.map Question.call →
      ∀ q ∈ asked, q.call < (s.step .turn).tasks.length ∧
        ∀ c', (s.step .turn).continuation? q.call = some c' → c'.sending?.isSome = true := by
    intro hnext q hq
    obtain ⟨hq', hsending⟩ := h.begun q hq
    refine ⟨Nat.lt_of_lt_of_le hq' hlength, fun c' hc' => ?_⟩
    rcases continuation_before_run hrun hc' with ⟨heq, p, hn⟩ | ⟨_, hc'⟩ | ⟨hle, _⟩
    · rw [hn] at hnext
      rcases hnext with hnext | hnext | hnext
      · exact hnext
      · cases hnext
      · exact absurd (heq ▸ List.mem_map_of_mem hq) hnext
    · exact hsending c' hc'
    · exact absurd hq' (Nat.not_lt.mpr hle)
  have hchat := chatRun_behaviour s.facts c wake ht.listeners
  generalize takes? c wake s.state (behaviour s.facts c wake s.state) = taken at hchat
  generalize sendFate? s.facts c wake s.state = fate at hchat
  cases hchat with
  | quiet hchat hnext =>
    simp only [Option.map_none, Option.toList_none, List.append_nil]
    refine h.of_same (by rw [hstate, hchat]) (by rw [hstate, hchat]) (fun u => ?_) (hbegun ?_)
    · by_cases hu : u = t
      · rw [hu, hself, hold, hnext]
      · exact hother u hu
    · cases hc : c.sending? with
      | none => exact .inr (.inr (h.notMem hcont hc))
      | some n => exact .inl (by rw [hnext, hc]; rfl)
  | asked query hc hquery hfree hchat hnext =>
    have hnew := h.notMem hcont hc
    simp only [Option.map_some, Option.toList_some, Option.map_none, Option.toList_none,
      List.append_nil]
    cases h.standing with
    | underWay q hp hs he =>
      rw [hfree] at hp
      cases hp
    | still hp hs he =>
      have hlast : ∀ c', (s.step .turn).continuation? t = some c' → c'.sending?.isSome = true := by
        intro c' hc'
        rw [continuation?_of_run hrun] at hc'
        rw [hc'] at hnext
        exact hnext
      refine ⟨?_, ?_, once_ask.mpr ⟨hnew, h.once⟩, ?_,
        .underWay ⟨t, query⟩ (by rw [hstate, hchat]) (fun u => ?_) he⟩
      · rw [hstate, hchat, transcript_ask (q := ⟨t, query⟩) (he ▸ hnew), ← List.append_assoc,
          ← h.messages]
      · exact List.forall_mem_append.mpr ⟨h.nonempty, List.forall_mem_singleton.mpr hquery⟩
      · exact List.forall_mem_append.mpr ⟨hbegun (.inr (.inr hnew)),
          List.forall_mem_singleton.mpr ⟨Nat.lt_of_lt_of_le hlt hlength, hlast⟩⟩
      · by_cases hu : u = t
        · exact ⟨fun _ => hu, fun _ => hu ▸ hself.mpr hnext⟩
        · exact ⟨fun hsu => absurd ((hother u hu).mp hsu) (hs u), fun e => absurd e hu⟩
  | answered query f hc hquery hfree hchat hnext =>
    have hnew := h.notMem hcont hc
    simp only [Option.map_some, Option.toList_some]
    cases h.standing with
    | underWay q hp hs he =>
      rw [hfree] at hp
      cases hp
    | still hp hs he =>
      have hover : ∀ c', (s.step .turn).continuation? t = some c' → c'.sending?.isSome = true := by
        intro c' hc'
        rw [continuation?_of_run hrun, hnext] at hc'
        cases hc'
      refine ⟨?_, ?_, once_ask.mpr ⟨hnew, h.once⟩, ?_,
        .still (by rw [hstate, hchat]) (fun u => ?_) ?_⟩
      · rw [hstate, hchat, transcript_end (q := ⟨t, query⟩) hnew f,
          transcript_ask (q := ⟨t, query⟩) (he ▸ hnew), h.messages]
        simp only [List.append_assoc]
      · exact List.forall_mem_append.mpr ⟨h.nonempty, List.forall_mem_singleton.mpr hquery⟩
      · exact List.forall_mem_append.mpr ⟨hbegun (.inr (.inl hnext)),
          List.forall_mem_singleton.mpr ⟨Nat.lt_of_lt_of_le hlt hlength, hover⟩⟩
      · by_cases hu : u = t
        · rw [hu, hself, hnext]
          exact Bool.false_ne_true
        · exact fun hsu => hs u ((hother u hu).mp hsu)
      · rw [List.map_append, List.map_append, he]
        rfl
  | ended f hc hchat hnext =>
    simp only [Option.map_none, Option.toList_none, List.append_nil, Option.map_some,
      Option.toList_some]
    have hst := h.standing
    cases hst with
    | still hp hs he => exact absurd (hold.mpr hc) (hs t)
    | underWay q hp hs he =>
      rename_i rest
      obtain rfl : t = q.call := (hs t).mp (hold.mpr hc)
      have hnew : q.call ∉ rest.map Question.call := (once_ask.mp h.once).1
      refine ⟨?_, h.nonempty, h.once, hbegun (.inr (.inl hnext)),
        .still (by rw [hstate, hchat]) (fun u => ?_) ?_⟩
      · rw [hstate, hchat, transcript_end hnew f, h.messages, List.append_assoc]
      · by_cases hu : u = q.call
        · rw [hu, hself, hnext]
          exact Bool.false_ne_true
        · exact fun hsu => hu ((hs u).mp ((hother u hu).mp hsu))
      · rw [List.map_append, List.map_append, he]
        rfl

theorem question?_of_calm (h : Calm s m s') : s.question? m = none ∧ s.questionEnd? m = none := by
  unfold question? questionEnd?
  split
  · rename_i hr
    cases h.wake _ hr
  · exact ⟨rfl, rfl⟩

/-- **Every step keeps the transcript in line with the questions and their ends.** -/
theorem dialogue_step (h : Dialogue greeting s asked ended) (ht : Tidy s) (m : Move) :
    Dialogue greeting (s.step m) (asked ++ (s.question? m).toList)
      (ended ++ (s.questionEnd? m).toList) := by
  rcases calm_or_run ht.listeners m with hc | ⟨rfl, t, c, wake, hrun⟩
  · obtain ⟨hasked, hended⟩ := question?_of_calm hc
    simp only [hasked, hended, Option.toList_none, List.append_nil]
    exact h.calm ht hc
  · have hasked : s.question? .turn =
        (takes? c wake s.state (behaviour s.facts c wake s.state)).map fun query => ⟨t, query⟩ := by
      simp only [question?, resumed?, hrun]
    have hended : s.questionEnd? .turn =
        (sendFate? s.facts c wake s.state).map fun f => ⟨t, f⟩ := by
      simp only [questionEnd?, resumed?, hrun]
    rw [hasked, hended]
    exact h.run ht hrun

/-- **After every run the transcript is in line with the questions and their ends.** -/
theorem dialogue_play (client : Client) (delay : Binary64) (greeting : Option String)
    (files : FileSystem) (ms : List Move) :
    Dialogue (Chat.start greeting).messages ((opened client delay greeting files).play ms)
      (log question? (opened client delay greeting files) ms)
      (log questionEnd? (opened client delay greeting files) ms) := by
  induction ms using List.reverseRecOn with
  | nil =>
    refine ⟨(List.append_nil _).symm, fun q hq => (by cases hq), List.nodup_nil,
      fun q hq => (by cases hq), .still ?_ (fun u hu => ?_) rfl⟩
    · cases greeting <;> rfl
    · exact absurd (Guard.lt_of_holds (g := Session.messages) hu) (Nat.not_lt_zero u)
  | append_singleton ms m ih =>
    rw [play_append, log_append, log_append, log_cons, log_cons, log_nil, log_nil, List.append_nil,
      List.append_nil]
    exact dialogue_step ih (tidy_play client delay greeting files ms) m

/-- No step takes anything back from the transcript. -/
theorem messages_prefix_step (ht : Tidy s) (m : Move) :
    s.state.chat.messages <+: (s.step m).state.chat.messages := by
  rcases calm_or_run ht.listeners m with hc | ⟨rfl, t, c, wake, hrun⟩
  · exact ⟨[], by rw [List.append_nil, hc.messages]⟩
  · have hchat := chatRun_behaviour s.facts c wake ht.listeners
    rw [state_of_run hrun]
    generalize takes? c wake s.state (behaviour s.facts c wake s.state) = taken at hchat
    generalize sendFate? s.facts c wake s.state = fate at hchat
    cases hchat with
    | quiet hchat hnext => exact ⟨[], by rw [List.append_nil, hchat]⟩
    | asked query hc hquery hfree hchat hnext =>
      rw [hchat]
      exact List.prefix_append _ _
    | answered query f hc hquery hfree hchat hnext =>
      rw [hchat]
      exact (List.prefix_append _ _).trans (List.prefix_append _ _)
    | ended f hc hchat hnext =>
      rw [hchat]
      exact List.prefix_append _ _

theorem messages_prefix_play (ht : Tidy s) (ns : List Move) :
    s.state.chat.messages <+: (s.play ns).state.chat.messages := by
  refine (play_induction
    (P := fun z => Tidy z ∧ s.state.chat.messages <+: z.state.chat.messages)
    ⟨ht, List.prefix_rfl⟩ (fun z m hz => ?_) ns).2
  exact ⟨tidy_step hz.1 m, hz.2.trans (messages_prefix_step hz.1 m)⟩

end Dialogue

end Session

end CodeSession
