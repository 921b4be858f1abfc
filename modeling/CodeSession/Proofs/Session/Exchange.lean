import CodeSession.Proofs.Session.Dialogue
import CodeSession.Proofs.Session.Ingesting

/-!
# The exchange with the backend

What the backend is asked, and all that a run says about the messages.

* `client_behaviour` -- a run of a call does nothing with the client, sends the request that is its
  own, or closes it;
* `queries_behaviour` -- a run of a call asks the query that it takes up, as it is, and no other;
* `Asking`, `asking_play` -- what was sent is told by the questions taken up;
* `refused_iff`, `step_of_send` -- when a message is refused as its turn comes, and what it does;
* `exchange_of_run` -- the transcript, the pending flag, the draft and what was sent, for every run.
-/

namespace CodeSession

open Backend Text

/-! ## 1. What the client has sent -/

/-- The query that a request asks. -/
def Backend.Request.query? : Request → Option String
  | .query text => some text
  | _ => none

namespace Backend.Client

/-- The queries that the client has sent, in order. -/
def queries (c : Client) : List String :=
  c.sent.filterMap Request.query?

theorem base_send (r : Request) (c : Client) : (c.send r).1.base = c.base := by
  unfold send
  split
  · rfl
  · split
    · rfl
    · dsimp only
      split <;> rfl

/-- A query that is sent by an open client to an address is noted as it is. -/
theorem queries_send_query {text : String} {c : Client} (hopen : c.closed = false)
    (haddress : ∀ e, c.address (.query text) ≠ .error e) :
    (c.send (.query text)).1.queries = c.queries ++ [text] := by
  unfold send
  split
  · rename_i t ht
    exact absurd ht (haddress t)
  · rw [if_neg (by simp [hopen])]
    dsimp only
    split <;> simp [queries, prepare, Request.query?]

theorem queries_send_of_other {r : Request} (h : r.query? = none) (c : Client) :
    (c.send r).1.queries = c.queries := by
  unfold send
  split
  · rfl
  · split
    · rfl
    · dsimp only
      split <;> simp [queries, prepare, h]

end Backend.Client

namespace Session

open Folder

variable {facts : Facts} {w w' : World} {c : Call} {wake : Wake}

/-! ## 2. What the backend is asked -/

theorem client_landUpload {orders : List (Order Call)} (outcome : Except CallTrouble String) :
    (landUpload facts orders w outcome).state.client = w.client := by
  obtain (t | f) | message := outcome <;> rfl

/-- An upload sends its files at most. -/
theorem client_beginUpload (files : List SelectedFile) :
    (beginUpload facts files w).state.client = w.client ∨
      (beginUpload facts files w).state.client = (w.client.send (.upload files)).1 := by
  by_cases h : files = [] ∨ w.ingest.status.phase = .uploading
  · exact .inl (by rw [beginUpload_refused facts h]; rfl)
  · obtain ⟨hfiles, hfree⟩ := not_or.mp h
    refine .inr ?_
    rw [beginUpload_eq facts hfiles hfree]
    dsimp only
    generalize w.client.send (.upload files) = sent
    obtain ⟨client, sending⟩ := sent
    cases sending with
    | refused f => exact client_landUpload _
    | answered n r => exact client_landUpload _
    | outstanding n => rfl

/-- A message that is not refused is no refusal, and its query is sent. -/
theorem client_beginSend (facts : Facts) (w : World) (text : Option String)
    (h : ¬(facts.closed = true ∨ strip (text.getD w.chat.draft) = "" ∨ w.chat.pending = true)) :
    takes? (.send text) .go w (beginSend facts text w) = some (text.getD w.chat.draft) ∧
      isRefusal (beginSend facts text w).next = false ∧
      (beginSend facts text w).state.client =
        (w.client.send (.query (text.getD w.chat.draft))).1 ∧
      (beginSend facts text w).state.chat.draft = "" := by
  simp only [not_or, Bool.not_eq_true] at h
  obtain ⟨hopen, htext, hfree⟩ := h
  have htaken : isRefusal (beginSend facts text w).next = false ∧
      (beginSend facts text w).state.client =
        (w.client.send (.query (text.getD w.chat.draft))).1 ∧
      (beginSend facts text w).state.chat.draft = "" := by
    rw [beginSend_eq text hopen htext hfree]
    dsimp only
    generalize w.client.send (.query (text.getD w.chat.draft)) = sent
    obtain ⟨client, sending⟩ := sent
    cases sending with
    | refused f =>
      obtain ⟨hchat, _, hno, hsame⟩ :=
        chat_endSend (.error (.fault f)) (w.asking (text.getD w.chat.draft) client)
      exact ⟨hno, hsame, congrArg Chat.draft hchat⟩
    | answered n r =>
      obtain ⟨hchat, _, hno, hsame⟩ :=
        chat_endSend r.answer (w.asking (text.getD w.chat.draft) client)
      exact ⟨hno, hsame, congrArg Chat.draft hchat⟩
    | outstanding n => exact ⟨rfl, rfl, rfl⟩
  refine ⟨?_, htaken⟩
  rw [takes?, if_neg (by simp [htaken.1])]

/-- The request that a call sends as it takes something up. -/
def Call.request (w : World) : Call → Option Request
  | .send text => some (.query (text.getD w.chat.draft))
  | .fetch _ => some .records
  | .upload files | .reading _ _ (some (.ok files)) => some (.upload files)
  | _ => none

/-- **What runs of calls do with the client**: nothing, they send the request that is theirs, or they
    close it. -/
theorem client_behaviour (facts : Facts) (wake : Wake) (hv : w.tabs.listeners = [viewer]) :
    (behaviour facts c wake w).state.client = w.client ∨
    (∃ r, c.request w = some r ∧
      (behaviour facts c wake w).state.client = (w.client.send r).1) ∨
    (behaviour facts c wake w).state.client = w.client.close := by
  cases wake with
  | cancelled => cases c <;> exact .inl rfl
  | go =>
    cases c with
    | send text =>
      have hrun : behaviour facts (.send text) .go w = beginSend facts text w := rfl
      rw [hrun]
      by_cases h : facts.closed = true ∨ strip (text.getD w.chat.draft) = "" ∨
          w.chat.pending = true
      · exact .inl (by rw [beginSend_refused text h]; rfl)
      · exact .inr (.inl ⟨_, rfl, (client_beginSend facts w text h).2.2.1⟩)
    | sending x =>
      obtain ⟨n, _ | r⟩ := x
      · exact .inl rfl
      · exact .inl (chat_endSend r.answer w).2.2.2
    | upload files =>
      have hrun : behaviour facts (.upload files) .go w =
        if facts.closed then w.done [] (some false) else beginUpload facts files w := rfl
      rw [hrun]
      split
      · exact .inl rfl
      · exact (client_beginUpload files).imp_right fun h => .inl ⟨_, rfl, h⟩
    | uploading x =>
      obtain ⟨n, _ | r⟩ := x
      · exact .inl rfl
      · exact .inl (client_endUpload r.answer)
    | choose path =>
      have hrun : behaviour facts (.choose path) .go w = beginChoose facts path w := rfl
      rw [hrun]
      unfold beginChoose
      split <;> exact .inl rfl
    | reading path held read =>
      obtain _ | t | files := read
      · exact .inl rfl
      · exact .inl rfl
      · have hrun : behaviour facts (.reading path held (some (.ok files))) .go w =
            beginUpload facts files { w with ingest := w.ingest.select files } := rfl
        rw [hrun]
        exact (client_beginUpload (w := { w with ingest := w.ingest.select files }) files).imp_right
          fun h => .inl ⟨_, rfl, h⟩
    | fetch number =>
      refine .inr (.inl ⟨_, rfl, ?_⟩)
      have hrun : behaviour facts (.fetch number) .go w = beginFetch number w := rfl
      rw [hrun]
      unfold beginFetch endFetch
      generalize w.client.send .records = sent
      dsimp only
      repeat' split
      all_goals rfl
    | fetching number x =>
      obtain ⟨n, _ | r⟩ := x
      · exact .inl rfl
      · have hrun : behaviour facts (.fetching number ⟨n, some r⟩) .go w =
            endFetch number r.records w := rfl
        rw [hrun]
        unfold endFetch
        dsimp only
        split <;> exact .inl rfl
    | navigating =>
      have hrun : behaviour facts .navigating .go w = navigateNow facts w := rfl
      rw [hrun, navigateNow_eq hv]
      exact .inl rfl
    | close =>
      have hrun : behaviour facts .close .go w = beginClose facts w := rfl
      rw [hrun]
      unfold beginClose
      split
      · exact .inl rfl
      · dsimp only
        split
        · exact .inr (.inr rfl)
        · exact .inl rfl
    | closing => exact .inr (.inr rfl)
    | _ => exact .inl rfl

/-- Runs of calls that are no messages ask nothing. -/
theorem queries_of_kind (facts : Facts) (wake : Wake) (hv : w.tabs.listeners = [viewer])
    (hk : c.kind ≠ .message) :
    (behaviour facts c wake w).state.client.base = w.client.base ∧
      (behaviour facts c wake w).state.client.queries = w.client.queries := by
  rcases client_behaviour facts wake hv with h | ⟨r, hr, h⟩ | h
  · rw [h]
    exact ⟨rfl, rfl⟩
  · have hquery : r.query? = none := by
      unfold Call.request at hr
      split at hr <;> first | cases hr; rfl | exact absurd rfl hk | cases hr
    rw [h]
    exact ⟨Client.base_send r _, Client.queries_send_of_other hquery _⟩
  · rw [h]
    exact ⟨rfl, rfl⟩

/-- **A run of a call asks the query that it takes up, as it is**, and nothing else, as long as the
    client is open to an address. -/
theorem queries_behaviour (facts : Facts) (wake : Wake) (hv : w.tabs.listeners = [viewer])
    (hclient : w.client.closed = true → facts.closed = true)
    (haddress : ∀ text e, w.client.address (.query text) ≠ .error e) :
    (behaviour facts c wake w).state.client.base = w.client.base ∧
      (behaviour facts c wake w).state.client.queries =
        w.client.queries ++ (takes? c wake w (behaviour facts c wake w)).toList := by
  by_cases hk : c.kind = .message
  · cases c with
    | send text =>
      cases wake with
      | cancelled => exact ⟨rfl, (List.append_nil _).symm⟩
      | go =>
        have hrun : behaviour facts (.send text) .go w = beginSend facts text w := rfl
        rw [hrun]
        by_cases h : facts.closed = true ∨ strip (text.getD w.chat.draft) = "" ∨
            w.chat.pending = true
        · rw [beginSend_refused text h]
          exact ⟨rfl, (List.append_nil _).symm⟩
        · have hopen : w.client.closed = false := by
            rw [← Bool.not_eq_true]
            exact fun hclosed => h (.inl (hclient hclosed))
          obtain ⟨htaken, _, hsent, _⟩ := client_beginSend facts w text h
          rw [htaken, hsent]
          exact ⟨Client.base_send _ _, Client.queries_send_query hopen (haddress _)⟩
    | sending x =>
      have hsame : (behaviour facts (.sending x) wake w).state.client = w.client := by
        cases wake with
        | cancelled => rfl
        | go =>
          obtain ⟨n, _ | r⟩ := x
          · rfl
          · exact (chat_endSend r.answer w).2.2.2
      have hno : takes? (.sending x) wake w (behaviour facts (.sending x) wake w) = none := by
        cases wake <;> rfl
      rw [hsame, hno]
      exact ⟨rfl, (List.append_nil _).symm⟩
    | _ => cases hk
  · have htakes : takes? c wake w (behaviour facts c wake w) = none := by
      cases c <;> cases wake <;> first | rfl | exact absurd rfl hk
    rw [htakes, Option.toList_none, List.append_nil]
    exact queries_of_kind facts wake hv hk

/-- A run of a call closes the client only as it closes the session, or in a closed one. -/
theorem closed_client_behaviour (facts : Facts) (wake : Wake) (hv : w.tabs.listeners = [viewer])
    (h : (behaviour facts c wake w).state.client.closed = true) :
    w.client.closed = true ∨ facts.closed = true ∨
      .seal ∈ (behaviour facts c wake w).orders ∨ c = .closing := by
  by_cases hk : c.kind = .closing
  · cases c with
    | close =>
      cases wake with
      | cancelled => exact .inl h
      | go =>
        cases hclosed : facts.closed with
        | true => exact .inr (.inl rfl)
        | false => exact .inr (.inr (.inl (seal_mem_beginClose w hclosed)))
    | closing => exact .inr (.inr (.inr rfl))
    | _ => cases hk
  · refine .inl ?_
    have htouch : Touches c.kind w (behaviour facts c wake w).state := touches_behaviour c wake hv
    generalize behaviour facts c wake w = r at h htouch
    generalize c.kind = k at hk htouch
    generalize r.state = w' at h htouch
    cases htouch with
    | message chat client hsame => exact hsame ▸ h
    | upload ingest client hsame => exact hsame ▸ h
    | fetch inspection client hsame => exact hsame ▸ h
    | closing client => exact absurd rfl hk
    | _ => exact h

/-- What the client has sent against the questions taken up. -/
structure Asking (client : Client) (s : Session) (asked : List Question) : Prop where
  base : s.state.client.base = client.base
  closed : s.state.client.closed = true → s.closed = true
  queries : s.state.client.queries = client.queries ++ asked.map Question.query

section Asking

variable {s : Session} {m : Move} {client : Client} {asked : List Question}

/-- The user neither sends a request nor moves the client to another address. -/
theorem Move.client_onState (hv : w.tabs.listeners = [viewer]) (m : Move) (closed : Bool) :
    (m.onState closed w).client.base = w.client.base ∧
      (m.onState closed w).client.sent = w.client.sent := by
  cases m with
  | switch target =>
    show (switchTab closed target w).1.client.base = _ ∧
      (switchTab closed target w).1.client.sent = _
    cases closed with
    | true => exact ⟨rfl, rfl⟩
    | false =>
      cases ht : (Choice.ofValue? target : Option Tab) with
      | none => rw [switchTab_unknown ht]; exact ⟨rfl, rfl⟩
      | some tab =>
        by_cases htab : tab = .inspect
        · rw [switchTab_inspect hv (htab ▸ ht)]
          exact ⟨rfl, rfl⟩
        · rw [switchTab_other hv ht htab]
          exact ⟨rfl, rfl⟩
  | _ => exact ⟨rfl, rfl⟩

theorem asking_step (h : Asking client s asked) (ht : Tidy s)
    (haddress : ∀ text e, client.address (.query text) ≠ .error e) (m : Move) :
    Asking client (s.step m) (asked ++ (s.question? m).toList) := by
  rcases calm_or_run ht.listeners m with hc | ⟨rfl, t, c, wake, hrun⟩
  · obtain ⟨hbase, hsent⟩ := m.client_onState ht.listeners s.closed
    rw [← hc.state] at hbase hsent
    have hqueries : (s.step m).state.client.queries = s.state.client.queries := by
      rw [Client.queries, hsent, Client.queries]
    rw [(question?_of_calm hc).1, Option.toList_none, List.append_nil]
    refine ⟨hbase.trans h.base, fun hclosed => ?_, hqueries.trans h.queries⟩
    rw [hc.closed]
    exact h.closed (hc.client ▸ hclosed)
  · have haddress' : ∀ text e, s.state.client.address (.query text) ≠ .error e := by
      intro text e
      rw [Client.address, h.base]
      exact haddress text e
    have hasked : (s.question? .turn).toList.map Question.query =
        (takes? c wake s.state (behaviour s.facts c wake s.state)).toList := by
      simp only [question?, resumed?, hrun]
      cases takes? c wake s.state (behaviour s.facts c wake s.state) <;> rfl
    obtain ⟨hbase, hqueries⟩ :=
      queries_behaviour (c := c) s.facts wake ht.listeners h.closed haddress'
    rw [← state_of_run hrun] at hbase hqueries
    refine ⟨hbase.trans h.base, fun hclosed => ?_, ?_⟩
    · rw [state_of_run hrun] at hclosed
      rw [closed_of_run hrun]
      rcases closed_client_behaviour s.facts wake ht.listeners hclosed with hc | hc | hc | rfl
      · exact .inl (h.closed hc)
      · exact .inl hc
      · exact .inr hc
      · exact .inl (ht.closing t (Loop.Resumption.continuation?_eq hrun))
    · rw [hqueries, h.queries, List.map_append, hasked, List.append_assoc]

theorem asking_play (delay : Binary64) (greeting : Option String) (files : FileSystem)
    (hopen : client.closed = false)
    (haddress : ∀ text e, client.address (.query text) ≠ .error e) (ms : List Move) :
    Asking client ((opened client delay greeting files).play ms)
      (log question? (opened client delay greeting files) ms) := by
  refine (play_log_induction (P := fun s asked => Tidy s ∧ Asking client s asked)
    ⟨tidy_opened client delay greeting files, rfl, fun hclosed => ?_, (List.append_nil _).symm⟩
    (fun s asked m hs => ?_) ms).2
  · have hclosed' : client.closed = true := hclosed
    rw [hopen] at hclosed'
    cases hclosed'
  · exact ⟨tidy_step hs.1 m, asking_step hs.2 hs.1 haddress m⟩

end Asking

/-! ## 3. The exchange -/

section Exchange

variable {s : Session} {t : TaskId} {text : Option String}

/-- **When a message is refused**, as its turn comes. -/
theorem refused_iff (h : s.resumption? = some ⟨t, .send text, some .go⟩) :
    (s.step .turn).stage? t = some (.ended (.returned (some false))) ↔
      s.closed = true ∨ strip (text.getD s.state.chat.draft) = "" ∨
        s.state.chat.pending = true := by
  have hrun : behaviour s.facts (.send text) .go s.state = beginSend s.facts text s.state := rfl
  rw [step_turn, Loop.stage?_turned_self h, hrun]
  constructor
  · intro hended
    by_contra hno
    have hnext := Loop.next_of_after_eq_ended (Option.some.inj hended)
    have hrefusal := (client_beginSend s.facts s.state text hno).2.1
    rw [hnext] at hrefusal
    cases hrefusal
  · intro hrefused
    rw [beginSend_refused text hrefused]
    rfl

/-- What a refused message leaves, and what one that is taken up does. -/
theorem step_of_send (h : s.resumption? = some ⟨t, .send text, some .go⟩) :
    let refused := (s.step .turn).stage? t = some (.ended (.returned (some false)))
    (refused → s.question? .turn = none ∧ (s.step .turn).state = s.state) ∧
    (¬refused → s.question? .turn = some ⟨t, text.getD s.state.chat.draft⟩ ∧
      (s.step .turn).state.chat.draft = "" ∧
      (s.step .turn).state.client =
        (s.state.client.send (.query (text.getD s.state.chat.draft))).1) := by
  intro refused
  have hrun : behaviour s.facts (.send text) .go s.state = beginSend s.facts text s.state := rfl
  have hasked : s.question? .turn =
      (takes? (.send text) .go s.state (beginSend s.facts text s.state)).map fun query =>
        ⟨t, query⟩ := by
    simp only [question?, resumed?, h, hrun]
  refine ⟨fun hrefused => ?_, fun hno => ?_⟩
  · rw [hasked, state_of_run h, hrun, beginSend_refused text ((refused_iff h).mp hrefused)]
    exact ⟨rfl, rfl⟩
  · obtain ⟨htaken, _, hsent, hdraft⟩ :=
      client_beginSend s.facts s.state text fun hrefused => hno ((refused_iff h).mpr hrefused)
    rw [hasked, state_of_run h, hrun, htaken]
    exact ⟨rfl, hdraft, hsent⟩

end Exchange

/-- **The exchange of a run.** The transcript is the greeting and then, in order, the questions
    taken up without the blanks at their ends, none of them empty, each with what its own end added
    right behind it: the answer, or `Error: ` and the trouble of the backend. It only grows at its
    end. A question is pending exactly while a message is under way, which is then the only one, and
    the last question alone has yet to end. The backend was asked the queries as they are, once for
    each question. When its turn comes a message is refused if the session is closed, its query is
    blank or a question is pending, and then nothing changes; else its query is taken up and sent,
    and the draft is emptied. -/
theorem exchange_of_run (client : Client) (delay : Binary64) (greeting : Option String)
    (files : FileSystem) (ms : List Move) :
    let start := opened client delay greeting files
    let s := start.play ms
    let asked := log question? start ms
    let ended := log questionEnd? start ms
    s.state.chat.messages =
      (Chat.start greeting).messages ++ asked.flatMap (Question.entries ended) ∧
    (∀ q ∈ asked, strip q.query ≠ "") ∧
    (asked.map Question.call).Nodup ∧
    ended.map Answer.call <+: asked.map Question.call ∧
    asked.length = ended.length + (if s.state.chat.pending then 1 else 0) ∧
    (∀ ns, s.state.chat.messages <+: (s.play ns).state.chat.messages) ∧
    (s.state.chat.pending = true ↔ ∃ t, s.Sends t) ∧
    (∀ t u, s.Sends t → s.Sends u → t = u) ∧
    (client.closed = false ∧ (client.address (.query "")).isOk = true →
      s.state.client.queries = client.queries ++ asked.map Question.query) ∧
    ∀ t text, s.resumption? = some ⟨t, .send text, some .go⟩ →
      let query := text.getD s.state.chat.draft
      let refused := (s.step .turn).stage? t = some (.ended (.returned (some false)))
      (refused ↔ s.closed = true ∨ strip query = "" ∨ s.state.chat.pending = true) ∧
      (refused → s.question? .turn = none ∧ (s.step .turn).state = s.state) ∧
      (¬refused → s.question? .turn = some ⟨t, query⟩ ∧ (s.step .turn).state.chat.draft = "" ∧
        (s.step .turn).state.client = (s.state.client.send (.query query)).1) ∧
      (text = none ∧ s.closed = false → (¬refused ↔ s.state.chat.canSend = true)) := by
  intro start s asked ended
  have ht : Tidy s := tidy_play client delay greeting files ms
  have hd : Dialogue (Chat.start greeting).messages s asked ended :=
    dialogue_play client delay greeting files ms
  have hb : Guarded Session.messages s (log Session.messages.end? start ms) :=
    guarded_play Session.messages client delay greeting files ms
  have hcount : ended.map Answer.call <+: asked.map Question.call ∧
      asked.length = ended.length + (if s.state.chat.pending then 1 else 0) := by
    have hstanding := hd.standing
    generalize asked = qs at hstanding
    generalize ended = answers at hstanding
    cases hstanding with
    | still hp hs he =>
      have hlength := congrArg List.length he
      rw [List.length_map, List.length_map] at hlength
      rw [he, hp, hlength]
      exact ⟨List.prefix_rfl, rfl⟩
    | underWay q hp hs he =>
      have hlength := congrArg List.length he
      rw [List.length_map, List.length_map] at hlength
      rw [he, hp, hlength, List.map_append, List.length_append]
      exact ⟨List.prefix_append _ _, rfl⟩
  have hpending : s.state.chat.pending = true ↔ ∃ t, s.Sends t := by
    rw [show s.state.chat.pending = true ↔ ∃! t, s.Sends t from
      pending_iff_sends client delay greeting files ms]
    exact ⟨fun ⟨t, hs, _⟩ => ⟨t, hs⟩, fun ⟨t, hs⟩ => ⟨t, hs, fun u hu => hb.unique u t hu hs⟩⟩
  refine ⟨hd.messages, hd.nonempty, hd.once, hcount.1, hcount.2, messages_prefix_play ht, hpending,
    hb.unique, fun ⟨hopen, haddress⟩ => ?_, fun t text h => ?_⟩
  · have haddress' : ∀ text e, client.address (.query text) ≠ .error e := by
      intro text e he
      have hsame : client.address (.query "") = .error e := he
      rw [hsame] at haddress
      cases haddress
    exact (asking_play delay greeting files hopen haddress' ms).queries
  · intro query refused
    have hrefused : refused ↔ s.closed = true ∨ strip query = "" ∨ s.state.chat.pending = true :=
      refused_iff h
    obtain ⟨hleft, htaken⟩ := step_of_send h
    refine ⟨hrefused, hleft, htaken, ?_⟩
    rintro ⟨rfl, hopen⟩
    have hblank : Chat.isBlankText s.state.chat.draft = true ↔ strip s.state.chat.draft = "" :=
      Chat.isBlankText_iff
    rw [hrefused, hopen]
    show ¬(false = true ∨ strip s.state.chat.draft = "" ∨ s.state.chat.pending = true) ↔ _
    rw [← hblank]
    cases hdraft : Chat.isBlankText s.state.chat.draft <;> cases hp : s.state.chat.pending <;>
      simp [Chat.canSend, hdraft, hp]

/-- A session with a draft that is about to be sent, and another message behind it. -/
def twoMessages : List Move :=
  [.write " hi ", .launch (.send none), .launch (.send (some "and?"))]

/-- The draft is sent as it stands, and stands in the transcript without its blanks. -/
theorem exchange_of_twoMessages :
    (sample.play twoMessages).question? .turn = some ⟨0, " hi "⟩ ∧
    ((sample.play twoMessages).step .turn).state.chat.draft = "" ∧
    (sample.play (twoMessages ++ [.turn, .turn])).state.client.queries = [" hi "] := by
  have hopen : (sample.play twoMessages).closed = false := by decide +kernel
  have hsend : (sample.play twoMessages).state.chat.canSend = true := by decide +kernel
  have hqueries : (log question? sample (twoMessages ++ [.turn, .turn])).map Question.query =
      [" hi "] := by decide +kernel
  obtain ⟨_, _, _, _, _, _, _, _, _, hcall⟩ := exchange_of_run _ _ _ _ twoMessages
  obtain ⟨_, _, htaken, hdraft⟩ := hcall 0 none rfl
  obtain ⟨_, _, _, _, _, _, _, _, hasked, _⟩ :=
    exchange_of_run _ _ _ _ (twoMessages ++ [.turn, .turn])
  have hno := (hdraft ⟨rfl, hopen⟩).mpr hsend
  exact ⟨(htaken hno).1, (htaken hno).2.1, (hasked ⟨rfl, by decide +kernel⟩).trans hqueries⟩

end Session

end CodeSession
