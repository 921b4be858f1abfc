import CodeSession.Proofs.Session.Outside

/-!
# The parts of a session do not interfere

Two runs in which the same happens to one part of a session leave that part the same, whatever
happens to the others, and in whatever order it is interleaved with them. Only whether the inspection
is loading can differ, once the session is closed: it tells if the close met the latest fetch under
way.

* `loading_of_same_inputs` -- when two runs agree in whether the inspection is loading;
* `parts_of_same_events` -- the chat, the inspection and the ingestion of two runs;
* `talkFirst`, `uploadFirst` -- two runs of the same requests in another order;
* `loading_of_closedOnShow` -- two runs that are closed after the same activation, and differ.
-/

namespace CodeSession.Session

open Backend Folder

/-- **Two runs that are the same from outside agree in whether the inspection is loading** just if
    the latest fetch was cut off under way in both or in neither, as in open sessions it never is. -/
theorem loading_of_same_inputs (client client' : Client) (delay : Binary64)
    (greeting : Option String) (files files' : FileSystem) (ms ms' : List Move) :
    let start := opened client delay greeting files
    let start' := opened client' delay greeting files'
    let s := start.play ms
    let s' := start'.play ms'
    log inspectionInput? start ms = log inspectionInput? start' ms' →
    s.state.inspection.issued = s'.state.inspection.issued →
      (s.state.inspection.loading = s'.state.inspection.loading ↔
        (s.CutOff (log fetchEnd? start ms) ↔ s'.CutOff (log fetchEnd? start' ms'))) ∧
      (s.closed = false → s'.closed = false →
        s.state.inspection.loading = s'.state.inspection.loading) := by
  intro start start' s s' hinputs hissued
  have hl := loading_iff_inputs client delay greeting files ms
  have hl' := loading_iff_inputs client' delay greeting files' ms'
  have hcut := of_cutOff client delay greeting files ms
  have hcut' := of_cutOff client' delay greeting files' ms'
  dsimp only at hl hl' hcut hcut'
  -- the two runs agree in all but whether the latest fetch was cut off
  rw [← hinputs, ← hissued] at hl' hcut'
  have hiff : s.state.inspection.loading = s'.state.inspection.loading ↔
      (s.CutOff (log fetchEnd? start ms) ↔ s'.CutOff (log fetchEnd? start' ms')) := by
    rw [Bool.eq_iff_iff, hl, hl']
    constructor
    · intro h
      constructor
      · intro hc
        by_contra hno
        exact (h.mpr ⟨(hcut hc).1, (hcut hc).2.1, hno⟩).2.2 hc
      · intro hc
        by_contra hno
        exact (h.mp ⟨(hcut' hc).1, (hcut' hc).2.1, hno⟩).2.2 hc
    · intro h
      rw [h]
  refine ⟨hiff, fun hopen hopen' => hiff.mpr ⟨fun h => ?_, fun h => ?_⟩⟩
  · exact absurd ((hcut h).2.2.symm.trans hopen) Bool.noConfusion
  · exact absurd ((hcut' h).2.2.symm.trans hopen') Bool.noConfusion

/-- **The chat, the inspection and the ingestion do not interfere**, but for the flag of an
    inspection that is closed. Take two runs of sessions that are set up alike; their backends,
    folders and moves may be any. As the beginnings of a run are runs, what is said of their ends
    holds after every pair of beginnings with the same events.

    If the same happens to the chat -- drafts, messages that are sent, what their requests end in,
    the close -- then the messages, the draft and whether a question is pending agree.

    If the same happens to the inspection -- it is shown in an open session, fetches bring their
    outcomes, the one with the same number the same, and the session is closed -- then the records
    and the error agree. Whether it is loading agrees as well in open sessions, and in closed ones
    just if the latest fetch was cut off under way in both or in neither.

    If the same happens to the ingestion -- files are given by the user or read in a folder, uploads
    end, the banner is dismissed, the clock brings the return to the chat, the session is closed --
    then the status and the selection agree.

    The return to the chat need not be told where the events come at the same times and the clock
    neither runs ahead of it nor stands elsewhere at the end; only at that very time the clock has to
    tell, at the close and at the end, whether the return has come or is due. -/
theorem parts_of_same_events (client client' : Client) (delay : Binary64)
    (greeting : Option String) (files files' : FileSystem) (ms ms' : List Move) :
    let start := opened client delay greeting files
    let start' := opened client' delay greeting files'
    let s := start.play ms
    let s' := start'.play ms'
    (log chatEvent? start ms = log chatEvent? start' ms' → s.state.chat = s'.state.chat) ∧
    (log inspectionInput? start ms = log inspectionInput? start' ms' →
      s.state.inspection.snapshot = s'.state.inspection.snapshot ∧
      s.state.inspection.error = s'.state.inspection.error ∧
      (s.state.inspection.loading = s'.state.inspection.loading ↔
        (s.CutOff (log fetchEnd? start ms) ↔ s'.CutOff (log fetchEnd? start' ms'))) ∧
      (s.closed = false → s.state.inspection.loading = s'.state.inspection.loading)) ∧
    (log ingestInput? start ms = log ingestInput? start' ms' →
      s.state.ingest.status = s'.state.ingest.status ∧
      s.state.ingest.selection = s'.state.ingest.selection) ∧
    (Prompt start ms → Prompt start' ms' →
      log timedIngest? start ms = log timedIngest? start' ms' →
      s.now = s'.now → s.isDue = s'.isDue →
      s.state.ingest.status = s'.state.ingest.status ∧
      s.state.ingest.selection = s'.state.ingest.selection) := by
  intro start start' s s'
  refine ⟨fun hevents => ?_, fun hinputs => ?_, fun hinputs => ?_,
    fun hprompt hprompt' hevents hnow hdue => ?_⟩
  · have hchat : (s.state.chat, s.closed) =
        (log chatEvent? start ms).foldl ChatEvent.after (Chat.start greeting, false) :=
      chat_play client delay greeting files ms
    have hchat' : (s'.state.chat, s'.closed) =
        (log chatEvent? start' ms').foldl ChatEvent.after (Chat.start greeting, false) :=
      chat_play client' delay greeting files' ms'
    rw [hevents, ← hchat'] at hchat
    exact congrArg Prod.fst hchat
  · have hsettled : s.state.inspection.settled = s'.state.inspection.settled := by
      rw [settled_of_inputs client delay greeting files ms,
        settled_of_inputs client' delay greeting files' ms', hinputs]
    have hclosed : s.closed = s'.closed := by
      rw [closed_of_inputs client delay greeting files ms,
        closed_of_inputs client' delay greeting files' ms', hinputs]
    simp only [Inspection.settled, Inspection.mk.injEq, true_and] at hsettled
    obtain ⟨hsnapshot, herror, hissued⟩ := hsettled
    obtain ⟨hiff, hopen⟩ := loading_of_same_inputs client client' delay greeting files files' ms ms'
      hinputs hissued
    exact ⟨hsnapshot, herror, hiff, fun h => hopen h (hclosed ▸ h)⟩
  · have hingest : s.ingestion = s'.ingestion := by
      rw [ingestion_play client delay greeting files ms,
        ingestion_play client' delay greeting files' ms', hinputs]
    exact ⟨congrArg Reckoning.status hingest, congrArg Reckoning.selection hingest⟩
  · obtain ⟨hstatus, hselection⟩ := ingest_play client delay greeting files hprompt
    obtain ⟨hstatus', hselection'⟩ := ingest_play client' delay greeting files' hprompt'
    constructor
    · rw [hstatus, hstatus']
      show Reckoning.statusAt _ _ (List.foldl _ _ (log timedIngest? start ms)) = _
      rw [hevents]
      show Reckoning.statusAt s.now s.isDue _ = Reckoning.statusAt s'.now s'.isDue _
      rw [hnow, hdue]
    · rw [hselection, hselection']
      show Reckoning.selection (List.foldl _ _ (log timedIngest? start ms)) = _
      rw [hevents]

/-- The files of a small project. -/
def project : List SelectedFile :=
  [⟨"project/a.txt", [97], "text/plain"⟩]

/-- A question is asked and answered; then files are uploaded. -/
def talkFirst : List Move :=
  [.write "hi", .launch (.send none), .turn, .answer 0 (.common 200 [121] none), .turn,
    .launch (.upload project), .turn, .answer 1 (.common 200 [111, 107] none), .turn, .turn]

/-- The files are uploaded first, and the user looks at the records. -/
def uploadFirst : List Move :=
  [.launch (.upload project), .turn, .answer 0 (.common 200 [111, 107] none), .turn, .turn,
    .switch (.string "inspect"), .turn, .write "hi"]

/-- Three ticks pass, and the return to the chat comes. -/
def comeBack : List Move :=
  .wait 3 :: List.replicate 4 .turn

/-- Three ticks pass, and the question is asked before the return to the chat comes. -/
def comeBackAsking : List Move :=
  .wait 3 :: [.launch (.send none), .turn, .turn, .turn, .turn,
    .answer 3 (.common 200 [121] none), .turn, .turn]

/-- The user looks at the records; there are none to be had. -/
def look : List Move :=
  [.switch (.string "inspect"), .turn, .answer 0 (.broken "gone"), .turn]

/-- The same with an upload before it, and a return to the chat under way. -/
def lookAmidst : List Move :=
  [.launch (.upload project), .turn, .answer 0 (.common 200 [111, 107] none), .turn, .turn,
    .switch (.string "inspect"), .turn, .turn, .answer 2 (.broken "gone"), .turn, .turn]

/-- A run that waits for the return to the chat of `brief` is prompt. -/
theorem prompt_of_brief {t : TaskId} {before after : List Move}
    (hs : (brief.play before).stage? t = some (.waiting .navigating (.timer (some 3) 0)))
    (hnow : (brief.play before).now = 0) (hbefore : ∀ ticks, .wait ticks ∉ before)
    (hafter : ∀ ticks, .wait ticks ∉ after) : Prompt brief (before ++ .wait 3 :: after) := by
  refine prompt_of_sleeping (accounted_play _ _ _ _ before).1 hs (fun time e => ?_) hbefore hafter
  cases e
  exact Nat.le_of_eq (congrArg (· + 3) hnow)

/-- The chat and the ingestion come to the same in either order, and so does the inspection. -/
theorem parts_of_talkFirst :
    let s := brief.play (talkFirst ++ comeBack)
    let s' := brief.play (uploadFirst ++ comeBackAsking)
    let i := (brief.play look).state.inspection
    let i' := (brief.play lookAmidst).state.inspection
    (s.state.chat = s'.state.chat ∧ s.state.ingest.status = s'.state.ingest.status ∧
      s.state.ingest.selection = s'.state.ingest.selection) ∧
    i.snapshot = i'.snapshot ∧ i.error = i'.error ∧ i.loading = i'.loading := by
  have hprompt : Prompt brief (talkFirst ++ comeBack) :=
    prompt_of_brief (t := 2) rfl (by decide +kernel) (by simp [talkFirst]) (by simp)
  have hprompt' : Prompt brief (uploadFirst ++ comeBackAsking) :=
    prompt_of_brief (t := 1) rfl (by decide +kernel) (by simp [uploadFirst]) (by simp)
  have hlook : log inspectionInput? brief look = log inspectionInput? brief lookAmidst := rfl
  obtain ⟨hchat, _, _, hingest⟩ := parts_of_same_events _ _ _ _ _ _
    (talkFirst ++ comeBack) (uploadFirst ++ comeBackAsking)
  obtain ⟨_, hinspection, _⟩ := parts_of_same_events _ _ _ _ _ _ look lookAmidst
  obtain ⟨hsnapshot, herror, _, hloading⟩ := hinspection hlook
  exact ⟨⟨hchat (by decide +kernel), hingest hprompt hprompt' (by decide +kernel)
    (by decide +kernel) (by decide +kernel)⟩, hsnapshot, herror, hloading (by decide +kernel)⟩

/-- A session that is closed once the fetch of the inspection has begun. -/
def closedAmidst : List Move :=
  [.switch (.string "inspect"), .turn, .launch .close, .turn, .turn, .turn, .turn, .turn]

/-- **The flag of an inspection can differ in sessions that are closed after the same activation**:
    the close that comes before the first step of the fetch leaves it loading for good. -/
theorem loading_of_closedOnShow :
    log inspectionInput? sample closedOnShow = [.shown, .closed] ∧
      log inspectionInput? sample closedAmidst = [.shown, .closed] ∧
      closeReturns sample closedOnShow = [0] ∧ closeReturns sample closedAmidst = [1] ∧
      (sample.play closedOnShow).state.inspection.loading = true ∧
      (sample.play closedAmidst).state.inspection.loading = false :=
  ⟨rfl, rfl, by decide +kernel, by decide +kernel, by decide +kernel, by decide +kernel⟩

end CodeSession.Session
