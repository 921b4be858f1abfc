import CodeSession.Proofs.Session.Punctual
import CodeSession.Proofs.Session.Replay

/-!
# The ingestion, told by its events and the clock

The return to the chat dismisses the banner of a success, and it belongs to no event of the
ingestion. Where the clock does not run ahead of it, the times of the events tell when it comes.

* `IngestEvent`, `TimedIngest` -- what happens to the ingestion, and when;
* `Reckoning` -- what the events make of the ingestion: `due` is the time of the return to the chat
  after the last success, `statusAt` the status once it has come;
* `Stands` -- the return is under way and comes when it is due, or it has come or been called off;
* `reckoned_step`, `ingest_play` -- the ingestion of a run is told by its events and their times.
-/

namespace CodeSession

/-- A status once its banner is dismissed. -/
def IngestStatus.dismissed (s : IngestStatus) : IngestStatus :=
  match s.phase with
  | .succeeded | .failed => .idle
  | _ => s

@[simp] theorem IngestStatus.phase_dismissed_eq_uploading_iff {s : IngestStatus} :
    s.dismissed.phase = .uploading ↔ s.phase = .uploading := by
  obtain ⟨phase, message⟩ := s
  cases phase <;> simp [dismissed, idle]

@[simp] theorem Ingest.status_acknowledge (i : Ingest) :
    i.acknowledge.status = i.status.dismissed := by
  obtain ⟨⟨phase, message⟩, selection, navigation⟩ := i
  cases phase <;> rfl

namespace Session

open Backend Folder

variable {s s' : Session} {m : Move} {t : TaskId} {c : Call} {wake : Wake} {w : World}
  {facts : Facts} {files : List SelectedFile} {ends : List (Fate String)} {delay : Option Nat}

/-! ## 1. Events -/

/-- Whether a call reads a folder. -/
def Call.isReading : Call → Bool
  | .reading _ _ _ => true
  | _ => false

/-- Whether the return to the chat that is noted is due now: it is under way, and it is called at
    this time or was before. -/
def isDue (s : Session) : Bool :=
  match s.state.ingest.navigation.bind s.stage? with
  | some (.queued .navigate false false) => Loop.ticksOf s.state.delay == some 0
  | some (.waiting .navigating (.timer due _)) => due == some s.now
  | some (.queued .navigating true false) => true
  | _ => false

/-- What happens to the ingestion: the user dismisses the banner; files are given, by the user or as
    they were read in a folder, and their upload may end at once; the upload under way ends; the
    session is closed. A close at the very time of the return to the chat tells which comes first. -/
inductive IngestEvent where
  | dismissed
  | given (files : List SelectedFile) (isRead : Bool) (fate : Option (Fate String))
  | ended (fate : Fate String)
  | closed (isDue : Bool)
  deriving DecidableEq

/-- An event of the ingestion and its time. -/
structure TimedIngest where
  now : Nat
  event : IngestEvent
  deriving DecidableEq

/-- What a run of a call does to the ingestion. Files that a call was given count when it goes on
    with them. -/
def ingestEventOf (facts : Facts) (c : Call) (wake : Wake) (w : World) : Option IngestEvent :=
  match wake, c.files? with
  | .go, some files => some (.given files c.isReading (uploadFate? facts c .go w))
  | wake, _ => (uploadFate? facts c wake w).map .ended

/-- What a move does to the ingestion. -/
def ingestEvent? (s : Session) (m : Move) : Option IngestEvent :=
  match m with
  | .acknowledge => some .dismissed
  | m =>
    if s.closes m then some (.closed s.isDue)
    else match s.resumed? m with
      | some ⟨_, c, some wake⟩ => ingestEventOf s.facts c wake s.state
      | _ => none

/-- What a move does to the ingestion, and when. -/
def timedIngest? (s : Session) (m : Move) : Option TimedIngest :=
  (s.ingestEvent? m).map (TimedIngest.mk s.now)

/-! ## 2. The reckoning -/

/-- What the events make of the ingestion: the status that was assigned last, as if no return to the
    chat had come since, the selection, when the return to the chat is due that the last success
    schedules, and whether the session is closed. -/
structure Reckoning where
  status : IngestStatus
  selection : List SelectedFile
  due : Option Nat
  closed : Bool

namespace Reckoning

/-- The ingestion at the start. -/
def start : Reckoning := ⟨.idle, [], none, false⟩

/-- The status at a time: the return to the chat has dismissed the banner once its time has passed,
    or has come and it is not due any more. -/
def statusAt (now : Nat) (isDue : Bool) (r : Reckoning) : IngestStatus :=
  if r.due.any fun time => decide (time < now) || time == now && !isDue then r.status.dismissed
  else r.status

/-- An upload begins. -/
def begin (r : Reckoning) : Reckoning :=
  { r with status := .uploading, due := none }

/-- An upload ends. -/
def finish (delay : Option Nat) (now : Nat) (f : Fate String) (r : Reckoning) : Reckoning :=
  match f.status? with
  | none => { r with selection := [] }
  | some status =>
    { r with
      status := status
      selection := []
      due := if f.isSuccess && !r.closed then delay.map (now + ·) else none }

/-- Whether files that are given are refused: the user gives them after the close, there are none,
    or an upload is running. -/
def refuses (files : List SelectedFile) (isRead : Bool) (r : Reckoning) : Bool :=
  !isRead && r.closed || files.isEmpty || r.status.phase == .uploading

/-- Files that were read are selected. -/
def select (files : List SelectedFile) (isRead : Bool) (r : Reckoning) : Reckoning :=
  { r with selection := if isRead then files else r.selection }

/-- Files are given: unless they are refused, they are uploaded. -/
def given (delay : Option Nat) (now : Nat) (files : List SelectedFile) (isRead : Bool)
    (fate : Option (Fate String)) (r : Reckoning) : Reckoning :=
  let chosen := r.select files isRead
  if r.refuses files isRead then chosen
  else fate.elim chosen.begin fun f => chosen.begin.finish delay now f

/-- The reckoning after an event. -/
def after (delay : Option Nat) (r : Reckoning) (e : TimedIngest) : Reckoning :=
  match e.event with
  | .dismissed => { r with status := r.status.dismissed }
  | .given files isRead fate => r.given delay e.now files isRead fate
  | .ended fate => r.finish delay e.now fate
  | .closed isDue => { r with status := r.statusAt e.now isDue, due := none, closed := true }

@[simp] theorem closed_finish (now : Nat) (f : Fate String) (r : Reckoning) :
    (r.finish delay now f).closed = r.closed := by
  unfold finish
  split <;> rfl

@[simp] theorem selection_finish (now : Nat) (f : Fate String) (r : Reckoning) :
    (r.finish delay now f).selection = [] := by
  unfold finish
  split <;> rfl

theorem status_finish (now : Nat) (f : Fate String) (r : Reckoning) :
    (r.finish delay now f).status = f.status?.getD r.status := by
  unfold finish
  split
  all_goals rename_i h
  all_goals rw [h]
  all_goals rfl

/-- The return to the chat is due after a success, and after no other end. -/
theorem due_finish {f : Fate String} {r : Reckoning} (h : f.status? = none → r.due = none)
    (now : Nat) : (r.finish delay now f).due =
      if f.isSuccess && !r.closed then delay.map (now + ·) else none := by
  unfold finish
  split
  · rename_i hf
    rw [Fate.isSuccess_eq_false hf]
    exact h hf
  · rfl

end Reckoning

/-! ## 3. Calls that were given files -/

theorem selection_landUpload {orders : List (Order Call)} (outcome : Except CallTrouble String) :
    (landUpload facts orders w outcome).state.ingest.selection = [] := by
  obtain (t | f) | message := outcome <;> rfl

/-- What becomes of files that are given in an open session. -/
theorem beginUpload_given (facts : Facts) (files : List SelectedFile) (w : World) :
    (isRefusal (beginUpload facts files w).next = true ↔
      files = [] ∨ w.ingest.status.phase = .uploading) ∧
    (isRefusal (beginUpload facts files w).next = true → issueFate? files w = none) ∧
    (beginUpload facts files w).state.ingest.selection =
      if (issueFate? files w).isSome then [] else w.ingest.selection := by
  by_cases h : files = [] ∨ w.ingest.status.phase = .uploading
  · rw [beginUpload_refused facts h, issueFate?_refused h]
    exact ⟨⟨fun _ => h, fun _ => rfl⟩, fun _ => rfl, rfl⟩
  · -- they are taken up
    suffices htaken : isRefusal (beginUpload facts files w).next = false ∧
        (beginUpload facts files w).state.ingest.selection =
          if (issueFate? files w).isSome then [] else w.ingest.selection by
      rw [htaken.1]
      exact ⟨⟨fun e => (by cases e), fun e => absurd e h⟩, fun e => (by cases e), htaken.2⟩
    obtain ⟨hfiles, hfree⟩ := not_or.mp h
    rw [issueFate?_eq hfiles hfree, beginUpload_eq facts hfiles hfree]
    dsimp only
    generalize w.client.send (.upload files) = sent
    obtain ⟨client, sending⟩ := sent
    cases sending with
    | refused f => exact ⟨isRefusal_landUpload _, selection_landUpload _⟩
    | answered n r => exact ⟨isRefusal_landUpload _, selection_landUpload _⟩
    | outstanding n => exact ⟨rfl, Ingest.selection_prepare w.ingest⟩

/-- **What becomes of files that are given.** -/
theorem behaviour_given (facts : Facts) (w : World) (hfiles : c.files? = some files) :
    (isRefusal (behaviour facts c .go w).next = true ↔ c.isReading = false ∧ facts.closed = true ∨
      files = [] ∨ w.ingest.status.phase = .uploading) ∧
    (isRefusal (behaviour facts c .go w).next = true → uploadFate? facts c .go w = none) ∧
    (behaviour facts c .go w).state.ingest.selection =
      if (uploadFate? facts c .go w).isSome then []
      else if c.isReading then files else w.ingest.selection := by
  cases c with
  | upload given =>
    cases hfiles
    have hrun : behaviour facts (.upload files) .go w =
      if facts.closed then w.done [] (some false) else beginUpload facts files w := rfl
    have hfate : uploadFate? facts (.upload files) .go w =
      if facts.closed then none else issueFate? files w := rfl
    rw [hrun, hfate]
    cases hclosed : facts.closed with
    | true => exact ⟨⟨fun _ => .inl ⟨rfl, rfl⟩, fun _ => rfl⟩, fun _ => rfl, rfl⟩
    | false =>
      obtain ⟨hrefusal, hrest⟩ := beginUpload_given facts files w
      exact ⟨hrefusal.trans (or_iff_right fun h => by cases h.2).symm, hrest⟩
  | reading path held read =>
    obtain _ | t | read := read
    · cases hfiles
    · cases hfiles
    · cases hfiles
      obtain ⟨hrefusal, hrest⟩ :=
        beginUpload_given facts files { w with ingest := w.ingest.select files }
      exact ⟨hrefusal.trans (or_iff_right fun h => by cases h.1).symm, hrest⟩
  | _ => cases hfiles

/-- The selection after a run of another call: it is dropped as an upload ends. -/
theorem selection_of_not_given (facts : Facts) (hv : w.tabs.listeners = [viewer])
    (hc : wake = .go → c.files? = none) :
    (behaviour facts c wake w).state.ingest.selection =
      if (uploadFate? facts c wake w).isSome then [] else w.ingest.selection := by
  by_cases hk : c.kind = .upload
  · cases wake with
    | cancelled => cases c <;> rfl
    | go =>
      cases c with
      | upload files => cases hc rfl
      | uploading x =>
        obtain ⟨n, _ | r⟩ := x
        · rfl
        · exact selection_endUpload r.answer
      | choose path =>
        show (beginChoose facts path w).state.ingest.selection = w.ingest.selection
        unfold beginChoose
        split <;> rfl
      | reading path held read =>
        obtain _ | t | files := read
        · rfl
        · rfl
        · cases hc rfl
      | _ => cases hk
  · have hfate : uploadFate? facts c wake w = none := by
      cases c <;> cases wake <;> first | rfl | exact absurd rfl hk
    rw [hfate]
    show _ = w.ingest.selection
    by_cases hhome : c.kind = .navigation
    · cases c with
      | navigate => cases wake <;> rfl
      | navigating =>
        cases wake with
        | cancelled => rfl
        | go =>
          show (navigateNow facts w).state.ingest.selection = _
          rw [navigateNow_eq hv]
          exact Ingest.selection_prepare w.ingest
      | _ => cases hhome
    · exact congrArg Ingest.selection (ingest_of_kind hk hhome (touches_behaviour c wake hv))

/-! ## 4. The return to the chat against the reckoning -/

/-- How the return to the chat stands to a reckoning: it is under way, and will come when it is due;
    or none is under way, since it has come, was called off or was never scheduled. -/
inductive Stands (delay : Option Nat) (s : Session) (r : Reckoning) : Prop where
  | awaited (t : TaskId) (start : Nat) (h : Journey t start delay True s)
    (hdue : r.due = delay.map (start + ·)) (hstatus : s.state.ingest.status = r.status)
  | past (hnone : ∀ t, ¬s.Returns t) (hdue : ∀ time, r.due = some time → time ≤ s.now)
    (hstatus : s.state.ingest.status = if r.due.isSome then r.status.dismissed else r.status)

theorem returns_of_isDue (h : s.isDue = true) : ∃ t, s.Returns t := by
  unfold isDue at h
  split at h
  all_goals rename_i hs
  · obtain ⟨t, _, hs⟩ := Option.bind_eq_some_iff.mp hs
    exact ⟨t, returns_of_stage hs rfl rfl fun _ _ e => by cases e⟩
  · obtain ⟨t, _, hs⟩ := Option.bind_eq_some_iff.mp hs
    exact ⟨t, returns_of_stage hs rfl rfl fun _ _ e => by cases e⟩
  · obtain ⟨t, _, hs⟩ := Option.bind_eq_some_iff.mp hs
    exact ⟨t, returns_of_stage hs rfl rfl fun _ _ e => by cases e⟩
  · cases h

/-- With a prompt clock the return that is under way is due at its time. -/
theorem Journey.isDue_eq {start : Nat} (h : Journey t start delay True s)
    (hnavigation : s.state.ingest.navigation = some t)
    (hdelay : Loop.ticksOf s.state.delay = delay) :
    s.isDue = (delay.map (start + ·) == some s.now) := by
  unfold isDue
  rw [hnavigation, Option.bind_some]
  cases h with
  | settingOut hs hle hprompt =>
    rw [hs, hdelay, hprompt trivial]
    cases delay with
    | none => rfl
    | some ticks => simp
  | sleeping since rank hs hle hprompt =>
    obtain ⟨rfl, _⟩ := hprompt trivial
    rw [hs]
  | called ticks hs hticks hle hprompt =>
    rw [hs, hticks, hprompt trivial]
    simp

/-- **The status is told by the reckoning at any time.** -/
theorem Stands.status_eq {r : Reckoning} (h : Stands delay s r) (hn : Noted s)
    (hdelay : Loop.ticksOf s.state.delay = delay) :
    s.state.ingest.status = r.statusAt s.now s.isDue := by
  unfold Reckoning.statusAt
  cases h with
  | awaited t start hj hdue hstatus =>
    rw [hj.isDue_eq (hn.noted t hj.returns) hdelay, hdue, hstatus]
    cases hd : delay with
    | none => rfl
    | some ticks =>
      have hle := hj.now_le trivial hd
      rw [if_neg (by simp; omega)]
  | past hnone hdue hstatus =>
    have hidle : s.isDue = false := Bool.not_eq_true _ ▸ fun h => by
      obtain ⟨t, ht⟩ := returns_of_isDue h
      exact hnone t ht
    rw [hidle, hstatus]
    cases hd : r.due with
    | none => rfl
    | some time =>
      have hle := hdue time hd
      have hcome : (decide (time < s.now) || time == s.now && !false) = true := by simp; omega
      exact (if_pos rfl).trans (if_pos hcome).symm

theorem Stands.uploading_iff {r : Reckoning} (h : Stands delay s r) :
    s.state.ingest.status.phase = .uploading ↔ r.status.phase = .uploading := by
  cases h with
  | awaited t start hj hdue hstatus => rw [hstatus]
  | past hnone hdue hstatus =>
    rw [hstatus]
    split
    · exact IngestStatus.phase_dismissed_eq_uploading_iff
    · exact Iff.rfl

section Stands

variable {r r' : Reckoning} (ht : Tidy s) (hb : Guarded uploads s ends) (h : Stands delay s r)

include ht hb h

/-- A move that neither ends the return to the chat nor schedules one leaves it where it stands.
    What it does to the status commutes with a dismissal. -/
theorem Stands.keep (r' : Reckoning) (hclock : Loop.Clocked s)
    (hdelay : Loop.ticksOf s.state.delay = delay)
    (hwait : ∀ ticks, m = .wait ticks → s.MayWait ticks) (hup : s.upload? m = none)
    (hscheduled : (s.scheduled? m).isSome = false) (hback : s.backToChat? m = none)
    (hclosed : (s.step m).closed = s.closed) (g : IngestStatus → IngestStatus)
    (hg : ∀ status, (g status).dismissed = g status.dismissed)
    (hstatus : (s.step m).state.ingest.status = g s.state.ingest.status)
    (hdue : r'.due = r.due) (hr : r'.status = g r.status) : Stands delay (s.step m) r' := by
  cases h with
  | awaited t start hj hdue' hstatus' =>
    have hopen : (s.step m).closed = false := by
      rw [hclosed, ← Bool.not_eq_true]
      exact fun hc => not_returns_of_closed ht hc t hj.returns
    have hpasses := passes_of_returns ht hb hj.returns m hup hopen
    have hback' : s.backToChat? m ≠ some t := by rw [hback]; exact fun e => by cases e
    refine .awaited t start (hj.step hclock hdelay hpasses hback' fun _ => hwait)
      (hdue.trans hdue') ?_
    rw [hstatus, hstatus', hr]
  | past hnone hdue' hstatus' =>
    refine .past (fun t hr => ?_) (fun time htime => ?_) ?_
    · rcases returns_before ht hb hr with hold | hnew
      · exact hnone t hold
      · rw [hnew] at hscheduled
        cases hscheduled
    · exact Nat.le_trans (hdue' time (hdue ▸ htime)) (now_le_step s m)
    · rw [hstatus, hstatus', hdue, hr]
      split
      · exact (hg _).symm
      · rfl

/-- A return to the chat that is carried out has come at its time. -/
theorem Stands.home (hn : Noted s) (hback : s.backToChat? m = some t) :
    Stands delay (s.step m) r := by
  have hreturns := returns_of_backToChat? ht hback
  obtain ⟨hstate, hover⟩ := step_of_backToChat? ht hback
  obtain ⟨rfl, hrun, _⟩ := run_of_backToChat? ht hback
  have hnone : ∀ u, ¬(s.step .turn).Returns u := by
    intro u hu
    have hold : s.Returns u := (returns_before ht hb hu).resolve_right fun hnew => by
      rw [scheduled?_of_run hrun] at hnew
      cases hnew
    obtain rfl := hn.unique hold hreturns
    exact hu.not_over hover
  cases h with
  | awaited u start hj hdue hstatus =>
    obtain rfl := hn.unique hreturns hj.returns
    obtain ⟨ticks, rfl, _, hnow⟩ := hj.due ht hback
    refine .past hnone (fun time htime => ?_) ?_
    · rw [hdue] at htime
      cases htime
      exact Nat.le_trans (Nat.le_of_eq (hnow trivial).symm) (now_le_step s .turn)
    · rw [hstate, hdue]
      show s.state.ingest.acknowledge.status = r.status.dismissed
      rw [Ingest.status_acknowledge, hstatus]
  | past hnone' hdue hstatus => exact absurd hreturns (hnone' t)

omit h in
/-- Where no earlier return is left, the one that the move schedules is awaited, if it does. -/
theorem Stands.fresh (hold : ∀ t, (s.step m).Returns t → ¬s.Returns t)
    (hstatus : (s.step m).state.ingest.status = r'.status)
    (hdue : r'.due = if (s.scheduled? m).isSome then delay.map (s.now + ·) else none) :
    Stands delay (s.step m) r' := by
  cases hscheduled : s.scheduled? m with
  | none =>
    rw [hscheduled] at hdue
    have hnone : r'.due = none := hdue
    refine .past (fun t hr => ?_) (fun time htime => ?_) (by rw [hnone]; exact hstatus)
    · rcases returns_before ht hb hr with ho | hnew
      · exact hold t hr ho
      · rw [hscheduled] at hnew
        cases hnew
    · rw [hnone] at htime
      cases htime
  | some t =>
    rw [hscheduled] at hdue
    obtain ⟨rfl, _, _, _, hs⟩ := stage?_of_scheduled? ht hb hscheduled
    have hnow : (s.step .turn).now = s.now := Loop.now_turned behaviour s
    exact .awaited t s.now (.settingOut hs (Nat.le_of_eq hnow.symm) fun _ => hnow) hdue hstatus

end Stands

/-! ## 5. Steps -/

/-- How a session stands to a reckoning. -/
structure Reckoned (delay : Option Nat) (s : Session) (r : Reckoning) : Prop where
  closed : s.closed = r.closed
  selection : s.state.ingest.selection = r.selection
  stands : Stands delay s r

theorem closed_of_not_closes (ht : Tidy s) (h : s.closes m = false) :
    (s.step m).closed = s.closed := by
  rw [closed_step_eq ht, h, Bool.or_false]

theorem closed_of_closes (ht : Tidy s) (h : s.closes m = true) : (s.step m).closed = true := by
  rw [closed_step_eq ht, h, Bool.or_true]

/-- A step that runs no call leaves the ingestion as it is, unless the user dismisses the banner. -/
theorem ingest_of_calm (h : Calm s m s') (hack : m ≠ .acknowledge) :
    s'.state.ingest = s.state.ingest := by
  rw [h.ingest]
  cases m <;> first | rfl | exact absurd rfl hack

/-- The step that closes the session leaves the ingestion as it is. -/
theorem ingest_of_closes (ht : Tidy s) (hrun : s.resumption? = some ⟨t, c, some wake⟩)
    (h : s.closes .turn = true) : (s.step .turn).state.ingest = s.state.ingest := by
  obtain ⟨rfl, _⟩ := (ht.tame c wake).seals ((closes_of_run ht hrun).mp h)
  rw [state_of_run hrun]
  exact ingest_of_kind (k := .closing) (fun e => by cases e) (fun e => by cases e)
    (touches_behaviour .close wake ht.listeners)

theorem backToChat?_of_calm (h : Calm s m s') : s.backToChat? m = none := by
  unfold backToChat?
  split
  · rename_i hr
    cases h.wake _ hr
  · rfl

theorem backToChat?_of_navigating (hrun : s.resumption? = some ⟨t, .navigating, some .go⟩) :
    s.backToChat? .turn = some t := by
  simp only [backToChat?, resumed?, hrun]

/-- No other run of a call is that of the return to the chat. -/
theorem backToChat?_of_run (hrun : s.resumption? = some ⟨t, c, some wake⟩)
    (h : wake = .go → c ≠ .navigating) : s.backToChat? .turn = none := by
  simp only [backToChat?, resumed?, hrun]
  split
  · rename_i e
    cases e
    exact absurd rfl (h rfl)
  · rfl

theorem Call.ne_navigating_of_files (h : c.files? = some files) : c ≠ .navigating := by
  intro e
  subst e
  cases h

/-- A step that runs no call does nothing to the ingestion, unless the user dismisses the banner. -/
theorem ingestEvent?_of_calm (h : Calm s m s') (hack : m ≠ .acknowledge) :
    s.ingestEvent? m = none := by
  have hcloses := closes_of_calm h
  have hwake := h.wake
  unfold ingestEvent?
  split
  · exact absurd rfl hack
  · rw [hcloses]
    split
    · rename_i e
      cases e
    · split
      · rename_i hr
        cases hwake _ hr
      · rfl

theorem ingestEvent?_of_run (hrun : s.resumption? = some ⟨t, c, some wake⟩) :
    s.ingestEvent? .turn = if s.closes .turn then some (.closed s.isDue)
      else ingestEventOf s.facts c wake s.state := by
  simp only [ingestEvent?, resumed?, hrun]

theorem ingestEvent?_of_files (hrun : s.resumption? = some ⟨t, c, some .go⟩)
    (hcloses : s.closes .turn = false) (hfiles : c.files? = some files) :
    s.ingestEvent? .turn =
      some (.given files c.isReading (uploadFate? s.facts c .go s.state)) := by
  rw [ingestEvent?_of_run hrun, hcloses, if_neg Bool.false_ne_true]
  simp only [ingestEventOf, hfiles]

theorem ingestEvent?_of_no_files (hrun : s.resumption? = some ⟨t, c, some wake⟩)
    (hcloses : s.closes .turn = false) (hfiles : wake = .go → c.files? = none) :
    s.ingestEvent? .turn = (uploadFate? s.facts c wake s.state).map .ended := by
  rw [ingestEvent?_of_run hrun, hcloses, if_neg Bool.false_ne_true]
  cases wake with
  | go => simp only [ingestEventOf, hfiles rfl]
  | cancelled => rfl

theorem isSome_scheduled?_of_run (hrun : s.resumption? = some ⟨t, c, some wake⟩) :
    (s.scheduled? .turn).isSome =
      ((uploadFate? s.facts c wake s.state).any Fate.isSuccess && !s.closed) := by
  rw [scheduled?_of_run hrun]
  split
  · rename_i h
    exact h.symm
  · rename_i h
    exact (Bool.eq_false_iff.mpr h).symm

section Reckoned

variable {r : Reckoning} (ht : Tidy s) (hb : Guarded uploads s ends) (hclock : Loop.Clocked s)
  (hdelay : Loop.ticksOf s.state.delay = delay) (h : Reckoned delay s r)

include ht hb hclock hdelay h

/-- A step that runs no call: the user may dismiss the banner. -/
theorem Reckoned.calm (hc : Calm s m (s.step m))
    (hwait : ∀ ticks, m = .wait ticks → s.MayWait ticks) :
    Reckoned delay (s.step m) ((s.timedIngest? m).toList.foldl (Reckoning.after delay) r) := by
  have hclosed : (s.step m).closed = s.closed := hc.closed
  have hkeep := fun r' => h.stands.keep ht hb r' hclock hdelay hwait
    (upload?_of_calm hc) (by rw [scheduled?_of_calm hc]; rfl) (backToChat?_of_calm hc) hclosed
  by_cases hack : m = .acknowledge
  · subst hack
    have hingest : (s.step .acknowledge).state.ingest = s.state.ingest.acknowledge := hc.ingest
    refine ⟨hclosed.trans h.closed, ?_, hkeep _ IngestStatus.dismissed (fun _ => rfl) ?_ rfl rfl⟩
    · rw [hingest, Ingest.selection_acknowledge]
      exact h.selection
    · rw [hingest, Ingest.status_acknowledge]
  · have hingest := ingest_of_calm hc hack
    rw [timedIngest?, ingestEvent?_of_calm hc hack]
    exact ⟨hclosed.trans h.closed, (congrArg _ hingest).trans h.selection,
      hkeep _ id (fun _ => rfl) (congrArg _ hingest) rfl rfl⟩

omit hb hclock in
/-- The step that closes the session: the return to the chat that is under way is called off. -/
theorem Reckoned.close (hn : Noted s) (hrun : s.resumption? = some ⟨t, c, some wake⟩)
    (hcloses : s.closes .turn = true) : Reckoned delay (s.step .turn)
      ((s.timedIngest? .turn).toList.foldl (Reckoning.after delay) r) := by
  rw [timedIngest?, ingestEvent?_of_run hrun, if_pos hcloses]
  have hclosed := closed_of_closes ht hcloses
  have hingest := ingest_of_closes ht hrun hcloses
  refine ⟨hclosed, (congrArg _ hingest).trans h.selection, .past ?_ (fun time e => by cases e) ?_⟩
  · exact not_returns_of_closed (tidy_step ht .turn) hclosed
  · rw [hingest]
    exact h.stands.status_eq hn hdelay

omit ht hb hclock hdelay in
theorem Reckoned.refuses_iff (files : List SelectedFile) (isRead : Bool) :
    r.refuses files isRead = true ↔ isRead = false ∧ s.closed = true ∨
      files = [] ∨ s.state.ingest.status.phase = .uploading := by
  simp [Reckoning.refuses, h.closed, h.stands.uploading_iff, or_assoc]

/-- A call goes on with files that it was given. -/
theorem Reckoned.given (hn : Noted s) (hrun : s.resumption? = some ⟨t, c, some .go⟩)
    (hcloses : s.closes .turn = false) (hfiles : c.files? = some files) :
    Reckoned delay (s.step .turn)
      ((s.timedIngest? .turn).toList.foldl (Reckoning.after delay) r) := by
  have hclosed := closed_of_not_closes ht hcloses
  have hstate := state_of_run hrun
  have hup := upload?_of_run hrun
  have hscheduled := isSome_scheduled?_of_run hrun
  have hingest := ingestRun_of_run ht hb hrun
  obtain ⟨hrefusal, hnone, hselection⟩ := behaviour_given s.facts s.state hfiles
  have hrefuses := (h.refuses_iff files c.isReading).trans hrefusal.symm
  rw [accepts_of_files hfiles] at hup hingest
  rw [← hstate] at hselection
  rw [timedIngest?, ingestEvent?_of_files hrun hcloses hfiles]
  show Reckoned delay (s.step .turn) (r.given delay s.now files c.isReading _)
  generalize uploadFate? s.facts c .go s.state = f at hscheduled hingest hnone hselection ⊢
  cases hrefused : isRefusal (behaviour s.facts c .go s.state).next with
  | true =>
    -- they are refused, and at most selected
    obtain rfl := hnone hrefused
    rw [hrefused] at hup hingest
    have hstatus : (s.step .turn).state.ingest.status = s.state.ingest.status := by
      cases hingest with
      | aside f hc hf hstatus hnavigation hcancel hspawn hnext hover =>
        rw [hstate]
        exact hstatus
      | home hc hwake hingest horders hover =>
        subst hc
        cases hfiles
    have hback := backToChat?_of_run hrun fun _ => Call.ne_navigating_of_files hfiles
    rw [Reckoning.given, if_pos (hrefuses.mpr hrefused)]
    refine ⟨hclosed.trans h.closed, ?_, h.stands.keep ht hb _ hclock hdelay
      (fun _ e => by cases e) hup hscheduled hback hclosed id (fun _ => rfl) hstatus rfl rfl⟩
    rw [hselection, h.selection]
    rfl
  | false =>
    -- they are taken up, and the return to the chat is called off
    rw [hrefused] at hup hingest
    have hrefuses : ¬r.refuses files c.isReading = true := fun e =>
      Bool.false_ne_true (hrefused.symm.trans (hrefuses.mp e))
    rw [Reckoning.given, if_neg hrefuses]
    cases hingest with
    | begun f hc hfree hstatus hnavigation horders hnext hover =>
      rw [← hstate] at hstatus
      have hold : ∀ u, (s.step .turn).Returns u → ¬s.Returns u := fun u hu hreturns =>
        not_returns_of_upload? hn ht hb hup hreturns.lt hu
      cases f with
      | none =>
        refine ⟨hclosed.trans h.closed, ?_, .fresh ht hb hold hstatus ?_⟩
        · rw [hselection, h.selection]
          rfl
        · rw [hscheduled]
          rfl
      | some f =>
        show Reckoned delay _ ((r.select files c.isReading).begin.finish delay s.now f)
        refine ⟨?_, ?_, .fresh ht hb hold ?_ ?_⟩
        · rw [Reckoning.closed_finish]
          exact hclosed.trans h.closed
        · rw [hselection]
          exact (Reckoning.selection_finish _ _ _).symm
        · rw [hstatus, Reckoning.status_finish]
          rfl
        · rw [hscheduled, h.closed]
          exact Reckoning.due_finish (fun _ => rfl) _

/-- A call goes on otherwise: the upload under way may end in it, or it returns to the chat. -/
theorem Reckoned.other (hn : Noted s) (hrun : s.resumption? = some ⟨t, c, some wake⟩)
    (hcloses : s.closes .turn = false) (hfiles : wake = .go → c.files? = none) :
    Reckoned delay (s.step .turn)
      ((s.timedIngest? .turn).toList.foldl (Reckoning.after delay) r) := by
  have hclosed := closed_of_not_closes ht hcloses
  have hstate := state_of_run hrun
  have hup := upload?_of_run hrun
  have hscheduled := isSome_scheduled?_of_run hrun
  have hingest := ingestRun_of_run ht hb hrun
  have hselection := selection_of_not_given s.facts ht.listeners hfiles
  rw [accepts_of_no_files hfiles] at hup hingest
  rw [← hstate] at hselection
  rw [timedIngest?, ingestEvent?_of_no_files hrun hcloses hfiles]
  generalize uploadFate? s.facts c wake s.state = f at hscheduled hingest hselection ⊢
  cases hingest with
  | aside f hc hf hstatus hnavigation hcancel hspawn hnext hover =>
    rw [← hstate] at hstatus
    have hback := backToChat?_of_run hrun hc
    have hquiet : (s.scheduled? .turn).isSome = false := by
      rw [hscheduled]
      cases f with
      | none => rfl
      | some f => rw [Option.any_some, Fate.isSuccess_eq_false hf, Bool.false_and]
    have hkeep := fun r' => h.stands.keep ht hb r' hclock hdelay
      (fun _ e => by cases e) hup hquiet hback hclosed id (fun _ => rfl) hstatus
    cases f with
    | none => exact ⟨hclosed.trans h.closed, hselection.trans h.selection, hkeep _ rfl rfl⟩
    | some f =>
      have hover : r.finish delay s.now f = { r with selection := [] } := by
        have hnone : f.status? = none := hf
        simp only [Reckoning.finish, hnone]
      show Reckoned delay _ (r.finish delay s.now f)
      rw [hover]
      exact ⟨hclosed.trans h.closed, hselection, hkeep _ rfl rfl⟩
  | home hc hwake hingest horders hover =>
    subst hc hwake
    have hback := backToChat?_of_navigating hrun
    exact ⟨hclosed.trans h.closed, hselection.trans h.selection, h.stands.home ht hb hn hback⟩
  | ended f hc hbusy hstatus hnavigation horders hover =>
    rw [← hstate] at hstatus
    refine ⟨(hclosed.trans h.closed).trans (Reckoning.closed_finish _ _ _).symm,
      hselection.trans (Reckoning.selection_finish _ _ _).symm, .fresh ht hb ?_ ?_ ?_⟩
    · intro u _ hu
      rcases hn.phase u hu with e | e <;> rw [e] at hbusy <;> cases hbusy
    · refine Eq.trans ?_ (Reckoning.status_finish _ _ _).symm
      rw [hstatus]
      rfl
    · rw [hscheduled, h.closed]
      refine Reckoning.due_finish (fun e => ?_) _
      rw [hstatus] at e
      cases e

/-- **Every step keeps to the reckoning**, if the clock does not run ahead of the return to the
    chat. -/
theorem reckoned_step (hn : Noted s) (m : Move)
    (hwait : ∀ ticks, m = .wait ticks → s.MayWait ticks) :
    Reckoned delay (s.step m) ((s.timedIngest? m).toList.foldl (Reckoning.after delay) r) := by
  rcases calm_or_run ht.listeners m with hc | ⟨rfl, t, c, wake, hrun⟩
  · exact h.calm ht hb hclock hdelay hc hwait
  · cases hcloses : s.closes .turn with
    | true => exact h.close ht hdelay hn hrun hcloses
    | false =>
      by_cases hfiles : wake = .go → c.files? = none
      · exact h.other ht hb hclock hdelay hn hrun hcloses hfiles
      · obtain ⟨rfl, hsome⟩ := Classical.not_imp.mp hfiles
        obtain ⟨files, hsome⟩ := Option.ne_none_iff_exists'.mp hsome
        exact h.given ht hb hclock hdelay hn hrun hcloses hsome

end Reckoned

/-! ## 6. Runs -/

theorem reckoned_play {r : Reckoning} {ms : List Move} (h : Reckoned delay s r) (ht : Tidy s)
    (hb : Guarded uploads s ends) (hn : Noted s) (hclock : Loop.Clocked s)
    (hdelay : Loop.ticksOf s.state.delay = delay) (hprompt : Prompt s ms) :
    Reckoned delay (s.play ms) ((log timedIngest? s ms).foldl (Reckoning.after delay) r) := by
  induction ms generalizing s r ends with
  | nil => exact h
  | cons m ms ih =>
    rw [play_cons, log_cons, List.foldl_append]
    exact ih (reckoned_step ht hb hclock hdelay h hn m hprompt.1) (tidy_step ht m)
      (guarded_step hb ht m) (noted_step hn ht hb m) (clocked_step hclock m)
      ((congrArg _ (delay_step ht m)).trans hdelay) hprompt.2

/-- **The ingestion of a run is told by its events and their times**, if the clock does not run
    ahead of the return to the chat. -/
theorem ingest_play (client : Client) (delay : Binary64) (greeting : Option String)
    (files : FileSystem) {ms : List Move}
    (hprompt : Prompt (opened client delay greeting files) ms) :
    let start := opened client delay greeting files
    let s := start.play ms
    let r := (log timedIngest? start ms).foldl (Reckoning.after (Loop.ticksOf delay)) .start
    s.state.ingest.status = r.statusAt s.now s.isDue ∧ s.state.ingest.selection = r.selection := by
  intro start s r
  have hnone : ∀ t, ¬start.Returns t := fun t h => absurd h.lt (Nat.not_lt_zero t)
  have hstart : Reckoned (Loop.ticksOf delay) start .start :=
    ⟨rfl, rfl, .past hnone (fun _ e => by cases e) rfl⟩
  have h : Reckoned (Loop.ticksOf delay) s r :=
    reckoned_play hstart (tidy_opened client delay greeting files)
      (guarded_play uploads client delay greeting files [])
      (accounted_play client delay greeting files []).1
      (clocked_play client delay greeting files []) rfl hprompt
  have hn : Noted s := (accounted_play client delay greeting files ms).1
  have hdelay : Loop.ticksOf s.state.delay = Loop.ticksOf delay :=
    congrArg _ (delay_play client delay greeting files ms)
  exact ⟨h.stands.status_eq hn hdelay, h.selection⟩

end Session

end CodeSession
