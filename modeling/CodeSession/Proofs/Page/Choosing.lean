import CodeSession.Proofs.Folder.Failures
import CodeSession.Proofs.Page.Refresh
import CodeSession.Proofs.Session.Ingesting
import CodeSession.Proofs.Session.Lone
import CodeSession.Proofs.Session.Punctual

/-!
# What becomes of a folder that is chosen

A click on the button that chooses a folder launches a task that has the folder read and its files
uploaded, and reports a trouble of the folder.

* `Verdict`, `verdicts` -- what becomes of the folder, as the task runs;
* `Verdict.Holds` -- why a verdict is given and what the page shows of it;
* `Chooses`, `chooses_step` -- how far the task has come, and that no move leads it astray;
* `verdict_of_choice` -- there is one verdict, and no trouble leaves the page if the path can be looked
  at.
-/

namespace CodeSession.Page

open Session Backend Folder

variable {facts : Facts} {fs : FileSystem} {path : String} {t u : TaskId} {p : Page}

/-! ## 1. Verdicts -/

/-- What becomes of a folder that is chosen: nothing, its files are uploaded, the user is notified of
    a trouble, or the trouble is raised. -/
inductive Verdict where
  | ignored
  | uploaded (files : List SelectedFile)
  | notified (trouble : SelectionTrouble)
  | escaped (trouble : SelectionTrouble)
  deriving DecidableEq

/-- What becomes of the folder in a run of a task, by what the task holds. There is no verdict before
    the folder is read, unless it is refused, and none after that. -/
def Job.verdict? (facts : Facts) (w : World) (j : Job) : Option Verdict :=
  match j.call with
  | .choose path =>
    if path.isEmpty || facts.closed || !w.ingest.canChoose then some .ignored else none
  | .reading _ _ (some (.ok files)) =>
    some (if files.isEmpty || !w.ingest.canChoose then .ignored else .uploaded files)
  | .reading _ _ (some (.error trouble)) =>
    some (if trouble.isOfFolder then .notified trouble else .escaped trouble)
  | _ => none

/-- The verdict of a move on the folder of a task. -/
def verdict? (t : TaskId) (p : Page) (m : Move) : Option Verdict :=
  match m, p.resumption? with
  | .turn, some ⟨u, j, some .go⟩ => if u = t then j.verdict? p.facts p.state.session else none
  | _, _ => none

/-- The verdicts of a run on the folder of a task. -/
def verdicts (t : TaskId) : Page → List Move → List Verdict
  | _, [] => []
  | p, m :: ms => (p.verdict? t m).toList ++ verdicts t (p.step m) ms

/-- **Why a verdict is given, and what the page shows of it.** A folder is ignored if none is typed, the
    session is closed, an upload is running or the folder is empty; then nothing changes but the
    selection. Its files are uploaded as they are if there are any. A trouble of the folder is shown in
    one notification; any other trouble ends the task. -/
inductive Verdict.Holds (fs : FileSystem) (path : String) (t : TaskId) (p p' : Page) :
    Verdict → Prop where
  | ignored (selection : List SelectedFile)
    (why : path = "" ∨ p.closed = true ∨ p.state.session.ingest.status.phase = .uploading ∨
      fs.collect path = .ok [])
    (hend : p'.ending? t = some (.returned none))
    (hnotes : p'.state.notifications = p.state.notifications)
    (hsession : p'.state.session = { p.state.session with
      ingest := { p.state.session.ingest with selection := selection } }) :
    Holds fs path t p p' .ignored
  | uploaded (files : List SelectedFile) (why : fs.collect path = .ok files) (hfiles : files ≠ [])
    (hnotes : p'.state.notifications = p.state.notifications)
    (hclient : p'.state.session.client = (p.state.session.client.send (.upload files)).1) :
    Holds fs path t p p' (.uploaded files)
  | notified (trouble : SelectionTrouble) (why : fs.collect path = .error trouble)
    (hfolder : trouble.isOfFolder = true) (hend : p'.ending? t = some (.returned none))
    (hnotes : p'.state.notifications =
      p.state.notifications ++ [⟨"negative", trouble.message⟩])
    (hsession : p'.state.session = p.state.session) : Holds fs path t p p' (.notified trouble)
  | escaped (trouble : SelectionTrouble) (why : fs.collect path = .error trouble)
    (hfolder : trouble.isOfFolder = false)
    (hend : p'.ending? t = some (.raised (.folder trouble))) (hstate : p'.state = p.state) :
    Holds fs path t p p' (.escaped trouble)

/-! ## 2. Runs -/

/-- An ending that is no cancellation and no trouble of a folder. -/
def IsPlain : Ending Result Failure → Prop
  | .cancelled | .raised (.folder _) => False
  | _ => True

theorem isPlain_conclude {e : Ending Result Failure} (h : IsPlain e) (w : Window) :
    IsPlain (conclude .report e w).2 := by
  cases e with
  | returned r => trivial
  | cancelled => cases h
  | raised f =>
    cases f with
    | folder trouble => cases h
    | _ => trivial

theorem next_endUpload (facts : Facts) (orders : List (Order Call))
    (outcome : Except CallTrouble String) (w : World) :
    ∃ e, (endUpload facts orders outcome w).next = .finish e ∧ IsPlain e := by
  unfold endUpload
  split
  · split
    · exact ⟨_, rfl, trivial⟩
    · exact ⟨_, rfl, trivial⟩
  · split
    · exact ⟨_, rfl, trivial⟩
    · exact ⟨_, rfl, trivial⟩
  · exact ⟨_, rfl, trivial⟩

theorem next_landUpload (facts : Facts) (orders : List (Order Call))
    (outcome : Except CallTrouble String) (w : World) :
    ∃ e, (landUpload facts orders w outcome).next = .finish e ∧ IsPlain e := by
  obtain (trouble | f) | message := outcome
  · exact ⟨_, rfl, trivial⟩
  · exact ⟨_, rfl, trivial⟩
  · exact ⟨_, rfl, trivial⟩

/-- An upload that is taken up is under way after the run, or has ended in it. -/
theorem next_beginUpload (facts : Facts) {files : List SelectedFile} {w : World}
    (hfiles : files ≠ []) (h : w.ingest.status.phase ≠ .uploading) :
    (∃ n, (beginUpload facts files w).next = .pause .signal (.uploading ⟨n, none⟩)) ∨
      ∃ e, (beginUpload facts files w).next = .finish e ∧ IsPlain e := by
  rw [beginUpload_eq facts hfiles h]
  dsimp only
  split
  · exact .inr (next_landUpload ..)
  · exact .inr (next_landUpload ..)
  · exact .inl ⟨_, rfl⟩

theorem notifications_sync (w : Window) : w.sync.notifications = w.notifications := by
  unfold Window.sync
  dsimp only
  split
  · split <;> rfl
  · split <;> rfl

/-- The end of a call that is no trouble of a folder notifies of nothing. -/
theorem notifications_conclude {e : Ending Result Failure} (h : IsPlain e) (w : Window) :
    (conclude .report e w).1.notifications = w.notifications := by
  cases e with
  | returned r => exact notifications_sync w
  | cancelled => rfl
  | raised f =>
    cases f with
    | folder trouble => cases h
    | _ => rfl

/-- A task that has something to do and whose call pauses. -/
theorem behaviour_of_pause (facts : Facts) {j : Job} (w : Window) {q : Pause} {c : Call}
    (hidle : j.isIdle w.session = false)
    (hnext : (Session.behaviour facts j.call .go w.session).next = .pause q c) :
    (Page.behaviour facts j .go w).state =
        { w with session := (Session.behaviour facts j.call .go w.session).state } ∧
      (Page.behaviour facts j .go w).next = .pause q ⟨c, j.after⟩ := by
  unfold Page.behaviour
  rw [if_neg (by simp [hidle])]
  dsimp only
  rw [hnext]
  exact ⟨rfl, rfl⟩

/-- A task that has something to do and whose call ends. -/
theorem behaviour_of_finish (facts : Facts) {j : Job} (w : Window) {e : Ending Result Failure}
    (hidle : j.isIdle w.session = false)
    (hnext : (Session.behaviour facts j.call .go w.session).next = .finish e) :
    let concluded := conclude j.after e
      { w with session := (Session.behaviour facts j.call .go w.session).state }
    (Page.behaviour facts j .go w).state = concluded.1 ∧
      (Page.behaviour facts j .go w).next = .finish concluded.2 := by
  unfold Page.behaviour
  rw [if_neg (by simp [hidle])]
  dsimp only
  rw [hnext]
  exact ⟨rfl, rfl⟩

/-! ## 3. The task that chooses a folder -/

/-- How far the choice of a folder has come, with the verdicts on it so far. The folder is yet to be
    refused or read, is being read, has been read; then the task has ended, or the upload of the files
    is under way or has ended. -/
inductive Chooses (fs : FileSystem) (path : String) :
    Stage Job Result Failure → List Verdict → Prop where
  | fresh : Chooses fs path (.queued ⟨.choose path, .report⟩ false false) []
  | reading (held : Bool) :
    Chooses fs path (.waiting ⟨.reading path held none, .report⟩ .signal) []
  | read (held : Bool) :
    Chooses fs path (.queued ⟨.reading path held (some (fs.collect path)), .report⟩ true false) []
  | sent (files : List SelectedFile) (n : Nat) :
    Chooses fs path (.waiting ⟨.uploading ⟨n, none⟩, .report⟩ .signal) [.uploaded files]
  | answered (files : List SelectedFile) (n : Nat) (r : Reply) :
    Chooses fs path (.queued ⟨.uploading ⟨n, some r⟩, .report⟩ true false) [.uploaded files]
  | gone (files : List SelectedFile) (e : Ending Result Failure) (he : IsPlain e) :
    Chooses fs path (.ended e) [.uploaded files]
  | ignored : Chooses fs path (.ended (.returned none)) [.ignored]
  | notified (trouble : SelectionTrouble) :
    Chooses fs path (.ended (.returned none)) [.notified trouble]
  | escaped (trouble : SelectionTrouble) (why : fs.collect path = .error trouble)
    (hfolder : trouble.isOfFolder = false) :
    Chooses fs path (.ended (.raised (.folder trouble))) [.escaped trouble]

theorem verdict?_of_run {j : Job} (hrun : p.resumption? = some ⟨t, j, some .go⟩) :
    p.verdict? t .turn = j.verdict? p.facts p.state.session := by
  simp [verdict?, hrun]

theorem stage?_of_finish {j : Job} {e : Ending Result Failure}
    (hrun : p.resumption? = some ⟨t, j, some .go⟩)
    (hnext : (Page.behaviour p.facts j .go p.state).next = .finish e) :
    (p.step .turn).stage? t = some (.ended e) := by
  rw [show p.step .turn = p.turned Page.behaviour from rfl, Loop.stage?_turned_self hrun, hnext]
  rfl

theorem stage?_of_pause {j k : Job} (hrun : p.resumption? = some ⟨t, j, some .go⟩)
    (hnext : (Page.behaviour p.facts j .go p.state).next = .pause .signal k) :
    (p.step .turn).stage? t = some (.waiting k .signal) := by
  rw [show p.step .turn = p.turned Page.behaviour from rfl, Loop.stage?_turned_self hrun, hnext]
  rfl

theorem state_of_run {j : Job} (hrun : p.resumption? = some ⟨t, j, some .go⟩) :
    (p.step .turn).state = (Page.behaviour p.facts j .go p.state).state :=
  Loop.state_turned_of_run hrun

/-- What a turn of the task comes to: how far the choice has come after it, and its verdict. -/
def Turns (fs : FileSystem) (path : String) (t : TaskId) (p : Page) (vs : List Verdict) : Prop :=
  (∃ st, (p.step .turn).stage? t = some st ∧
    Chooses fs path st (vs ++ (p.verdict? t .turn).toList)) ∧
  ∀ v, p.verdict? t .turn = some v → v.Holds fs path t p (p.step .turn)

/-- A turn whose verdict ends the task. -/
theorem turns_of_ended {v : Verdict} {e : Ending Result Failure}
    (hverdict : p.verdict? t .turn = some v) (hend : (p.step .turn).stage? t = some (.ended e))
    (hchooses : Chooses fs path (.ended e) [v])
    (hholds : (p.step .turn).ending? t = some e → v.Holds fs path t p (p.step .turn)) :
    Turns fs path t p [] := by
  refine ⟨⟨_, hend, by rw [hverdict]; exact hchooses⟩, fun v' hv' => ?_⟩
  obtain rfl := Option.some.inj (hverdict.symm.trans hv')
  exact hholds (Loop.ending?_eq_some_iff.mpr hend)

/-- **The task begins**: the folder is refused, or is to be read. -/
theorem turns_of_fresh (hrun : p.resumption? = some ⟨t, ⟨.choose path, .report⟩, some .go⟩) :
    Turns fs path t p [] := by
  have hverdict := verdict?_of_run hrun
  have hstate := state_of_run hrun
  by_cases hpath : path.isEmpty = true
  · have hidle : Page.behaviour p.facts ⟨.choose path, .report⟩ .go p.state =
        ⟨p.state, [], .finish (.returned none)⟩ := if_pos ⟨rfl, hpath⟩
    rw [hidle] at hstate
    refine turns_of_ended (v := .ignored) ?_
      (stage?_of_finish hrun (congrArg Burst.next hidle)) .ignored fun hend => ?_
    · rw [hverdict]
      simp [Job.verdict?, hpath]
    · exact .ignored p.state.session.ingest.selection (.inl (by simpa using hpath)) hend
        (by rw [hstate]) (by rw [hstate])
  · have hpath' : path.isEmpty = false := by simpa using hpath
    have hbusy : ∀ w : World, Job.isIdle ⟨.choose path, .report⟩ w = false := fun _ => hpath'
    by_cases hrefused : (p.facts.closed || !p.state.session.ingest.canChoose) = true
    · have hcall : Session.behaviour p.facts (.choose path) .go p.state.session =
          p.state.session.done [] (some false) := if_pos hrefused
      obtain ⟨hstate', hnext⟩ := behaviour_of_finish p.facts p.state
        (j := ⟨.choose path, .report⟩) (hbusy _) (congrArg Burst.next hcall)
      rw [hcall] at hstate'
      have hwhy : p.closed = true ∨ p.state.session.ingest.status.phase = .uploading := by
        rcases (Bool.or_eq_true _ _).mp hrefused with hclosed | hupload
        · exact .inl hclosed
        · refine .inr (Decidable.not_not.mp fun hne => ?_)
          rw [Ingest.canChoose_eq_true_iff.mpr hne] at hupload
          cases hupload
      refine turns_of_ended (v := .ignored) ?_ (stage?_of_finish hrun hnext) .ignored fun hend => ?_
      · rw [hverdict]
        simp only [Job.verdict?, hpath', Bool.false_or, hrefused, if_true]
      · refine .ignored p.state.session.ingest.selection (.inr (hwhy.imp_right .inl)) hend ?_ ?_
        · rw [hstate, hstate']
          exact notifications_sync p.state
        · rw [hstate, hstate']
          exact session_sync p.state
    · have hcall : Session.behaviour p.facts (.choose path) .go p.state.session =
          p.state.session.await [] (.reading path p.state.session.readsHeld none) :=
        if_neg hrefused
      obtain ⟨_, hnext⟩ := behaviour_of_pause p.facts p.state
        (j := ⟨.choose path, .report⟩) (hbusy _) (congrArg Burst.next hcall)
      have hnone : p.verdict? t .turn = none := by
        rw [hverdict]
        simp only [Job.verdict?, hpath', Bool.false_or, hrefused]
        rfl
      refine ⟨⟨_, stage?_of_pause hrun hnext, by rw [hnone]; exact .reading _⟩, fun v hv => ?_⟩
      rw [hnone] at hv
      cases hv

/-- **The folder has been read**: its files are uploaded or ignored, or its trouble is told. -/
theorem turns_of_read {held : Bool} (hrun : p.resumption? =
      some ⟨t, ⟨.reading path held (some (fs.collect path)), .report⟩, some .go⟩) :
    Turns fs path t p [] := by
  have hverdict := verdict?_of_run hrun
  have hstate := state_of_run hrun
  generalize hcollect : fs.collect path = selected at hrun hverdict hstate
  have hbusy : ∀ w : World, Job.isIdle ⟨.reading path held (some selected), .report⟩ w = false :=
    fun _ => rfl
  cases selected with
  | error trouble =>
    have hcall : Session.behaviour p.facts (.reading path held (some (.error trouble))) .go
        p.state.session = p.state.session.fail [] (.folder trouble) := rfl
    obtain ⟨hstate', hnext⟩ := behaviour_of_finish p.facts p.state
      (j := ⟨.reading path held (some (.error trouble)), .report⟩) (hbusy _)
      (congrArg Burst.next hcall)
    rw [hcall] at hstate'
    cases hfolder : trouble.isOfFolder with
    | true =>
      simp only [conclude, hfolder, if_true] at hstate' hnext
      refine turns_of_ended (v := .notified trouble) ?_ (stage?_of_finish hrun hnext)
        (.notified trouble) fun hend => .notified trouble hcollect hfolder hend ?_ ?_
      · rw [hverdict]
        simp [Job.verdict?, hfolder]
      · rw [hstate, hstate']
        exact notifications_sync _
      · rw [hstate, hstate']
        exact session_sync _
    | false =>
      simp only [conclude, hfolder] at hstate' hnext
      refine turns_of_ended (v := .escaped trouble) ?_ (stage?_of_finish hrun hnext)
        (.escaped trouble hcollect hfolder) fun hend => .escaped trouble hcollect hfolder hend ?_
      · rw [hverdict]
        simp [Job.verdict?, hfolder]
      · rw [hstate, hstate']
        rfl
  | ok files =>
    let w : World := { p.state.session with ingest := p.state.session.ingest.select files }
    by_cases hfree : files ≠ [] ∧ p.state.session.ingest.status.phase ≠ .uploading
    · have hchoose : p.state.session.ingest.canChoose = true :=
        Ingest.canChoose_eq_true_iff.mpr hfree.2
      have hsome : p.verdict? t .turn = some (.uploaded files) := by
        rw [hverdict]
        simp [Job.verdict?, hfree.1, hchoose]
      have hclient : (Session.behaviour p.facts (.reading path held (some (.ok files))) .go
          p.state.session).state.client = (p.state.session.client.send (.upload files)).1 :=
        (beginUpload_of_canChoose p.facts (w := w) hfree.1 hchoose).1
      rcases next_beginUpload p.facts (w := w) hfree.1 hfree.2 with ⟨n, hn⟩ | ⟨e, hn, hplain⟩
      · obtain ⟨hstate', hnext⟩ := behaviour_of_pause p.facts p.state
          (j := ⟨.reading path held (some (.ok files)), .report⟩) (hbusy _) hn
        refine ⟨⟨_, stage?_of_pause hrun hnext, by rw [hsome]; exact .sent files n⟩,
          fun v hv => ?_⟩
        obtain rfl := Option.some.inj (hsome.symm.trans hv)
        refine .uploaded files hcollect hfree.1 ?_ ?_
        · rw [hstate, hstate']
        · rw [hstate, hstate']
          exact hclient
      · obtain ⟨hstate', hnext⟩ := behaviour_of_finish p.facts p.state
          (j := ⟨.reading path held (some (.ok files)), .report⟩) (hbusy _) hn
        refine turns_of_ended hsome (stage?_of_finish hrun hnext)
          (.gone files _ (isPlain_conclude hplain _)) fun _ => .uploaded files hcollect hfree.1 ?_ ?_
        · rw [hstate, hstate']
          exact notifications_conclude hplain _
        · rw [hstate, hstate', session_conclude]
          exact hclient
    · have hbusy' : files = [] ∨ p.state.session.ingest.status.phase = .uploading := by
        by_cases hnil : files = []
        · exact .inl hnil
        · exact .inr (Decidable.not_not.mp fun hne => hfree ⟨hnil, hne⟩)
      have hcall : Session.behaviour p.facts (.reading path held (some (.ok files))) .go
          p.state.session = w.done [] (some false) := beginUpload_refused p.facts hbusy'
      obtain ⟨hstate', hnext⟩ := behaviour_of_finish p.facts p.state
        (j := ⟨.reading path held (some (.ok files)), .report⟩) (hbusy _)
        (congrArg Burst.next hcall)
      rw [hcall] at hstate'
      refine turns_of_ended (v := .ignored) ?_ (stage?_of_finish hrun hnext) .ignored fun hend => ?_
      · rw [hverdict]
        rcases hbusy' with rfl | hphase
        · rfl
        · simp [Job.verdict?, Ingest.canChoose, hphase]
      · refine .ignored files (.inr (.inr ?_)) hend ?_ ?_
        · exact hbusy'.symm.imp_right fun hnil => by rw [hcollect, hnil]
        · rw [hstate, hstate']
          exact notifications_sync _
        · rw [hstate, hstate']
          exact session_sync _

/-- **The upload ends**, and that is no trouble of the folder. -/
theorem turns_of_answered {files : List SelectedFile} {n : Nat} {r : Reply}
    (hrun : p.resumption? = some ⟨t, ⟨.uploading ⟨n, some r⟩, .report⟩, some .go⟩) :
    Turns fs path t p [.uploaded files] := by
  have hnone : p.verdict? t .turn = none := verdict?_of_run hrun
  obtain ⟨e, hn, hplain⟩ := next_endUpload p.facts [] r.answer p.state.session
  obtain ⟨_, hnext⟩ := behaviour_of_finish p.facts p.state
    (j := ⟨.uploading ⟨n, some r⟩, .report⟩) rfl hn
  refine ⟨⟨_, stage?_of_finish hrun hnext, ?_⟩, fun v hv => ?_⟩
  · rw [hnone]
    exact .gone files _ (isPlain_conclude hplain _)
  · rw [hnone] at hv
    cases hv

/-! ## 4. Every move -/

/-- A task behind which stands a call of the session that stands alone. -/
def Alone (t : TaskId) (p : Page) : Prop :=
  ∃ s : Session, p.shadow = s.shadow ∧ Lone t s

theorem Alone.step (h : Alone t p) (m : Move) : Alone t (p.step m) := by
  obtain ⟨s, hshadow, hlone⟩ := h
  obtain ⟨ns, hns⟩ := shadow_step hshadow hlone.tidy.listeners m
  exact ⟨s.play ns, hns, lone_play hlone ns⟩

theorem Alone.lt (h : Alone t p) : t < p.tasks.length := by
  obtain ⟨s, hshadow, hlone⟩ := h
  have hlength : p.tasks.length = s.tasks.length :=
    congrArg Facts.fresh (facts_of_shadow hshadow)
  rw [hlength]
  exact hlone.apart.lt

theorem cancel_mem_liftOrder {orders : List (Order Call)}
    (h : .cancel t ∈ orders.map liftOrder) : .cancel t ∈ orders := by
  obtain ⟨o, ho, hlift⟩ := List.mem_map.mp h
  cases o <;> cases hlift
  exact ho

theorem orders_behaviour (facts : Facts) (j : Job) (wake : Wake) (w : Window) :
    (Page.behaviour facts j wake w).orders = [] ∨ (Page.behaviour facts j wake w).orders =
      (Session.behaviour facts j.call wake w.session).orders.map liftOrder := by
  unfold Page.behaviour
  split
  · exact .inl rfl
  · right
    dsimp only
    split <;> rfl

/-- No run of a task cancels it. -/
theorem Alone.cancel_notMem (h : Alone t p) (j : Job) (wake : Wake) :
    .cancel t ∉ (Page.behaviour p.facts j wake p.state).orders := by
  obtain ⟨s, hshadow, hlone⟩ := h
  intro hmem
  rcases orders_behaviour p.facts j wake p.state with horders | horders
  · rw [horders] at hmem
    cases hmem
  · rw [horders, facts_of_shadow hshadow, session_of_shadow hshadow] at hmem
    exact hlone.cancel_notMem j.call wake (cancel_mem_liftOrder hmem)

/-- A move that is no turn, and brings nothing to the task, leaves it where it stands. -/
theorem Alone.stage?_step (h : Alone t p) {m : Move} (hturn : m ≠ .turn)
    (hanswer : ∀ r, m ≠ .answer t r) (hread : ∀ selected, m ≠ .read t selected) :
    (p.step m).stage? t = p.stage? t := by
  have hlt := h.lt
  have hlaunch : ∀ j : Job, (p.launch j).stage? t = p.stage? t := fun j =>
    (Loop.stage?_add "" false j p t).trans (if_neg (Nat.ne_of_lt hlt))
  cases m with
  | turn => exact absurd rfl hturn
  | click name =>
    show (p.click name).1.stage? t = _
    unfold click
    split
    · rfl
    · rfl
    · rename_i target _
      have hno : .cancel t ∉ ((switchTab p.closed (.string target.name) p.state.session).2.1).map
          liftOrder := fun hmem =>
        cancel_notMem_switchTab p.closed (.string target.name) p.state.session t
          (cancel_mem_liftOrder hmem)
      exact Loop.stage?_foldl_obey_of_notMem (l := { p with state := _ }) hlt hno
    · exact hlaunch _
    · exact hlaunch _
  | type placeholder text =>
    show (p.type placeholder text).1.stage? t = _
    unfold Page.type
    split <;> rfl
  | enter placeholder =>
    show (p.enter placeholder).1.stage? t = _
    unfold enter
    split
    · rfl
    · exact hlaunch _
    · rfl
  | tick => rfl
  | disconnect => exact hlaunch _
  | answer u r =>
    show (p.answer u r).stage? t = _
    unfold answer
    split
    · exact Loop.stage?_signal_of_ne _ p fun heq => hanswer r (heq ▸ rfl)
    · rfl
  | read u selected =>
    show (p.deliver u selected).stage? t = _
    unfold deliver
    split
    · exact Loop.stage?_signal_of_ne _ p fun heq => hread selected (heq ▸ rfl)
    · rfl
  | wait ticks => rfl

/-- What the task waits for reaches it. -/
theorem stage?_signal {k : Job} (f : Job → Job) (hs : p.stage? t = some (.waiting k .signal)) :
    (p.signal t f).stage? t = some (.queued (f k) true false) := by
  simp [Loop.signal, hs]

theorem Chooses.still {st st' : Stage Job Result Failure} {vs : List Verdict}
    (h : Chooses fs path st vs) (hstirs : st.Stirs st') : st' = st := by
  cases hstirs with
  | same => rfl
  | woken k w hw => cases h <;> exact absurd rfl hw
  | counted k m n => cases h

/-- **No move leads the choice of a folder astray**, and its verdicts hold, if the reading of the
    folder brings what the tree has. -/
theorem chooses_step {st : Stage Job Result Failure} {vs : List Verdict} {m : Move}
    (halone : Alone t p) (hs : p.stage? t = some st) (h : Chooses fs path st vs)
    (hread : ∀ selected, m = .read t selected → selected = fs.collect path) :
    (∃ st', (p.step m).stage? t = some st' ∧
      Chooses fs path st' (vs ++ (p.verdict? t m).toList)) ∧
    ∀ v, p.verdict? t m = some v → m = .turn ∧ v.Holds fs path t p (p.step m) := by
  have hsame : p.verdict? t m = none → (p.step m).stage? t = some st →
      (∃ st', (p.step m).stage? t = some st' ∧
        Chooses fs path st' (vs ++ (p.verdict? t m).toList)) ∧
      ∀ v, p.verdict? t m = some v → m = .turn ∧ v.Holds fs path t p (p.step m) := by
    intro hnone hst
    rw [hnone]
    exact ⟨⟨st, hst, by simpa using h⟩, fun v hv => by cases hv⟩
  have hquiet : ∀ m, m ≠ .turn → p.verdict? t m = none := by
    intro m hm
    cases m <;> first | rfl | exact absurd rfl hm
  by_cases hturn : m = .turn
  · subst hturn
    by_cases hown : ∀ r, p.resumption? = some r → r.task ≠ t
    · refine hsame ?_ (Loop.stage?_turned_of_ne hs (fun st' => h.still) hown fun u j wake _ =>
        halone.cancel_notMem j wake)
      unfold verdict?
      split
      · rename_i u j hr
        exact if_neg (hown _ hr)
      · rfl
    · simp only [not_forall, Decidable.not_not] at hown
      obtain ⟨⟨u, j, wake⟩, hr, rfl⟩ := hown
      obtain ⟨_, begun, cancelled, hqueued, hwake⟩ := Loop.resumption?_eq_some_iff.mp hr
      obtain rfl := Option.some.inj (hs.symm.trans hqueued)
      dsimp only at hwake
      subst hwake
      have hturns : Turns fs path u p vs := by
        generalize hst : Stage.queued j begun cancelled = st at h
        cases h <;> cases hst
        · exact turns_of_fresh hr
        · exact turns_of_read hr
        · exact turns_of_answered hr
      exact ⟨hturns.1, fun v hv => ⟨rfl, hturns.2 v hv⟩⟩
  · by_cases hanswer : ∃ r, m = .answer t r
    · obtain ⟨r, rfl⟩ := hanswer
      by_cases hshown : (p.shown? (fun j => j.call.request?) t).isSome = true
      · rw [Loop.shown?_of_stage? hs] at hshown
        cases h <;> try cases hshown
        rename_i files n
        refine ⟨⟨_, ?_, by rw [hquiet _ hturn]; exact .answered files n r⟩,
          fun v hv => by cases hv⟩
        show (p.answer t r).stage? t = _
        rw [answer, if_pos (by rw [Loop.shown?_of_stage? hs]; rfl), stage?_signal _ hs]
        rfl
      · refine hsame (hquiet _ hturn) ?_
        show (p.answer t r).stage? t = _
        rw [answer, if_neg hshown, hs]
    · by_cases hdeliver : ∃ selected, m = .read t selected
      · obtain ⟨selected, rfl⟩ := hdeliver
        obtain rfl := hread selected rfl
        by_cases hshown : (p.shown? (fun j => j.call.path?) t).isSome = true
        · rw [Loop.shown?_of_stage? hs] at hshown
          cases h <;> try cases hshown
          rename_i held
          refine ⟨⟨_, ?_, by rw [hquiet _ hturn]; exact .read held⟩, fun v hv => by cases hv⟩
          show (p.deliver t (fs.collect path)).stage? t = _
          rw [deliver, if_pos (by rw [Loop.shown?_of_stage? hs]; rfl), stage?_signal _ hs]
          rfl
        · refine hsame (hquiet _ hturn) ?_
          show (p.deliver t (fs.collect path)).stage? t = _
          rw [deliver, if_neg hshown, hs]
      · refine hsame (hquiet _ hturn) ?_
        rw [halone.stage?_step hturn (fun r heq => hanswer ⟨r, heq⟩)
          (fun selected heq => hdeliver ⟨selected, heq⟩), hs]

/-! ## 5. Runs of a page -/

/-- **No run leads the choice of a folder astray.** -/
theorem chooses_play {st : Stage Job Result Failure} {vs : List Verdict} {ns : List Move}
    (halone : Alone t p) (hs : p.stage? t = some st) (h : Chooses fs path st vs)
    (hread : ∀ selected, .read t selected ∈ ns → selected = fs.collect path) :
    (∃ st', (p.play ns).stage? t = some st' ∧ Chooses fs path st' (vs ++ verdicts t p ns)) ∧
    ∀ before m after v, ns = before ++ m :: after → (p.play before).verdict? t m = some v →
      v.Holds fs path t (p.play before) ((p.play before).step m) := by
  induction ns generalizing p st vs with
  | nil =>
    refine ⟨⟨st, hs, by simpa [verdicts] using h⟩, fun before m after v hns => ?_⟩
    cases before <;> cases hns
  | cons m ns ih =>
    obtain ⟨⟨st', hs', h'⟩, hholds⟩ := chooses_step halone hs h (m := m)
      fun selected heq => hread selected (heq ▸ List.mem_cons_self)
    obtain ⟨⟨st'', hs'', h''⟩, hrest⟩ := ih (halone.step m) hs' h'
      fun selected hmem => hread selected (List.mem_cons_of_mem m hmem)
    refine ⟨⟨st'', hs'', by rw [verdicts, ← List.append_assoc]; exact h''⟩,
      fun before k after v hns hv => ?_⟩
    cases before with
    | nil =>
      cases hns
      exact (hholds v hv).2
    | cons k' before =>
      cases hns
      exact hrest before k after v rfl hv

theorem Chooses.length_le {st : Stage Job Result Failure} {vs : List Verdict}
    (h : Chooses fs path st vs) : vs.length ≤ 1 := by
  cases h <;> simp

/-- Only a folder that is yet to be refused or read has no verdict. -/
theorem Chooses.length_eq {st : Stage Job Result Failure} {vs : List Verdict}
    (h : Chooses fs path st vs) (hqueued : ∀ j begun cancelled, st ≠ .queued j begun cancelled)
    (hpath : (st.continuation?.bind fun j => j.call.path?) = none) : vs.length = 1 := by
  cases h with
  | fresh => exact absurd rfl (hqueued _ _ _)
  | reading held => cases hpath
  | read held => exact absurd rfl (hqueued _ _ _)
  | _ => rfl

theorem Chooses.escaped_iff {st : Stage Job Result Failure} {vs : List Verdict}
    (h : Chooses fs path st vs) (trouble : SelectionTrouble) :
    st = .ended (.raised (.folder trouble)) ↔ vs = [.escaped trouble] := by
  cases h with
  | gone files e he =>
    refine ⟨fun heq => ?_, fun heq => by cases heq⟩
    cases heq
    cases he
  | _ => simp

theorem Chooses.why {st : Stage Job Result Failure} {trouble : SelectionTrouble}
    (h : Chooses fs path st [.escaped trouble]) :
    fs.collect path = .error trouble ∧ trouble.isOfFolder = false := by
  cases h with
  | escaped _ why hfolder => exact ⟨why, hfolder⟩

/-- A task that is queued has its next run in the queue. -/
theorem Alone.resume_mem (h : Alone t p) {j : Job} {begun cancelled : Bool}
    (hs : p.stage? t = some (.queued j begun cancelled)) : .resume t ∈ p.ready := by
  obtain ⟨s, hshadow, hlone⟩ := h
  have hready : p.ready = s.ready := congrArg Loop.ready hshadow
  have hstage : (p.stage? t).map (Stage.image Job.shadow) = (s.stage? t).map (Stage.image id) := by
    have hstages := congrArg (fun l : Loop World Call Unit Unit => l.stage? t) hshadow
    simpa only [shadow, Session.shadow, Loop.stage?_image] using hstages
  rw [hs, Option.map_some, eq_comm, Option.map_eq_some_iff] at hstage
  obtain ⟨st, hst, himage⟩ := hstage
  cases st <;> cases himage
  rw [hready]
  exact hlone.tidy.lined.queued t _ _ _ hst

/-- The task that a click launches stands alone. -/
theorem alone_launch (config : Config) (client : Client) (files : FileSystem) (ms : List Move)
    (path : String) : let p := (opened config client files).play ms
      Alone p.tasks.length (p.launch ⟨.choose path, .report⟩) := by
  intro p
  obtain ⟨ns, hns⟩ := shadow_play config client files ms
  have htidy := tidy_play client config.autoNavigateDelay (some Chat.welcome) files ns
  have hscoped := scoped_play client config.autoNavigateDelay (some Chat.welcome) files ns
  have hlength : p.tasks.length = _ := congrArg Facts.fresh (facts_of_shadow hns)
  let d : Demand := if path.isEmpty then .upload [] else .choose path
  have hd : Job.shadow ⟨.choose path, .report⟩ = d.call ∧ d.call.kind = .upload := by
    show (if path.isEmpty then Call.upload [] else Call.choose path) = d.call ∧ _
    unfold d
    split <;> exact ⟨rfl, rfl⟩
  refine ⟨_, shadow_launch hns hd.1, ?_⟩
  rw [hlength]
  exact lone_launch htidy hscoped hd.2

/-- **What becomes of a folder that is chosen.** A folder path leads to a selection or to a trouble of
    the folder just if it is probed: it does not begin with a home directory that is not known, it can
    be looked at, and a walk through the folder that it leads to neither goes too deep nor comes to a
    path that is no text before it finds anything else amiss.

    On the page, whatever else happens there: a click that chooses a folder comes to one verdict, which
    has been given as soon as its task neither is to run nor waits for its folder. The folder is
    ignored, as none is typed, the session is closed, an upload is running or the folder is empty; or
    its files are uploaded; or the user is notified of a trouble of the folder; or a trouble is raised.
    Each verdict holds of the turn that gives it. Nothing of the folder is raised otherwise, and nothing
    at all if the path is probed. -/
theorem verdict_of_choice (fs : FileSystem) (hfs : fs.root.Sound) (path : String) :
    (fs.Probed path ↔
      ∀ trouble, fs.collect path = .error trouble → trouble.isOfFolder = true) ∧
    ∀ (config : Config) (client : Client) (files : FileSystem) (ms : List Move) (name : String)
      (ns : List Move),
      let p := (opened config client files).play ms
      let t := p.tasks.length
      let start := p.step (.click name)
      let q := start.play ns
      findButton? name p.state.elements = some (true, .choose path) →
      (∀ selected, .read t selected ∈ ns → selected = fs.collect path) →
      (verdicts t start ns).length ≤ 1 ∧
      (.resume t ∉ q.ready → q.shown? (fun j => j.call.path?) t = none →
        (verdicts t start ns).length = 1) ∧
      (∀ before m after v, ns = before ++ m :: after →
        (start.play before).verdict? t m = some v →
        v.Holds fs path t (start.play before) ((start.play before).step m)) ∧
      (∀ trouble, q.ending? t = some (.raised (.folder trouble)) ↔
        verdicts t start ns = [.escaped trouble]) ∧
      (fs.Probed path → ∀ trouble, verdicts t start ns ≠ [.escaped trouble]) := by
  refine ⟨FileSystem.probed_iff hfs path, fun config client files ms name ns => ?_⟩
  intro p t start q hbutton hread
  have hstart : start = p.launch ⟨.choose path, .report⟩ := by
    show (p.click name).1 = _
    unfold click
    rw [hbutton]
  have halone : Alone t start := hstart ▸ alone_launch config client files ms path
  have hs : start.stage? t = some (.queued ⟨.choose path, .report⟩ false false) := by
    rw [hstart]
    exact (Loop.stage?_add "" false _ p t).trans (if_pos rfl)
  obtain ⟨⟨st, hst, hchooses⟩, hholds⟩ := chooses_play halone hs .fresh hread
  rw [List.nil_append] at hchooses
  have haloneq : Alone t q := play_induction halone (fun _ m h => h.step m) ns
  refine ⟨hchooses.length_le, fun hidle hpath => ?_, hholds, fun trouble => ?_,
    fun hprobed trouble hescaped => ?_⟩
  · refine hchooses.length_eq (fun j begun cancelled heq => ?_) ?_
    · exact hidle (haloneq.resume_mem (heq ▸ hst))
    · exact (Loop.shown?_of_stage? hst).symm.trans hpath
  · rw [Loop.ending?_eq_some_iff, ← hchooses.escaped_iff trouble]
    exact ⟨fun h => Option.some.inj (hst.symm.trans h), fun h => h ▸ hst⟩
  · rw [hescaped] at hchooses
    obtain ⟨why, hfolder⟩ := hchooses.why
    rw [(FileSystem.probed_iff hfs path).mp hprobed trouble why] at hfolder
    cases hfolder

/-- A page on which a folder is typed. -/
def typed (path : String) : List Move :=
  [.click "Ingest", .type "/path/to/project" path]

/-- A folder is read and what comes of it taken up. -/
def taken (path : String) : List Move :=
  [.turn, .read 0 ((default : FileSystem).collect path), .turn]

/-- The user is notified of a folder that is not there. -/
theorem verdict_of_missingFolder :
    let p := (opened localConfig sample.state.client default).play (typed "/tmp")
    (default : FileSystem).root.Sound ∧
    (∀ trouble, (default : FileSystem).collect "/tmp" = .error trouble →
      trouble.isOfFolder = true) ∧
    (verdicts 0 (p.step (.click "Choose Folder")) (taken "/tmp")).length = 1 ∧
    ∀ trouble, verdicts 0 (p.step (.click "Choose Folder")) (taken "/tmp") ≠
      [.escaped trouble] := by
  have hsound : (default : FileSystem).root.Sound := by decide +kernel
  have hprobed : ∀ trouble, (default : FileSystem).collect "/tmp" = .error trouble →
      trouble.isOfFolder = true := by
    have hcollect : (default : FileSystem).collect "/tmp" = .error (.notAFolder "/tmp") := by
      decide +kernel
    rw [hcollect]
    exact fun trouble h => by cases h; rfl
  obtain ⟨hiff, hpage⟩ := verdict_of_choice default hsound "/tmp"
  obtain ⟨_, hone, _, _, hescaped⟩ := hpage localConfig sample.state.client default (typed "/tmp")
    "Choose Folder" (taken "/tmp") (by decide +kernel) fun selected hmem =>
      And.right (by simpa [taken] using hmem)
  exact ⟨hsound, hprobed, hone (by decide +kernel) (by decide +kernel), hescaped (hiff.mpr hprobed)⟩

/-- **A home directory that is not known** is no trouble of the folder, and leaves the page. -/
theorem verdict_of_unknownHome :
    (¬∀ (fs : FileSystem) (path : String) (trouble : SelectionTrouble),
      fs.collect path = .error trouble → trouble.isOfFolder = true) ∧
    let p := (opened localConfig sample.state.client default).play (typed "~nosuchuser")
    let q := (p.step (.click "Choose Folder")).play (taken "~nosuchuser")
    q.ending? 0 = some (.raised (.folder (.home .unknown))) ∧ q.state.notifications = [] := by
  have hcollect : (default : FileSystem).collect "~nosuchuser" = .error (.home .unknown) := by
    decide +kernel
  refine ⟨fun hall => ?_, ?_, ?_⟩
  · cases hall default "~nosuchuser" (.home .unknown) hcollect
  · rfl
  · rfl

end CodeSession.Page
