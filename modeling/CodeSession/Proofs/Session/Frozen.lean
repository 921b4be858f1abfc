import CodeSession.Proofs.Session.Closing
import CodeSession.Proofs.Session.Messages
import CodeSession.Proofs.Session.Uploading

/-!
# Closed sessions

What changes the work of a closed session: its messages, whether one is pending, the status of the
ingestion and the selection.

* `Call.writes`, `MayWrite` -- the calls that began before the session was closed and still have
  something to write: a message, an upload, a folder that is read;
* `Spent.frozen` -- without such a call no step changes the work: every run of a call is `Silent`;
* `Frozen.not_writes`, `Frozen.isRevocable_eq_false` -- each such call gets its turn and writes;
* `frozen_iff_not_mayWrite` -- a closed session is frozen exactly if no such call is left.
-/

namespace CodeSession.Session

open Backend Folder

/-! ## 1. Work and who writes it -/

/-- The work that the user has started, as far as it shows. -/
structure Work where
  messages : List Message
  pending : Bool
  status : IngestStatus
  selection : List SelectedFile
  deriving DecidableEq

/-- The work in a state. -/
def World.work (w : World) : Work :=
  ⟨w.chat.messages, w.chat.pending, w.ingest.status, w.ingest.selection⟩

/-- Whether a call that is woken changes the work of a closed session. A message ends, whatever
    comes of it. An upload drops the selection at its end, and moves the status unless the end is
    stray. The files of a folder are selected, and uploaded if there are any and no upload is
    running. -/
def Call.writes (k : Work) : Call → Wake → Prop
  | .sending _, _ => True
  | .uploading ⟨_, some r⟩, .go => k.selection ≠ [] ∨ (Fate.landed r.answer).isStray = false
  | .uploading _, _ => k.selection ≠ []
  | .reading _ _ (some (.ok files)), .go =>
    files ≠ k.selection ∨ files ≠ [] ∧ k.status.phase ≠ .uploading
  | _, _ => False

/-- Whether the call at a stage may yet change the work of a closed session: it is queued and will,
    or it waits for a reply or for files, and what comes is open. -/
def MayWrite (k : Work) : Stage Call Result Failure → Prop
  | .queued c begun cancelled =>
    ∃ wake, Loop.wakeOf begun cancelled = some wake ∧ c.writes k wake
  | .waiting c _ => c.isRevocable = true
  | .ended _ => False

/-- Whether nothing but the dismissal of the banner changes the work from now on. -/
def Frozen (s : Session) : Prop :=
  ∀ ns, Move.acknowledge ∉ ns → (s.play ns).state.work = s.state.work

variable {s s' : Session} {m : Move} {t : TaskId} {c : Call} {wake : Wake} {w : World}
  {facts : Facts} {k : Work}

namespace Call

/-- Only a call that the one who launched it may cancel writes. -/
theorem isRevocable_of_writes (h : c.writes k wake) : c.isRevocable = true := by
  cases c with
  | sending x => rfl
  | uploading x => rfl
  | reading path held read => rfl
  | _ => exact False.elim h

/-- A call that writes when it is cancelled writes as well when it is not. -/
theorem writes_go (h : c.writes k .cancelled) : c.writes k .go := by
  cases c with
  | sending x => trivial
  | uploading x =>
    obtain ⟨n, _ | r⟩ := x
    · exact h
    · exact Or.inl h
  | reading path held read =>
    obtain _ | e | files := read
    · exact False.elim h
    · exact False.elim h
    · exact False.elim h
  | _ => exact False.elim h

theorem not_writes_of_isFresh (h : c.isFresh = true) : ¬c.writes k wake := by
  intro hw
  cases c with
  | sending x => cases h
  | uploading x => cases h
  | reading path held read => cases h
  | _ => exact False.elim hw

theorem isRevocable_take (r : Reply) (c : Call) : (c.take r).isRevocable = c.isRevocable := by
  cases c <;> rfl

theorem isRevocable_takeFiles (selected : Selected) (c : Call) :
    (c.takeFiles selected).isRevocable = c.isRevocable := by
  cases c <;> rfl

end Call

/-- A call that goes on does not wait any more. -/
theorem Placed.awaits_eq_false {begun cancelled : Bool} (h : Placed (.queued c begun cancelled))
    (hw : Loop.wakeOf begun cancelled = some .go) : c.awaits = false := by
  cases cancelled with
  | true => cases begun <;> cases hw
  | false =>
    cases begun with
    | false =>
      have hfresh : c.isFresh = true := h
      cases c <;> first | rfl | cases hfresh
    | true => exact And.right h

/-- Once the session is closed a background call is woken only to be cancelled. -/
theorem Tidy.wake_of_isBackground (ht : Tidy s) (hclosed : s.closed = true)
    (h : s.resumption? = some ⟨t, c, some wake⟩) (hb : c.kind.isBackground = true) :
    wake = .cancelled := by
  obtain ⟨_, begun, cancelled, hs, hw⟩ := Loop.resumption?_eq_some_iff.mp h
  obtain ⟨begun', hs'⟩ := ht.doomed hclosed t c (Loop.Resumption.continuation?_eq h) hb
  obtain ⟨⟩ := Option.some.inj (hs.symm.trans hs')
  cases begun with
  | false => cases hw
  | true => exact Option.some.inj hw

/-! ## 2. No writer is left -/

theorem exists_fault_of_isStray {outcome : Except CallTrouble String}
    (h : (Fate.landed outcome).isStray = true) : ∃ f, outcome = .error (.fault f) := by
  obtain (t | f) | message := outcome
  · cases h
  · exact ⟨f, rfl⟩
  · cases h

/-- Files are not uploaded if there are none or an upload is running. -/
theorem beginUpload_of_not {files : List SelectedFile}
    (h : ¬(files ≠ [] ∧ w.ingest.status.phase ≠ .uploading)) :
    beginUpload facts files w = w.done [] (some false) := by
  have hbusy : (files.isEmpty || !w.ingest.canChoose) = true := by
    by_cases hfiles : files = []
    · simp [hfiles]
    · have hphase : w.ingest.status.phase = .uploading := by simpa [hfiles] using h
      simp [Ingest.canChoose, hphase]
  unfold beginUpload
  rw [if_pos hbusy]

/-- A run that leaves the work alone, and after which the call does not wait for a reply or files. -/
structure Silent (w : World) (r : Run) : Prop where
  chat : r.state.chat = w.chat
  ingest : r.state.ingest = w.ingest
  pause : ∀ p c', r.next = .pause p c' → c'.isRevocable = false

/-- A run that ends and leaves the chat and the ingestion alone. -/
theorem silent_finish {w' : World} {orders : List (Order Call)} {e : Ending Result Failure}
    (hchat : w'.chat = w.chat) (hingest : w'.ingest = w.ingest) :
    Silent w ⟨w', orders, .finish e⟩ :=
  ⟨hchat, hingest, fun p c' h => by cases h⟩

/-- In a closed session a call that begins is refused. -/
theorem silent_of_isFresh (hclosed : facts.closed = true) (hc : c.isFresh = true)
    (hb : c.kind.isBackground = false) : Silent w (behaviour facts c .go w) := by
  have hrefused : ∀ r, behaviour facts c .go w = w.done [] r → Silent w (behaviour facts c .go w) := by
    intro r hr
    rw [hr]
    exact silent_finish rfl rfl
  cases c with
  | send text => exact hrefused (some false) (by simp [behaviour, proceed, beginSend, hclosed])
  | upload files => exact hrefused (some false) (by simp [behaviour, proceed, hclosed])
  | choose path => exact hrefused (some false) (by simp [behaviour, proceed, beginChoose, hclosed])
  | close => exact hrefused none (by simp [behaviour, proceed, beginClose, hclosed])
  | idle =>
    refine ⟨rfl, rfl, fun p c' h => ?_⟩
    have hidle : Tracking.idle facts Call.idle (none : Result) = .pause p c' := h
    unfold Tracking.idle at hidle
    split at hidle <;> cases hidle
    rfl
  | fetch number => cases hb
  | navigate => cases hb
  | _ => cases hc

theorem clear_of_selection {i : Ingest} (h : i.selection = []) : i.clear = i := by
  rw [Ingest.clear, Ingest.select, ← h]

/-- An upload that ends astray with no selection to drop. -/
theorem silent_endUpload {outcome : Except CallTrouble String} (hsel : w.ingest.selection = [])
    (hstray : (Fate.landed outcome).isStray = true) : Silent w (endUpload facts [] outcome w) := by
  obtain ⟨f, rfl⟩ := exists_fault_of_isStray hstray
  exact silent_finish rfl (clear_of_selection hsel)

/-- Files that were selected before and are not uploaded. -/
theorem silent_takeSelected {files : List SelectedFile} (hsame : files = w.ingest.selection)
    (hidle : ¬(files ≠ [] ∧ w.ingest.status.phase ≠ .uploading)) :
    Silent w (takeSelected facts (.ok files) w) := by
  have hselect : w.ingest.select files = w.ingest := by
    rw [hsame]
    rfl
  have hrun : takeSelected facts (.ok files) w = w.done [] (some false) := by
    show beginUpload facts files { w with ingest := w.ingest.select files } = _
    rw [hselect]
    exact beginUpload_of_not hidle
  rw [hrun]
  exact silent_finish rfl rfl

/-- **A run of a call that does not write, in a closed session.** -/
theorem silent_of_not_writes (facts : Facts) (hclosed : facts.closed = true)
    (hb : c.kind.isBackground = true → wake = .cancelled) (hgo : wake = .go → c.awaits = false)
    (h : ¬c.writes w.work wake) : Silent w (behaviour facts c wake w) := by
  cases wake with
  | cancelled =>
    cases c with
    | sending x => exact absurd trivial h
    | uploading x =>
      obtain ⟨n, _ | r⟩ := x
      · exact silent_finish rfl (clear_of_selection (Decidable.not_not.mp h))
      · exact silent_finish rfl (clear_of_selection (Decidable.not_not.mp h))
    | _ => exact silent_finish rfl rfl
  | go =>
    have hfront : c.kind.isBackground = false := by
      rw [← Bool.not_eq_true]
      intro hback
      cases hb hback
    cases c with
    | sending x => exact absurd trivial h
    | uploading x =>
      obtain ⟨n, _ | r⟩ := x
      · cases hgo rfl
      · obtain ⟨hsel, hstray⟩ := not_or.mp h
        exact silent_endUpload (Decidable.not_not.mp hsel) (Bool.not_eq_false _ ▸ hstray)
    | reading path held read =>
      obtain _ | e | files := read
      · cases hgo rfl
      · exact silent_finish rfl rfl
      · obtain ⟨hsame, hidle⟩ := not_or.mp h
        have hrun : behaviour facts (.reading path held (some (.ok files))) .go w =
            takeSelected facts (.ok files) w := rfl
        rw [hrun]
        exact silent_takeSelected (Decidable.not_not.mp hsame) hidle
    | closing => exact silent_finish rfl rfl
    | fetching number x => cases hfront
    | navigating => cases hfront
    | _ => exact silent_of_isFresh hclosed rfl hfront

/-- A call that may not be cancelled by the one who launched it does not write. -/
theorem not_mayWrite_of_isRevocable {st : Stage Call Result Failure}
    (h : ∀ c, st.continuation? = some c → c.isRevocable = false) : ¬MayWrite k st := by
  intro hw
  cases st with
  | queued c begun cancelled =>
    obtain ⟨wake, _, hw⟩ := hw
    have hrev := Call.isRevocable_of_writes hw
    rw [h c rfl] at hrev
    cases hrev
  | waiting c v =>
    have hrev : c.isRevocable = true := hw
    rw [h c rfl] at hrev
    cases hrev
  | ended e => exact hw

/-- Where a call that does not write drifts, it does not write. -/
theorem Drift.not_mayWrite {st st' : Stage Call Result Failure} (hd : Drift st st')
    (h : ¬MayWrite k st) : ¬MayWrite k st' := by
  cases hd with
  | stirs hst =>
    cases hst with
    | same => exact h
    | woken c v hv =>
      refine not_mayWrite_of_isRevocable fun c' e => ?_
      cases e
      exact Bool.not_eq_true _ ▸ h
    | counted c m n => exact h
  | revoked hc hrev =>
    cases st with
    | queued c begun cancelled =>
      rintro ⟨wake, hwake, hw⟩
      have hwake : Loop.wakeOf begun true = some wake := hwake
      cases begun with
      | false => cases hwake
      | true =>
        obtain rfl : Wake.cancelled = wake := Option.some.inj hwake
        cases cancelled with
        | true => exact h ⟨.cancelled, rfl, hw⟩
        | false => exact h ⟨.go, rfl, Call.writes_go hw⟩
    | waiting c v =>
      cases hc
      exact absurd hrev h
    | ended e => exact h
  | answered r hc =>
    refine not_mayWrite_of_isRevocable fun c' e => ?_
    cases e
    rw [Call.isRevocable_take]
    exact Bool.not_eq_true _ ▸ h
  | delivered selected hc =>
    refine not_mayWrite_of_isRevocable fun c' e => ?_
    cases e
    rw [Call.isRevocable_takeFiles]
    exact Bool.not_eq_true _ ▸ h

/-- A closed session with no call left that writes. -/
structure Spent (s : Session) : Prop where
  tidy : Tidy s
  closed : s.closed = true
  quiet : ∀ t st, s.stage? t = some st → ¬MayWrite s.state.work st

theorem Spent.calm (h : Spent s) (hc : Calm s m s') (ht : Tidy s') (hm : m ≠ .acknowledge) :
    Spent s' ∧ s'.state.work = s.state.work := by
  have hwork : s'.state.work = s.state.work := by
    have hi : s'.state.ingest = s.state.ingest := by
      rw [hc.ingest]
      cases m with
      | acknowledge => exact absurd rfl hm
      | _ => rfl
    rw [World.work, hc.messages, hc.pending, hi, World.work]
  refine ⟨⟨ht, hc.closed.trans h.closed, fun i st' hs' => ?_⟩, hwork⟩
  rw [hwork]
  rcases hc.stage_before hs' with ⟨st, hs, hd | rfl⟩ | ⟨_, c, harr, rfl⟩
  · exact hd.not_mayWrite (h.quiet i st hs)
  · exact fun e => e
  · rintro ⟨wake, _, hw⟩
    exact Call.not_writes_of_isFresh harr.isFresh hw

theorem Spent.run (h : Spent s) (hres : s.resumption? = some ⟨t, c, some wake⟩) :
    Spent (s.step .turn) ∧ (s.step .turn).state.work = s.state.work := by
  obtain ⟨_, begun, cancelled, hs, hwake⟩ := Loop.resumption?_eq_some_iff.mp hres
  have tame := h.tidy.tame c wake
  have hgo : wake = .go → c.awaits = false := by
    rintro rfl
    exact (h.tidy.placed t _ hs).awaits_eq_false hwake.symm
  have hsilent : Silent s.state (behaviour s.facts c wake s.state) :=
    silent_of_not_writes s.facts h.closed (h.tidy.wake_of_isBackground h.closed hres) hgo
      fun hw => h.quiet t _ hs ⟨wake, hwake.symm, hw⟩
  have hwork : (s.step .turn).state.work = s.state.work := by
    rw [state_of_run hres, World.work, hsilent.chat, hsilent.ingest, World.work]
  refine ⟨⟨tidy_step h.tidy .turn, closed_step h.tidy .turn h.closed, fun i st' hs' => ?_⟩, hwork⟩
  rw [hwork]
  rcases Loop.stage?_turned_of_run hres hs' with ⟨rfl, he⟩ | ⟨hit, st, hst, ⟨hmem, he⟩ | ⟨_, he⟩⟩ |
    ⟨_, hopen, _⟩
  · -- a call that pauses is none that writes
    refine not_mayWrite_of_isRevocable fun c' hc' => ?_
    rw [he] at hc'
    obtain ⟨p, hn⟩ := Loop.exists_pause_of_after hc'
    exact hsilent.pause p c' hn
  · -- only the return to the chat is cancelled
    have hn : s.state.ingest.navigation = some i := (tame.cancels i hmem).resolve_right fun hseal => by
      have hopen : s.closed = false := (tame.seals hseal).2.1
      rw [h.closed] at hopen
      cases hopen
    refine not_mayWrite_of_isRevocable fun c' hc' => ?_
    rw [he, Stage.continuation?_cancel] at hc'
    have hk := (h.tidy.navigation i hn).2 c' ((Loop.continuation?_of_stage? hst).trans hc')
    cases c' <;> first | rfl | cases hk
  · exact he ▸ h.quiet i st hst
  · rw [h.closed] at hopen
    cases hopen

/-- **A closed session with no call left that writes is frozen, step by step.** -/
theorem Spent.step (h : Spent s) (hm : m ≠ .acknowledge) :
    Spent (s.step m) ∧ (s.step m).state.work = s.state.work := by
  rcases calm_or_run h.tidy.listeners m with hc | ⟨rfl, t, c, wake, hres⟩
  · exact h.calm hc (tidy_step h.tidy m) hm
  · exact h.run hres

theorem Spent.frozen (h : Spent s) : Frozen s := by
  intro ns
  induction ns generalizing s with
  | nil => exact fun _ => rfl
  | cons m ns ih =>
    intro hns
    obtain ⟨hm, hns⟩ := not_or.mp fun e => hns (List.mem_cons.mpr e)
    obtain ⟨hnext, hwork⟩ := h.step (Ne.symm hm)
    exact (ih hnext hns).trans hwork

/-! ## 3. A writer writes -/

/-- Files that are uploaded while no upload is running, and not answered at once, leave the phase
    `uploading`: either the upload is under way, or it was refused. -/
theorem phase_beginUpload (facts : Facts) {files : List SelectedFile} (hfiles : files ≠ [])
    (h : w.ingest.status.phase ≠ .uploading) (hp : w.client.prepared .upload = .inTurn []) :
    (beginUpload facts files w).state.ingest.status.phase = .uploading := by
  have hbusy : ¬(files.isEmpty || !w.ingest.canChoose) = true := by
    simp [hfiles, Ingest.canChoose, h]
  unfold beginUpload
  rw [if_neg hbusy]
  dsimp only
  rw [Ingest.set?_uploading_prepare h]
  dsimp only
  cases hsend : (w.client.send (.upload files)).2 with
  | refused f => rfl
  | outstanding n => rfl
  | answered n r =>
    -- nothing is prepared
    unfold Client.send at hsend
    split at hsend
    · cases hsend
    · split at hsend
      · cases hsend
      · simp [Request.endpoint, hp, Prepared.next] at hsend

/-- A call that writes changes the work when it runs. -/
theorem work_ne_of_writes (facts : Facts) (hp : w.client.prepared .upload = .inTurn [])
    (hgo : wake = .go → c.awaits = false) (hsend : c.sending?.isSome = true → w.IsPending)
    (hup : c.uploading?.isSome = true → w.IsUploading) (h : c.writes w.work wake) :
    (behaviour facts c wake w).state.work ≠ w.work := by
  intro hsame
  cases c with
  | sending x =>
    have hpending : w.work.pending = true := hsend rfl
    have hdone : (behaviour facts (.sending x) wake w).state.work.pending = false := by
      cases wake with
      | cancelled => rfl
      | go =>
        obtain ⟨n, _ | r⟩ := x
        · cases hgo rfl
        · show (endSend r.answer w).state.chat.pending = false
          unfold endSend
          dsimp only
          split <;> rfl
    rw [hsame, hpending] at hdone
    cases hdone
  | uploading x =>
    obtain ⟨n, reply⟩ := x
    have hphase : w.work.status.phase = .uploading := hup rfl
    cases wake with
    | cancelled =>
      have hempty : w.work.selection = [] := by
        rw [← hsame]
        rfl
      cases reply with
      | none => exact h hempty
      | some r => exact h hempty
    | go =>
      cases reply with
      | none => cases hgo rfl
      | some r =>
        have hrun : (endUpload facts [] r.answer w).state.work = w.work := hsame
        rcases h with hsel | hstray
        · have hempty : (endUpload facts [] r.answer w).state.work.selection = [] :=
            selection_endUpload r.answer
          rw [hrun] at hempty
          exact hsel hempty
        · have hleft : (endUpload facts [] r.answer w).state.work.status.phase = .uploading := by
            rw [hrun, hphase]
          rw [(phase_endUpload r.answer hphase).mp hleft] at hstray
          cases hstray
  | reading path held read =>
    obtain _ | e | files := read
    · cases wake <;> exact False.elim h
    · cases wake <;> exact False.elim h
    · cases wake with
      | cancelled => exact False.elim h
      | go =>
        -- the world in which the files are selected
        have hrun : (beginUpload facts files { w with ingest := w.ingest.select files }).state.work =
            w.work := hsame
        by_cases hidle : files ≠ [] ∧ w.work.status.phase ≠ .uploading
        · have hphase := phase_beginUpload facts
            (w := { w with ingest := w.ingest.select files }) hidle.1 hidle.2 hp
          have hleft : w.work.status.phase = .uploading := by
            rw [← hrun]
            exact hphase
          exact hidle.2 hleft
        · rw [beginUpload_of_not (w := { w with ingest := w.ingest.select files }) hidle] at hrun
          have hselect : files = w.work.selection := by
            rw [← hrun]
            rfl
          exact h.elim (fun hne => hne hselect) hidle
  | _ => exact False.elim h

/-! ## 4. A writer gets its turn -/

/-- A closed session, with what holds of its messages and uploads. -/
structure Shut (s : Session) : Prop where
  tidy : Tidy s
  closed : s.closed = true
  messages : ∃ ends, Guarded messages s ends
  uploads : ∃ ends, Guarded uploads s ends

theorem shut_step (h : Shut s) (m : Move) : Shut (s.step m) where
  tidy := tidy_step h.tidy m
  closed := closed_step h.tidy m h.closed
  messages := by
    obtain ⟨ends, hg⟩ := h.messages
    exact ⟨_, guarded_step hg h.tidy m⟩
  uploads := by
    obtain ⟨ends, hg⟩ := h.uploads
    exact ⟨_, guarded_step hg h.tidy m⟩

theorem shut_play (client : Client) (delay : Binary64) (greeting : Option String)
    (files : FileSystem) (ms : List Move)
    (h : ((opened client delay greeting files).play ms).closed = true) :
    Shut ((opened client delay greeting files).play ms) where
  tidy := tidy_play client delay greeting files ms
  closed := h
  messages := ⟨_, guarded_play messages client delay greeting files ms⟩
  uploads := ⟨_, guarded_play uploads client delay greeting files ms⟩

theorem Frozen.step (h : Frozen s) (hm : m ≠ .acknowledge) :
    Frozen (s.step m) ∧ (s.step m).state.work = s.state.work := by
  have hfirst : (s.step m).state.work = s.state.work :=
    h [m] fun e => hm (List.mem_singleton.mp e).symm
  refine ⟨fun ns hns => ?_, hfirst⟩
  rw [hfirst]
  exact h (m :: ns) fun e => (List.mem_cons.mp e).elim (fun e => hm e.symm) hns

theorem Frozen.play {ns : List Move} (h : Frozen s) (hs : Shut s) (hns : .acknowledge ∉ ns) :
    Frozen (s.play ns) ∧ Shut (s.play ns) ∧ (s.play ns).state.work = s.state.work := by
  induction ns generalizing s with
  | nil => exact ⟨h, hs, rfl⟩
  | cons m ns ih =>
    obtain ⟨hm, hns⟩ := not_or.mp fun e => hns (List.mem_cons.mpr e)
    obtain ⟨hnext, hwork⟩ := h.step (Ne.symm hm)
    obtain ⟨hf, hshut, hwork'⟩ := ih hnext (shut_step hs m) hns
    exact ⟨hf, hshut, hwork'.trans hwork⟩

/-- Turn after turn is a run. -/
theorem iterate_turned (n : Nat) (s : Session) :
    (Loop.turned behaviour)^[n] s = s.play (List.replicate n .turn) := by
  induction n generalizing s with
  | zero => rfl
  | succ n ih => exact ih (s.step .turn)

/-- In a closed session other turns leave a message, an upload or a folder in the queue alone. -/
theorem stage?_turned_of_isRevocable {begun cancelled : Bool} (ht : Tidy s)
    (hclosed : s.closed = true) (hs : s.stage? t = some (.queued c begun cancelled))
    (hc : c.isRevocable = true) (hr : ∀ r, s.resumption? = some r → r.task ≠ t) :
    (s.turned behaviour).stage? t = s.stage? t := by
  rw [hs]
  refine Loop.stage?_turned_of_ne hs (fun st' hst => by cases hst; rfl) hr
    fun u c' wake _ hmem => ?_
  have tame := ht.tame c' wake
  rcases tame.cancels t hmem with hn | hseal
  · have hk := (ht.navigation t hn).2 c (by rw [Loop.continuation?_of_stage? hs]; rfl)
    have hb := Call.isBackground_of_isRevocable hc
    rw [hk] at hb
    cases hb
  · have hopen : s.closed = false := (tame.seals hseal).2.1
    rw [hclosed] at hopen
    cases hopen

/-- In a closed session that is frozen a call that writes is not next, if no reply is prepared for an
    upload. -/
theorem Frozen.not_writes_of_resumption (hf : Frozen s) (h : Shut s)
    (hres : s.resumption? = some ⟨t, c, some wake⟩)
    (hp : s.state.client.prepared .upload = .inTurn []) : ¬c.writes s.state.work wake := by
  intro hw
  obtain ⟨_, begun, cancelled, hs, hwake⟩ := Loop.resumption?_eq_some_iff.mp hres
  obtain ⟨sent, hmessages⟩ := h.messages
  obtain ⟨ended, huploads⟩ := h.uploads
  have hshown : ∀ {α : Type} (show? : Call → Option α), s.shown? show? t = show? c := fun show? => by
    rw [Loop.shown?_of_stage? hs]
    rfl
  have hgo : wake = .go → c.awaits = false := by
    rintro rfl
    exact (h.tidy.placed t _ hs).awaits_eq_false hwake.symm
  have hsend : c.sending?.isSome = true → s.state.IsPending := fun hx =>
    hmessages.flag t (by rw [Guard.Holds, hshown]; exact hx)
  have hup : c.uploading?.isSome = true → s.state.IsUploading := fun hx =>
    huploads.flag t (by rw [Guard.Holds, hshown]; exact hx)
  have hstate := state_of_run hres
  refine work_ne_of_writes s.facts hp hgo hsend hup hw ?_
  rw [← hstate]
  exact (hf.step fun e => by cases e).2

/-- In a closed session that is frozen no queued call writes. -/
theorem Frozen.not_writes {begun cancelled : Bool} (hf : Frozen s) (h : Shut s)
    (hs : s.stage? t = some (.queued c begun cancelled))
    (hwake : Loop.wakeOf begun cancelled = some wake) : ¬c.writes s.state.work wake := by
  intro hw
  obtain ⟨n, hn⟩ := Loop.exists_resumption (b := behaviour) (P := Shut)
    (fun l hl => shut_step hl .turn)
    (fun l hl hst hr => stage?_turned_of_isRevocable hl.tidy hl.closed hst
      (Call.isRevocable_of_writes hw) hr)
    h hs (h.tidy.lined.queued t c begun cancelled hs)
  rw [iterate_turned, hwake] at hn
  -- the state when its turn comes, and with no reply prepared for an upload
  have hturns : Move.acknowledge ∉ List.replicate n Move.turn := fun e => by
    cases List.eq_of_mem_replicate e
  obtain ⟨hf', h', hwork⟩ := hf.play h hturns
  have hm : Move.prepare .upload (.inTurn []) ≠ .acknowledge := fun e => by cases e
  obtain ⟨hf'', hwork'⟩ := hf'.step hm
  refine hf''.not_writes_of_resumption (shut_step h' _) hn rfl ?_
  rw [hwork', hwork]
  exact hw

theorem Call.pause_of_isRevocable {p : Pause} (hc : c.isRevocable = true)
    (hp : c.mayPause p = true) : p = .signal := by
  cases p with
  | signal => rfl
  | sleep ticks => cases c <;> simp_all [Call.mayPause, Call.isRevocable]
  | tasks ids => cases c <;> simp_all [Call.mayPause, Call.isRevocable]

theorem stage?_step_answer (r : Reply) (hs : s.stage? t = some (.waiting c .signal))
    (hc : c.request?.isSome = true) :
    (s.step (.answer t r)).stage? t = some (.queued (c.take r) true false) := by
  have hshown : (s.shown? Call.request? t).isSome = true := by
    rw [Loop.shown?_of_stage? hs]
    exact hc
  simp [step, answer, hshown, Loop.signal, hs]

theorem stage?_step_read (selected : Selected) (hs : s.stage? t = some (.waiting c .signal))
    (hc : c.path?.isSome = true) :
    (s.step (.read t selected)).stage? t = some (.queued (c.takeFiles selected) true false) := by
  have hshown : (s.shown? Call.path? t).isSome = true := by
    rw [Loop.shown?_of_stage? hs]
    exact hc
  simp [step, deliver, hshown, Loop.signal, hs]

/-- In a closed session that is frozen nothing waits that may be cancelled: what it waits for could
    come. -/
theorem Frozen.isRevocable_eq_false {v : Wait} (hf : Frozen s) (h : Shut s)
    (hs : s.stage? t = some (.waiting c v)) : c.isRevocable = false := by
  rw [← Bool.not_eq_true]
  intro hrev
  have hplaced : c.mayPause v.pause = true := h.tidy.placed t _ hs
  obtain rfl : v = .signal := by
    have hv := Call.pause_of_isRevocable hrev hplaced
    cases v <;> first | rfl | cases hv
  have hlater : ∀ m, m ≠ .acknowledge → ∀ c' : Call,
      (s.step m).stage? t = some (.queued c' true false) → ¬c'.writes s.state.work .go := by
    intro m hm c' hstage
    obtain ⟨hf', hwork⟩ := hf.step hm
    rw [← hwork]
    exact hf'.not_writes (shut_step h m) hstage rfl
  cases c with
  | sending x =>
    obtain ⟨n, _ | r⟩ := x
    · exact hlater _ (fun e => by cases e) _ (stage?_step_answer (.broken "") hs rfl) trivial
    · cases hplaced
  | uploading x =>
    obtain ⟨n, _ | r⟩ := x
    · exact hlater _ (fun e => by cases e) _ (stage?_step_answer (.broken "") hs rfl) (.inr rfl)
    · cases hplaced
  | reading path held read =>
    cases read with
    | none =>
      -- one file more than are selected
      have hother : s.state.work.selection ++ [⟨"", [], ""⟩] ≠ s.state.work.selection := by simp
      exact hlater _ (fun e => by cases e) _ (stage?_step_read (.ok _) hs rfl) (.inl hother)
    | some selected => cases hplaced
  | _ => first | cases hplaced | cases hrev

/-! ## 5. When a closed session is frozen -/

/-- **A closed session is frozen exactly if no message, upload or folder is left under way that has
    something to write.** It is closed once a close has returned (`closed_of_closeReturns`). -/
theorem frozen_iff_not_mayWrite (client : Client) (delay : Binary64) (greeting : Option String)
    (files : FileSystem) (ms : List Move) :
    let s := (opened client delay greeting files).play ms
    s.closed = true → (Frozen s ↔ ∀ t st, s.stage? t = some st → ¬MayWrite s.state.work st) := by
  intro s hclosed
  have h : Shut s := shut_play client delay greeting files ms hclosed
  constructor
  · intro hf t st hs hw
    cases st with
    | queued c begun cancelled =>
      obtain ⟨wake, hwake, hw⟩ := hw
      exact hf.not_writes h hs hwake hw
    | waiting c v =>
      have hrev : c.isRevocable = true := hw
      rw [hf.isRevocable_eq_false h hs] at hrev
      cases hrev
    | ended e => exact hw
  · intro hno
    exact Spent.frozen ⟨h.tidy, h.closed, hno⟩

/-- A session is closed after a message was answered and an upload has succeeded, while its return to
    the chat waits and a folder is still being read. -/
def closedAtWork : List Move :=
  [.launch (.send (some "hi")), .turn, .answer 0 (.common 200 [104, 101, 108, 108, 111] none), .turn,
    .launch (.upload [⟨"project/a.txt", [97], "text/plain"⟩]), .turn,
    .answer 1 (.common 200 [111, 107] none), .turn, .launch (.choose "/notes"), .turn,
    .launch .close, .turn, .turn, .turn, .turn, .turn, .turn]

/-- The folder turns out to be missing. -/
def missedFolder : List Move :=
  closedAtWork ++ [.read 3 (.error (.notAFolder "/notes")), .turn]

/-- The session is not frozen as long as the folder is read, but it is once the folder turns out to
    be missing. -/
theorem frozen_of_missedFolder :
    closeReturns sample closedAtWork = [4] ∧ ¬Frozen (sample.play closedAtWork) ∧
      Frozen (sample.play missedFolder) := by
  have hover : (sample.play missedFolder).closed = true ∧
      ∀ t < (sample.play missedFolder).tasks.length,
        ((sample.play missedFolder).continuation? t).isNone = true := by decide +kernel
  refine ⟨by decide +kernel, fun hf => ?_, ?_⟩
  · have hsame := hf [.read 3 (.ok [⟨"notes/a.txt", [97], "text/plain"⟩]), .turn] (by simp)
    revert hsame
    decide +kernel
  · refine (frozen_iff_not_mayWrite _ _ _ _ missedFolder hover.1).mpr fun t st hs => ?_
    refine not_mayWrite_of_isRevocable fun c hc => ?_
    have hcont : (sample.play missedFolder).continuation? t = some c :=
      (Loop.continuation?_of_stage? hs).trans hc
    have hnone := hover.2 t (Loop.lt_of_stage? hs)
    rw [hcont] at hnone
    cases hnone

/-- A session that is closed while a message is under way is not frozen: the answer is taken up after
    the close has returned. -/
theorem not_frozen_of_closed_early :
    closeReturns sample [.launch (.send (some "hi")), .turn, .launch .close, .turn] = [1] ∧
      ¬Frozen (sample.play [.launch (.send (some "hi")), .turn, .launch .close, .turn]) := by
  refine ⟨by decide +kernel, fun hf => ?_⟩
  have hsame := hf [.answer 0 (.common 200 [104, 101, 108, 108, 111] none), .turn] (by simp)
  revert hsame
  decide +kernel

end CodeSession.Session
