import CodeSession.Proofs.Folder.Listing
import CodeSession.Proofs.Session.Erasure
import CodeSession.Proofs.Session.Reckoning
import CodeSession.Proofs.Session.Selections

/-!
# Calls with a folder

A call with a folder uploads all that was read, in one request, or it is as if it had not been made.

* `passed?` -- the files that a call passes to the client, for upload; `requests_of_passed` -- they are
  sent in one request, unless the client refuses it;
* `Outset` -- how the session stands when the call begins to run;
* `Undisturbed` -- no other upload runs while the folder is read;
* `Errand`, `errand_play` -- how far the call has come, with what it has passed;
* `Unmade` -- a run is, but for the call, the run without it;
* `selection_all_or_nothing` -- the two together.
-/

namespace CodeSession.Session

open Backend Folder

variable {facts : Facts} {w : World} {s : Session} {m : Move} {t u : TaskId} {c : Call} {wake : Wake}
  {path : String} {files : List SelectedFile}

/-! ## 1. Runs of a call with a folder -/

/-- The files that a call passes to the client in a move, for upload. -/
def passed? (t : TaskId) (s : Session) (m : Move) : Option (List SelectedFile) :=
  match s.resumed? m with
  | some ⟨u, c, some wake⟩ =>
    if u = t ∧ accepts c wake (behaviour s.facts c wake s.state) = true then c.files? else none
  | _ => none

/-- How a session stands to uploads. -/
structure Outset where
  closed : Bool
  phase : IngestPhase
  deriving DecidableEq

/-- Whether no upload may begin: the session is closed, or an upload is running. -/
def Outset.IsBarred (o : Outset) : Prop :=
  o.closed = true ∨ o.phase = .uploading

/-- How the session stands when a call with a folder begins to run in a move. -/
def outset? (t : TaskId) (s : Session) (m : Move) : Option Outset :=
  match s.resumed? m with
  | some ⟨u, .choose _, some .go⟩ =>
    if u = t then some ⟨s.closed, s.state.ingest.status.phase⟩ else none
  | _ => none

theorem passed?_of_run (h : s.resumption? = some ⟨t, c, some wake⟩) : s.passed? t .turn =
    if accepts c wake (behaviour s.facts c wake s.state) = true then c.files? else none := by
  simp only [passed?, resumed?, h, true_and]

theorem passed?_of_files?_eq_none (h : s.resumption? = some ⟨t, c, some wake⟩)
    (hfiles : c.files? = none) : s.passed? t .turn = none := by
  rw [passed?_of_run h, hfiles]
  exact ite_self none

/-- What is passed by a call is passed in its own runs. -/
theorem passed?_of_ne (hr : ∀ r, s.resumed? m = some r → r.task ≠ t) : s.passed? t m = none := by
  unfold passed?
  split
  · rename_i u c wake hres
    exact if_neg fun h => hr _ hres h.1
  · rfl

theorem outset?_of_ne (hr : ∀ r, s.resumed? m = some r → r.task ≠ t) : s.outset? t m = none := by
  unfold outset?
  split
  · rename_i u path hres
    exact if_neg (hr _ hres)
  · rfl

/-- A call with a folder is refused in a closed session and while an upload is running. -/
theorem behaviour_choose_of_barred (h : facts.closed = true ∨ w.ingest.status.phase = .uploading) :
    behaviour facts (.choose path) .go w = w.done [] (some false) := by
  have hbarred : (facts.closed || !w.ingest.canChoose) = true := by
    rcases h with h | h
    · rw [h, Bool.true_or]
    · simp [Ingest.canChoose, h]
  exact if_pos hbarred

theorem behaviour_choose_of_not_barred
    (h : ¬(facts.closed = true ∨ w.ingest.status.phase = .uploading)) :
    behaviour facts (.choose path) .go w = w.await [] (.reading path w.readsHeld none) := by
  obtain ⟨hopen, hfree⟩ := not_or.mp h
  have hchoose : w.ingest.canChoose = true := Ingest.canChoose_eq_true_iff.mpr hfree
  have hnot : ¬(facts.closed || !w.ingest.canChoose) = true := by simp [hopen, hchoose]
  exact if_neg hnot

/-- A folder without files is refused, with the selection empty. -/
theorem behaviour_reading_of_empty (facts : Facts) (path : String) (held : Bool) (w : World) :
    behaviour facts (.reading path held (some (.ok []))) .go w =
      { w with ingest := w.ingest.clear }.done [] (some false) :=
  beginUpload_refused facts (w := { w with ingest := w.ingest.clear }) (.inl rfl)

/-- Files that are there while no upload is running are taken up. -/
theorem isRefusal_beginUpload (facts : Facts) (hfiles : files ≠ [])
    (h : w.ingest.status.phase ≠ .uploading) : isRefusal (beginUpload facts files w).next = false :=
  Bool.eq_false_iff.mpr fun hrefusal =>
    ((beginUpload_given facts files w).1.mp hrefusal).elim hfiles h

/-- A call that took up files has an upload under way, or is over. -/
theorem uploading_of_beginUpload (facts : Facts) (hfiles : files ≠ [])
    (h : w.ingest.status.phase ≠ .uploading)
    (hc : (beginUpload facts files w).next.continuation? = some c) :
    c.uploading?.isSome = true := by
  have hover : ∀ orders w' outcome,
      (landUpload facts orders w' outcome).next.continuation? ≠ some c := by
    intro orders w' outcome hc
    obtain (trouble | f) | message := outcome <;> cases hc
  rw [beginUpload_eq facts hfiles h] at hc
  dsimp only at hc
  generalize (w.client.send (.upload files)).2 = sending at hc
  cases sending with
  | refused f => exact absurd hc (hover _ _ _)
  | answered n r => exact absurd hc (hover _ _ _)
  | outstanding n =>
    cases hc
    rfl

/-- An upload that is not refused asks the client for it. -/
theorem client_of_not_refused (facts : Facts) (h : isRefusal (beginUpload facts files w).next = false) :
    (beginUpload facts files w).state.client = (w.client.send (.upload files)).1 := by
  have hrefused : ¬(files = [] ∨ w.ingest.status.phase = .uploading) := fun hrefused => by
    rw [(beginUpload_given facts files w).1.mpr hrefused] at h
    cases h
  obtain ⟨hfiles, hfree⟩ := not_or.mp hrefused
  exact (beginUpload_of_canChoose facts hfiles (Ingest.canChoose_eq_true_iff.mpr hfree)).1

/-- A call that takes up the files that it was given asks the client to upload them. -/
theorem client_of_accepts (h : accepts c wake (behaviour facts c wake w) = true)
    (hfiles : c.files? = some files) :
    (behaviour facts c wake w).state.client = (w.client.send (.upload files)).1 := by
  obtain ⟨hgo, hnext⟩ := Bool.and_eq_true_iff.mp h
  have hrefusal : isRefusal (behaviour facts c wake w).next = false := by simpa using hnext
  obtain rfl : wake = .go := by simpa using (Bool.and_eq_true_iff.mp hgo).1
  cases c with
  | upload files' =>
    cases hfiles
    have hbehaviour : behaviour facts (.upload files) .go w =
        if facts.closed then w.done [] (some false) else beginUpload facts files w := rfl
    rw [hbehaviour] at hrefusal ⊢
    split at hrefusal
    · cases hrefusal
    · rename_i hopen
      rw [if_neg hopen]
      exact client_of_not_refused facts hrefusal
  | reading path held read =>
    obtain _ | _ | files' := read
    · cases hfiles
    · cases hfiles
    · cases hfiles
      exact client_of_not_refused facts (w := { w with ingest := w.ingest.select files }) hrefusal
  | _ => cases hfiles

/-- **Files that are passed are those of a request that the client is asked for.** -/
theorem client_of_passed? (h : s.passed? t m = some files) :
    (s.step m).state.client = (s.state.client.send (.upload files)).1 := by
  unfold passed? at h
  split at h
  · rename_i u c wake hr
    obtain rfl := turn_of_resumed? hr
    split at h
    · rename_i haccepts
      rw [state_of_run hr]
      exact client_of_accepts haccepts.2 h
    · cases h
  · cases h

/-- A call that does not take up the files that it was given asks the client for nothing. -/
theorem client_of_not_accepts (h : accepts c wake (behaviour facts c wake w) = false)
    (hfiles : c.files? = some files) : (behaviour facts c wake w).state.client = w.client := by
  have hrefused : ∀ w' : World, isRefusal (beginUpload facts files w').next = true →
      (beginUpload facts files w').state.client = w'.client := fun w' hrefusal => by
    rw [beginUpload_refused facts ((beginUpload_given facts files w').1.mp hrefusal)]
    rfl
  cases wake with
  | cancelled =>
    cases c with
    | upload files' => rfl
    | reading path held read => rfl
    | _ => cases hfiles
  | go =>
    have hrefusal : isRefusal (behaviour facts c .go w).next = true := by
      simpa [accepts, hfiles] using h
    cases c with
    | upload files' =>
      cases hfiles
      have hbehaviour : behaviour facts (.upload files) .go w =
          if facts.closed then w.done [] (some false) else beginUpload facts files w := rfl
      rw [hbehaviour] at hrefusal ⊢
      split at hrefusal
      · rename_i hclosed
        rw [if_pos hclosed]
        rfl
      · rename_i hopen
        rw [if_neg hopen]
        exact hrefused w hrefusal
    | reading path held read =>
      obtain _ | _ | files' := read
      · cases hfiles
      · cases hfiles
      · cases hfiles
        exact hrefused { w with ingest := w.ingest.select files } hrefusal
    | _ => cases hfiles

theorem files?_of_load? (h : c.load? = some (.held files)) : c.files? = some files := by
  cases c with
  | upload files' => cases h; rfl
  | reading path held read => obtain _ | _ | files' := read <;> cases h; rfl
  | _ => cases h

/-- **What the client sends for a call was passed by it.** -/
theorem passed?_of_issued? (ht : Tidy s) {b : Batch} (h : s.issued? m = some b) :
    s.passed? b.call m = some b.files := by
  rcases calm_or_run ht.listeners m with hc | ⟨rfl, u, c, wake, hrun⟩
  · rw [issued?_of_calm hc] at h
    cases h
  · obtain ⟨hcall, hload⟩ := held_of_issued? ht hrun h
    have hfiles := files?_of_load? hload
    rw [hcall, passed?_of_run hrun]
    cases haccepts : accepts c wake (behaviour s.facts c wake s.state) with
    | true => exact hfiles
    | false =>
      -- nothing was sent
      have hclient := client_of_not_accepts haccepts hfiles
      have hbatches := batches_run ht hrun
      rw [state_of_run hrun, hclient, h] at hbatches
      simp at hbatches

/-- **What a call passes is sent in one request**, unless the client refuses it. -/
theorem issued?_of_passed? (h : s.passed? t m = some files) :
    (∃ f, (s.state.client.send (.upload files)).2 = .refused f) ∧ s.issued? m = none ∨
      s.issued? m = some ⟨t, files⟩ := by
  have hclient := client_of_passed? h
  have hresumed : ∃ c wake, s.resumed? m = some ⟨t, c, wake⟩ := by
    unfold passed? at h
    split at h
    · rename_i u c wake hr
      split at h
      · rename_i hown
        exact ⟨c, some wake, hown.1 ▸ hr⟩
      · cases h
    · cases h
  obtain ⟨c, wake, hresumed⟩ := hresumed
  rcases sent_send (.upload files) s.state.client with ⟨f, hsend⟩ | ⟨hsent, -⟩
  · refine .inl ⟨⟨f, by rw [hsend]⟩, ?_⟩
    simp [issued?, hresumed, hclient, hsend]
  · refine .inr ?_
    simp [issued?, hresumed, hclient, Client.batches, hsent, Request.batch?]

/-- The client sends what is sent for calls, and no files else. -/
theorem batches_step (ht : Tidy s) (m : Move) : (s.step m).state.client.batches =
    s.state.client.batches ++ (s.issued? m).toList.map Batch.files := by
  rcases calm_or_run ht.listeners m with hc | ⟨rfl, u, c, wake, hrun⟩
  · have hsent : (s.step m).state.client.sent = s.state.client.sent := by
      rw [hc.state]
      exact (m.client_onState ht.listeners s.closed).2
    rw [issued?_of_calm hc, Client.batches, hsent, ← Client.batches]
    exact (List.append_nil _).symm
  · exact batches_run ht hrun

theorem batches_play (ht : Tidy s) (ns : List Move) : (s.play ns).state.client.batches =
    s.state.client.batches ++ (log issued? s ns).map Batch.files := by
  induction ns generalizing s with
  | nil => exact (List.append_nil _).symm
  | cons m ns ih =>
    rw [play_cons, ih (tidy_step ht m), batches_step ht m, log_cons, List.map_append,
      List.append_assoc]

/-- A call that passes nothing has no request. -/
theorem requests_of_nothing_passed (ht : Tidy s) {ns : List Move}
    (h : log (passed? t) s ns = []) : (log issued? s ns).filter (fun b => b.call = t) = [] := by
  refine List.filter_eq_nil_iff.mpr fun b hb hcall => ?_
  obtain ⟨before, m, after, rfl, hissued⟩ := exists_of_mem_log hb
  have hpassed := passed?_of_issued? (play_induction ht (fun _ m h => tidy_step h m) before) hissued
  rw [of_decide_eq_true hcall] at hpassed
  rw [log_append, log_cons, hpassed] at h
  simp at h

/-- **The files that a call passes are sent in one request**, unless the client refuses them, and
    then in none. -/
theorem requests_of_passed (ht : Tidy s) {ns : List Move} (h : log (passed? t) s ns = [files]) :
    let requests := (log issued? s ns).filter fun b => b.call = t
    requests = [⟨t, files⟩] ∨ requests = [] ∧ ∃ before m after f, ns = before ++ m :: after ∧
      (s.play before).passed? t m = some files ∧
      ((s.play before).state.client.send (.upload files)).2 = .refused f := by
  intro requests
  obtain ⟨before, m, after, rfl, hpassed⟩ :=
    exists_of_mem_log (h ▸ List.mem_singleton_self files)
  have ht' := play_induction ht (fun _ m h => tidy_step h m) before
  rw [log_append, log_cons, hpassed] at h
  have hothers : log (passed? t) s before = [] ∧
      log (passed? t) ((s.play before).step m) after = [] := by
    have hlength := congrArg List.length h
    simp only [List.length_append, Option.toList_some, List.length_singleton] at hlength
    constructor <;> refine List.length_eq_zero_iff.mp ?_ <;> omega
  have hrequests : requests =
      ((s.play before).issued? m).toList.filter fun b => b.call = t := by
    show (log issued? s (before ++ m :: after)).filter _ = _
    rw [log_append, log_cons, List.filter_append, List.filter_append,
      requests_of_nothing_passed ht hothers.1, requests_of_nothing_passed (tidy_step ht' m) hothers.2,
      List.append_nil, List.nil_append]
  rcases issued?_of_passed? hpassed with ⟨⟨f, hrefused⟩, hnone⟩ | hissued
  · refine .inr ⟨?_, before, m, after, f, rfl, hpassed, hrefused⟩
    rw [hrequests, hnone]
    rfl
  · refine .inl ?_
    rw [hrequests, hissued]
    simp

/-! ## 2. The course of a call with a folder -/

/-- Whether a move runs another call with files or a folder while a call has its folder read. -/
def overlaps (t : TaskId) (s : Session) (m : Move) : Bool :=
  (s.continuation? t).any Call.isReading && (s.resumed? m).any fun r =>
    r.wake.isSome && r.task != t && r.continuation.kind == .upload

/-- Whether a call has its folder read in a run without another upload. The session may be closed
    meanwhile. -/
def Undisturbed (t : TaskId) : Session → List Move → Prop
  | _, [] => True
  | s, m :: ms => s.overlaps t m = false ∧ Undisturbed t (s.step m) ms

/-- Whether a run is undisturbed can be decided. -/
def decidableUndisturbed (t : TaskId) : ∀ (s : Session) (ms : List Move),
    Decidable (s.Undisturbed t ms)
  | _, [] => .isTrue trivial
  | s, m :: ms =>
    have := decidableUndisturbed t (s.step m) ms
    inferInstanceAs (Decidable (s.overlaps t m = false ∧ Undisturbed t (s.step m) ms))

instance (ms : List Move) : Decidable (s.Undisturbed t ms) :=
  decidableUndisturbed t s ms

/-- Whether nothing is uploaded, whatever comes: no upload might begin, or there are no files. -/
def Futile (outsets : List Outset) (found : Selected) : Prop :=
  (∃ o ∈ outsets, o.IsBarred) ∨ found = .ok [] ∨ ∃ trouble, found = .error trouble

/-- How far a call with a folder has come, given what is found in the folder, whether the call has
    been cancelled, how the session stood when it began to run, and what it has passed. -/
inductive Errand (path : String) (found : Selected) (t : TaskId) (revoked : Prop)
    (outsets : List Outset) (batches : List (List SelectedFile)) (s : Session) : Prop where
  | launched (cancelled : Bool) (hs : s.stage? t = some (.queued (.choose path) false cancelled))
    (hrevoked : cancelled = true → revoked) (hfree : ∀ o ∈ outsets, ¬o.IsBarred)
    (hnone : batches = [])
  | waiting (held : Bool) (hs : s.stage? t = some (.waiting (.reading path held none) .signal))
    (hphase : s.state.ingest.status.phase ≠ .uploading) (hfree : ∀ o ∈ outsets, ¬o.IsBarred)
    (hnone : batches = [])
  | reading (held cancelled : Bool) (read : Option Selected)
    (hs : s.stage? t = some (.queued (.reading path held read) true cancelled))
    (hread : cancelled = true ∧ revoked ∨ cancelled = false ∧ read = some found)
    (hphase : s.state.ingest.status.phase ≠ .uploading) (hfree : ∀ o ∈ outsets, ¬o.IsBarred)
    (hnone : batches = [])
  | sent (files : List SelectedFile) (hfound : found = .ok files) (hfiles : files ≠ [])
    (hs : ∀ c, s.continuation? t = some c → c.uploading?.isSome = true)
    (hfree : ∀ o ∈ outsets, ¬o.IsBarred) (hbatches : batches = [files])
  | gone (hs : s.Over t) (hwhy : revoked ∨ Futile outsets found) (hnone : batches = [])

section Errand

variable {found : Selected} {revoked : Prop} {outsets : List Outset}
  {batches : List (List SelectedFile)}

/-- While the folder is read no upload begins. -/
theorem phase_of_not_overlaps (hl : Lone t s) (hover : s.overlaps t m = false)
    (hreading : (s.continuation? t).any Call.isReading = true)
    (hr : ∀ r, s.resumed? m = some r → r.task ≠ t)
    (hphase : s.state.ingest.status.phase ≠ .uploading) :
    (s.step m).state.ingest.status.phase ≠ .uploading := by
  have hlisteners := hl.tidy.listeners
  rcases calm_or_run hlisteners m with hcalm | ⟨rfl, u, c, wake, hrun⟩
  · exact fun hp => hphase ((uploads.calm s m _ hcalm).mp hp)
  · have hkind : c.kind ≠ .upload := by
      have hne : u ≠ t := hr _ hrun
      have hres : s.resumed? .turn = some ⟨u, c, some wake⟩ := hrun
      simpa [overlaps, hreading, hres, hne] using hover
    rw [state_of_run hrun]
    exact fun hp => hphase ((isUploading_of_kind hkind (touches_behaviour c wake hlisteners)).mp hp)

/-- **A step that is no run of the call.** -/
theorem Errand.outside (h : Errand path found t revoked outsets batches s) (hl : Lone t s)
    (hread : ∀ selected, m = .read t selected → selected = found) (hover : s.overlaps t m = false)
    (hr : ∀ r, s.resumed? m = some r → r.task ≠ t) :
    Errand path found t (revoked ∨ m = .revoke t) outsets batches (s.step m) := by
  cases h with
  | launched cancelled hs hrevoked hfree hnone =>
    obtain ⟨st', hs', hreach⟩ := hl.reaches hs hr
    cases hreach with
    | nothing => exact .launched cancelled hs' (fun hc => .inl (hrevoked hc)) hfree hnone
    | revoked => exact .launched true hs' (fun _ => .inr rfl) hfree hnone
  | waiting held hs hphase hfree hnone =>
    have hphase' := phase_of_not_overlaps hl hover
      (by rw [Loop.continuation?_of_stage? hs]; rfl) hr hphase
    obtain ⟨st', hs', hreach⟩ := hl.reaches hs hr
    cases hreach with
    | nothing => exact .waiting held hs' hphase' hfree hnone
    | revoked => exact .reading held true none hs' (.inl ⟨rfl, .inr rfl⟩) hphase' hfree hnone
    | answered r hc => cases hc
    | delivered selected hc =>
      exact .reading held false (some selected) hs' (.inr ⟨rfl, congrArg some (hread selected rfl)⟩)
        hphase' hfree hnone
  | reading held cancelled read hs hstands hphase hfree hnone =>
    have hphase' := phase_of_not_overlaps hl hover
      (by rw [Loop.continuation?_of_stage? hs]; rfl) hr hphase
    obtain ⟨st', hs', hreach⟩ := hl.reaches hs hr
    cases hreach with
    | nothing =>
      exact .reading held cancelled read hs' (hstands.imp_left fun h => ⟨h.1, .inl h.2⟩) hphase' hfree
        hnone
    | revoked => exact .reading held true read hs' (.inl ⟨rfl, .inr rfl⟩) hphase' hfree hnone
  | sent files hfound hfiles hs hfree hbatches =>
    refine .sent files hfound hfiles (fun c' hc' => ?_) hfree hbatches
    rcases calm_or_run hl.tidy.listeners m with hcalm | ⟨rfl, u, c, wake, hrun⟩
    · rcases hcalm.continuation_before hc' with ⟨c, hc, hreceives⟩ | ⟨hnew, _⟩
      · have hsame : c'.uploading? = c.uploading? := by
          cases hreceives with
          | nothing => rfl
          | reply r => exact steady_uploading?.take r c
          | files selected => exact steady_uploading?.takeFiles selected c
        rw [hsame]
        exact hs c hc
      · exact absurd hl.apart.lt (hnew ▸ Nat.lt_irrefl _)
    · rcases continuation_before_run hrun hc' with ⟨heq, _⟩ | ⟨_, hold⟩ | ⟨hle, _⟩
      · exact absurd heq.symm (hr _ hrun)
      · exact hs c' hold
      · exact absurd hl.apart.lt (Nat.not_lt.mpr hle)
  | gone hs hwhy hnone => exact .gone (over_step hl.tidy hs m) (hwhy.imp_left .inl) hnone

/-- A call that is next runs what it stands at. -/
theorem resumption_of_queued {wake : Option Wake} {c' : Call} {begun cancelled : Bool}
    (hr : s.resumption? = some ⟨t, c, wake⟩)
    (hs : s.stage? t = some (.queued c' begun cancelled)) :
    c = c' ∧ wake = Loop.wakeOf begun cancelled := by
  obtain ⟨_, begun', cancelled', hs', hwake⟩ := Loop.resumption?_eq_some_iff.mp hr
  obtain ⟨⟩ := Option.some.inj (hs.symm.trans hs')
  exact ⟨rfl, hwake⟩

theorem over_of_run (hl : Lone t s) (hrun : s.resumption? = some ⟨t, c, some wake⟩)
    (hnext : (behaviour s.facts c wake s.state).next.continuation? = none) :
    (s.step .turn).Over t :=
  ⟨(lone_step hl .turn).apart.lt, (continuation?_of_run hrun).trans hnext⟩

/-- Only a call with a folder begins to run as one. -/
theorem outset?_of_run {wake : Option Wake} (hr : s.resumption? = some ⟨t, c, wake⟩)
    (hc : (∀ path, c ≠ .choose path) ∨ wake = none) : s.outset? t .turn = none := by
  simp only [outset?, resumed?, hr]
  split
  · rename_i heq
    obtain ⟨⟩ := Option.some.inj heq
    rcases hc with hc | hc
    · exact absurd rfl (hc _)
    · cases hc
  · rfl

/-- The call is dropped if it was cancelled before it began. -/
theorem over_of_drop (hl : Lone t s) (hr : s.resumption? = some ⟨t, c, none⟩) :
    (s.step .turn).Over t := by
  have hstage : (s.step .turn).stage? t = some (.ended .cancelled) := by
    obtain ⟨_, begun, cancelled, hs, _⟩ := Loop.resumption?_eq_some_iff.mp hr
    have hpopped : Loop.stage? (Loop.popped s) t = s.stage? t := rfl
    rw [step_turn, Loop.turned_of_drop hr, Loop.stage?_finish, if_pos rfl, hpopped, hs]
    rfl
  exact ⟨(lone_step hl .turn).apart.lt, Loop.continuation?_of_stage? hstage⟩

/-- A call that begins to run is refused, or waits for its folder. -/
theorem errand_of_launched (hl : Lone t s) (hr : s.resumption? = some ⟨t, .choose path, some .go⟩)
    (hfree : ∀ o ∈ outsets, ¬o.IsBarred) :
    Errand path found t revoked (outsets ++ (s.outset? t .turn).toList)
      ([] ++ (s.passed? t .turn).toList) (s.step .turn) := by
  have houtset : s.outset? t .turn = some ⟨s.closed, s.state.ingest.status.phase⟩ := by
    simp [outset?, resumed?, hr]
  rw [houtset, passed?_of_files?_eq_none hr rfl]
  by_cases hbarred : s.closed = true ∨ s.state.ingest.status.phase = .uploading
  · have hover : (s.step .turn).Over t := by
      refine over_of_run hl hr ?_
      rw [behaviour_choose_of_barred hbarred]
      rfl
    exact .gone hover (.inr (.inl ⟨_, List.mem_append_right _ (.head _), hbarred⟩)) rfl
  · have hbehaviour : behaviour s.facts (.choose path) .go s.state =
        s.state.await [] (.reading path s.state.readsHeld none) :=
      behaviour_choose_of_not_barred hbarred
    have hstage : (s.step .turn).stage? t =
        some (.waiting (.reading path s.state.readsHeld none) .signal) := by
      rw [step_turn, Loop.stage?_turned_self hr, hbehaviour]
      rfl
    refine .waiting _ hstage ?_ (fun o ho => ?_) rfl
    · rw [state_of_run hr, hbehaviour]
      exact fun hp => hbarred (.inr hp)
    · rcases List.mem_append.mp ho with ho | ho
      · exact hfree o ho
      · cases List.mem_singleton.mp ho
        exact hbarred

/-- Files that are there are passed, all of them, if no upload is running. -/
theorem passed?_of_found {held : Bool}
    (hr : s.resumption? = some ⟨t, .reading path held (some (.ok files)), some .go⟩)
    (hfiles : files ≠ []) (hphase : s.state.ingest.status.phase ≠ .uploading) :
    s.passed? t .turn = some files := by
  have htaken := isRefusal_beginUpload s.facts hfiles
    (w := { s.state with ingest := s.state.ingest.select files }) hphase
  have haccepts : accepts (.reading path held (some (.ok files))) .go
      (behaviour s.facts (.reading path held (some (.ok files))) .go s.state) = true :=
    congrArg not htaken
  rw [passed?_of_run hr, if_pos haccepts]
  rfl

/-- A call whose folder has been read passes all files that are there, or none. -/
theorem errand_of_found {held : Bool} (hl : Lone t s)
    (hr : s.resumption? = some ⟨t, .reading path held (some found), some .go⟩)
    (hphase : s.state.ingest.status.phase ≠ .uploading) (hfree : ∀ o ∈ outsets, ¬o.IsBarred) :
    Errand path found t revoked outsets ([] ++ (s.passed? t .turn).toList) (s.step .turn) := by
  obtain trouble | files := found
  · rw [passed?_of_files?_eq_none hr rfl]
    exact .gone (over_of_run hl hr rfl) (.inr (.inr (.inr ⟨trouble, rfl⟩))) rfl
  · by_cases hfiles : files = []
    · subst hfiles
      have hbehaviour := behaviour_reading_of_empty s.facts path held s.state
      have hpassed : s.passed? t .turn = none := by
        rw [passed?_of_run hr, hbehaviour]
        rfl
      have hover : (s.step .turn).Over t := by
        refine over_of_run hl hr ?_
        rw [hbehaviour]
        rfl
      rw [hpassed]
      exact .gone hover (.inr (.inr (.inl rfl))) rfl
    · rw [passed?_of_found hr hfiles hphase]
      refine .sent files rfl hfiles (fun c' hc' => ?_) hfree rfl
      exact uploading_of_beginUpload s.facts hfiles
        (w := { s.state with ingest := s.state.ingest.select files }) hphase
        ((continuation?_of_run hr).symm.trans hc')

/-- **A run of the call.** -/
theorem Errand.own {wake : Option Wake} (h : Errand path found t revoked outsets batches s)
    (hl : Lone t s) (hr : s.resumption? = some ⟨t, c, wake⟩) :
    Errand path found t revoked (outsets ++ (s.outset? t .turn).toList)
      (batches ++ (s.passed? t .turn).toList) (s.step .turn) := by
  cases h with
  | launched cancelled hs hrevoked hfree hnone =>
    obtain ⟨rfl, rfl⟩ := resumption_of_queued hr hs
    subst hnone
    cases cancelled with
    | false => exact errand_of_launched hl hr hfree
    | true =>
      have hpassed : s.passed? t .turn = none := by simp [passed?, resumed?, hr, Loop.wakeOf]
      rw [outset?_of_run hr (.inr rfl), hpassed]
      exact .gone (over_of_drop hl hr) (.inl (hrevoked rfl)) rfl
  | waiting held hs hphase hfree hnone =>
    obtain ⟨_, begun, cancelled, hs', _⟩ := Loop.resumption?_eq_some_iff.mp hr
    cases hs.symm.trans hs'
  | reading held cancelled read hs hread hphase hfree hnone =>
    obtain ⟨rfl, rfl⟩ := resumption_of_queued hr hs
    subst hnone
    rw [outset?_of_run hr (.inl fun path h => by cases h), Option.toList_none, List.append_nil]
    rcases hread with ⟨rfl, hrevoked⟩ | ⟨rfl, rfl⟩
    · have hrun : s.resumption? = some ⟨t, .reading path held read, some .cancelled⟩ := hr
      have hpassed : s.passed? t .turn = none := by
        rw [passed?_of_run hrun]
        rfl
      rw [hpassed]
      exact .gone (over_of_run hl hrun rfl) (.inl hrevoked) rfl
    · exact errand_of_found hl hr hphase hfree
  | sent files hfound hfiles hs hfree hbatches =>
    have hup := hs c (Loop.Resumption.continuation?_eq hr)
    have hc : (∀ path, c ≠ .choose path) ∧ c.files? = none ∧ c.isFresh = false := by
      cases c with
      | uploading x => exact ⟨fun path h => (by cases h), rfl, rfl⟩
      | _ => cases hup
    rw [outset?_of_run hr (.inl hc.1), Option.toList_none, List.append_nil]
    cases wake with
    | none =>
      have hfresh := hl.tidy.isFresh_of_dropped (m := .turn) hr rfl
      rw [hc.2.2] at hfresh
      cases hfresh
    | some wake =>
      rw [passed?_of_files?_eq_none hr hc.2.1, Option.toList_none, List.append_nil]
      refine .sent files hfound hfiles (fun c' hc' => ?_) hfree hbatches
      exact uploading_stays s.facts wake s.state hup ((continuation?_of_run hr).symm.trans hc')
  | gone hs hwhy hnone => cases hs.2.symm.trans (Loop.Resumption.continuation?_eq hr)

/-- **Every step takes the call on its course.** -/
theorem errand_step (h : Errand path found t revoked outsets batches s) (hl : Lone t s)
    (hread : ∀ selected, m = .read t selected → selected = found)
    (hover : s.overlaps t m = false) :
    Errand path found t (revoked ∨ m = .revoke t) (outsets ++ (s.outset? t m).toList)
      (batches ++ (s.passed? t m).toList) (s.step m) := by
  by_cases hr : ∀ r, s.resumed? m = some r → r.task ≠ t
  · rw [outset?_of_ne hr, passed?_of_ne hr, Option.toList_none, Option.toList_none, List.append_nil,
      List.append_nil]
    exact h.outside hl hread hover hr
  · obtain ⟨⟨t, c, wake⟩, hres, rfl⟩ : ∃ r, s.resumed? m = some r ∧ r.task = t := by
      simpa using hr
    obtain rfl := turn_of_resumed? hres
    have hown := h.own hl hres
    have hrevoked : (revoked ∨ Move.turn = .revoke t) ↔ revoked := by simp
    rw [propext hrevoked]
    exact hown

/-- **In every run that does not disturb it the call keeps to its course.** -/
theorem errand_play {ms : List Move} (h : Errand path found t revoked outsets batches s)
    (hl : Lone t s) (hread : ∀ selected, .read t selected ∈ ms → selected = found)
    (hundisturbed : s.Undisturbed t ms) :
    Errand path found t (revoked ∨ .revoke t ∈ ms) (outsets ++ log (outset? t) s ms)
      (batches ++ log (passed? t) s ms) (s.play ms) := by
  induction ms generalizing s revoked outsets batches with
  | nil => simpa using h
  | cons m ms ih =>
    have hfirst := errand_step h hl (fun selected hm => hread selected (hm ▸ List.mem_cons_self))
      hundisturbed.1
    have hrest := ih hfirst (lone_step hl m)
      (fun selected hm => hread selected (List.mem_cons_of_mem _ hm)) hundisturbed.2
    have hrevoked : (revoked ∨ .revoke t ∈ m :: ms) ↔
        ((revoked ∨ m = .revoke t) ∨ .revoke t ∈ ms) := by
      rw [List.mem_cons, or_assoc, eq_comm]
    rw [propext hrevoked, log_cons, log_cons, ← List.append_assoc, ← List.append_assoc]
    exact hrest

theorem undisturbed_append {before after : List Move} :
    s.Undisturbed t (before ++ after) ↔
      s.Undisturbed t before ∧ (s.play before).Undisturbed t after := by
  induction before generalizing s with
  | nil => simp [Undisturbed]
  | cons m before ih =>
    show (_ ∧ (s.step m).Undisturbed t (before ++ after)) ↔
      (_ ∧ (s.step m).Undisturbed t before) ∧ _
    rw [ih, and_assoc]
    rfl

/-! ## 3. A call that passes nothing -/

/-- A run of a call that passes nothing asks for nothing, if no files were selected before. -/
theorem Errand.unnoticed (h : Errand path found t revoked outsets [] s)
    (hselection : s.state.ingest.selection ≠ [] → s.state.ingest.status.phase = .uploading)
    (hpassed : s.passed? t .turn = none) : s.Unnoticed t := by
  intro c wake hr
  cases h with
  | launched cancelled hs hrevoked hfree hnone =>
    obtain ⟨rfl, hwake⟩ := resumption_of_queued hr hs
    cases cancelled with
    | true => cases hwake
    | false =>
      cases hwake
      by_cases hbarred : s.closed = true ∨ s.state.ingest.status.phase = .uploading
      · rw [behaviour_choose_of_barred hbarred]
        exact ⟨rfl, rfl⟩
      · rw [behaviour_choose_of_not_barred hbarred]
        exact ⟨rfl, rfl⟩
  | waiting held hs hphase hfree hnone =>
    obtain ⟨_, begun, cancelled, hs', _⟩ := Loop.resumption?_eq_some_iff.mp hr
    cases hs.symm.trans hs'
  | reading held cancelled read hs hread hphase hfree hnone =>
    obtain ⟨rfl, hwake⟩ := resumption_of_queued hr hs
    rcases hread with ⟨rfl, _⟩ | ⟨rfl, rfl⟩
    · cases hwake
      exact ⟨rfl, rfl⟩
    · cases hwake
      obtain trouble | files := found
      · exact ⟨rfl, rfl⟩
      · by_cases hfiles : files = []
        · subst hfiles
          have hempty : s.state.ingest.selection = [] :=
            Decidable.byContradiction fun hne => hphase (hselection hne)
          have hclear : s.state.ingest.clear = s.state.ingest :=
            congrArg (fun selection => { s.state.ingest with selection := selection }) hempty.symm
          rw [behaviour_reading_of_empty]
          exact ⟨congrArg (fun ingest => { s.state with ingest := ingest }) hclear, rfl⟩
        · rw [passed?_of_found hr hfiles hphase] at hpassed
          cases hpassed
  | sent files hfound hfiles hs hfree hbatches => cases hbatches
  | gone hs hwhy hnone => cases hs.2.symm.trans (Loop.Resumption.continuation?_eq hr)

/-- In a turn in which a run of its own asks for nothing the state stays as it is. -/
theorem Unnoticed.state (h : s.Unnoticed t) (hlisteners : s.state.tabs.listeners = [viewer])
    (hhead : s.ready.head? = some (.resume t)) : (s.step .turn).state = s.state := by
  rcases calm_or_run hlisteners .turn with hcalm | ⟨_, u, c, wake, hrun⟩
  · exact hcalm.state
  · have hfront := (Loop.resumption?_eq_some_iff.mp hrun).1
    obtain rfl : u = t := Callback.resume.inj (Option.some.inj (hfront.symm.trans hhead))
    rw [state_of_run hrun]
    exact (h c wake hrun).1

/-- No turn of a call that passes nothing in a run is noticed. -/
theorem unnoticed_play {ms : List Move} (h : Errand path found t revoked outsets [] s)
    (hl : Lone t s) (hread : ∀ selected, .read t selected ∈ ms → selected = found)
    (hundisturbed : s.Undisturbed t ms) (hpassed : log (passed? t) s ms = [])
    (hselection : ∀ before, (s.play before).state.ingest.selection ≠ [] →
      (s.play before).state.ingest.status.phase = .uploading) {before after : List Move}
    (hms : ms = before ++ .turn :: after) : (s.play before).Unnoticed t := by
  subst hms
  rw [log_append, log_cons, List.append_eq_nil_iff, List.append_eq_nil_iff] at hpassed
  have herrand := errand_play h hl
    (fun selected hmem => hread selected (List.mem_append_left _ hmem))
    (undisturbed_append.mp hundisturbed).1
  rw [hpassed.1] at herrand
  exact herrand.unnoticed (hselection before) (Option.toList_eq_nil_iff.mp hpassed.2.1)

/-- A call that has not come to a request is neither over nor has one under way. -/
theorem not_done (hc : s.continuation? t = some c) (hup : c.uploading? = none) :
    ¬(s.Over t ∨ s.Uploads t) := by
  rintro (hover | huploads)
  · cases hover.2.symm.trans hc
  · rw [Uploads, Loop.shown?, hc, Option.bind_some, hup] at huploads
    cases huploads

end Errand

/-- A run without the call that it begins with. -/
def sparing (s : Session) (d : Demand) (ns : List Move) : List Move :=
  (s.step (.launch d)).spared s.tasks.length ns

/-- A run that begins with a call is, but for the call, the run without it. The sessions differ by the
    call alone, and the returns to the chat are carried out at the same times. -/
structure Unmade (s : Session) (d : Demand) (ns : List Move) : Prop where
  session : (s.play (.launch d :: ns)).without s.tasks.length = s.play (s.sparing d ns)
  status : (s.play (.launch d :: ns)).state.ingest.status =
    (s.play (s.sparing d ns)).state.ingest.status
  selection : (s.play (.launch d :: ns)).state.ingest.selection =
    (s.play (s.sparing d ns)).state.ingest.selection
  tabs : (s.play (.launch d :: ns)).state.tabs = (s.play (s.sparing d ns)).state.tabs
  chat : (s.play (.launch d :: ns)).state.chat = (s.play (s.sparing d ns)).state.chat
  inspection : (s.play (.launch d :: ns)).state.inspection =
    (s.play (s.sparing d ns)).state.inspection
  returns : log returnTime? s (.launch d :: ns) = log returnTime? s (s.sparing d ns)

/-- A call with files or a folder whose runs ask for nothing might as well not have been made. -/
theorem unmade_of_unnoticed (ht : Tidy s) (hs : Loop.Scoped s) {d : Demand}
    (hd : d.call.kind = .upload) {ns : List Move}
    (hquiet : ∀ before after, ns = before ++ .turn :: after →
      ((s.step (.launch d)).play before).Unnoticed s.tasks.length) : s.Unmade d ns := by
  have hl := lone_launch ht hs hd
  have hlaunch := without_step_launch hs ht d
  have hsession : (s.play (.launch d :: ns)).without s.tasks.length = s.play (s.sparing d ns) := by
    rw [play_cons, without_play hl hquiet, hlaunch]
    rfl
  have hstate : (s.play (s.sparing d ns)).state =
      (s.play (.launch d :: ns)).state.rename (skip s.tasks.length) :=
    congrArg Loop.state hsession.symm
  have hreturns := log_returnTime?_spared hl hquiet
  rw [hlaunch] at hreturns
  exact {
    session := hsession
    status := by rw [hstate]; rfl
    selection := by rw [hstate]; rfl
    tabs := by rw [hstate]; rfl
    chat := by rw [hstate]; rfl
    inspection := by rw [hstate]; rfl
    returns := hreturns.symm }

/-- **A folder that is chosen is uploaded whole, or it is as if it had not been chosen.** For every
    tree of files and every session, whatever else happens but that another upload runs while the
    folder is read: the call passes all files of the folder to the client in one request, or none. The
    client, which sends what is sent for calls and no files else, sends that request and no other one
    for the call, unless it refuses it. If the call is not cancelled and has come to its end or to its
    request, it passes none just if the session was closed or an upload was running when it began to
    run, or the folder has no files or cannot be read; one file that is denied is enough for that. If
    it passes none, the run is the one without the call, and no turn of the call changes anything. -/
theorem selection_all_or_nothing (client : Client) (delay : Binary64) (greeting : Option String)
    (files : FileSystem) (ms : List Move) (path : String) (ns : List Move) :
    let s := (opened client delay greeting files).play ms
    let t := s.tasks.length
    let start := s.step (.launch (.choose path))
    let passed := log (passed? t) start ns
    let issued := log issued? start ns
    let requests := issued.filter fun b => b.call = t
    let found := files.collect path
    (∀ selected, .read t selected ∈ ns → selected = found) → start.Undisturbed t ns →
    (passed = [] ∨ ∃ batch, found = .ok batch ∧ batch ≠ [] ∧ passed = [batch]) ∧
    (∀ before m after batch, ns = before ++ m :: after →
      (start.play before).passed? t m = some batch →
      ((start.play before).step m).state.client =
        ((start.play before).state.client.send (.upload batch)).1) ∧
    (start.play ns).state.client.batches = s.state.client.batches ++ issued.map Batch.files ∧
    (requests.map Batch.files = passed ∨ requests = [] ∧ ∃ before m after batch f,
      ns = before ++ m :: after ∧ (start.play before).passed? t m = some batch ∧
      ((start.play before).state.client.send (.upload batch)).2 = .refused f) ∧
    (.revoke t ∉ ns → (start.play ns).Over t ∨ (start.play ns).Uploads t →
      (passed = [] ↔ (∃ o ∈ log (outset? t) start ns, o.closed = true ∨ o.phase = .uploading) ∨
        found = .ok [] ∨ ∃ trouble, found = .error trouble)) ∧
    (∀ folder, files.root.Sound → files.Denotes path folder → ¬files.Readable folder →
      ∃ trouble, found = .error trouble) ∧
    (passed = [] → s.Unmade (.choose path) ns ∧
      ∀ before after, ns = before ++ .turn :: after →
        (start.play before).ready.head? = some (.resume t) →
        ((start.play before).step .turn).state = (start.play before).state) := by
  intro s t start passed issued requests found hread hundisturbed
  have ht : Tidy s := tidy_play client delay greeting files ms
  have hs : Loop.Scoped s := scoped_play client delay greeting files ms
  have hl : Lone t start := lone_launch ht hs rfl
  have hselection : ∀ before, (start.play before).state.ingest.selection ≠ [] →
      (start.play before).state.ingest.status.phase = .uploading := fun before => by
    have hplay : (opened client delay greeting files).play (ms ++ .launch (.choose path) :: before) =
        start.play before := play_append _ _ _
    rw [← hplay]
    exact (unmixed_play client delay greeting files _).selection
  have hlaunched : Errand path found t False [] [] start := by
    refine .launched false ?_ (fun h => by cases h) (fun o ho => by cases ho) rfl
    exact (Loop.stage?_add "" false _ s t).trans (if_pos rfl)
  have herrand := errand_play hlaunched hl hread hundisturbed
  rw [List.nil_append, List.nil_append] at herrand
  have hstart : Tidy start := tidy_step ht _
  have hone : passed = [] ∨ ∃ batch, found = .ok batch ∧ batch ≠ [] ∧ passed = [batch] := by
    cases herrand with
    | sent batch hfound hbatch _ _ hbatches => exact .inr ⟨batch, hfound, hbatch, hbatches⟩
    | launched _ _ _ _ hnone => exact .inl hnone
    | waiting _ _ _ _ hnone => exact .inl hnone
    | reading _ _ _ _ _ _ _ hnone => exact .inl hnone
    | gone _ _ hnone => exact .inl hnone
  refine ⟨hone, fun before m after batch _ => client_of_passed?, batches_play hstart ns, ?_,
    fun hrevoke hdone => ?_, ?_, ?_⟩
  · rcases hone with hnone | ⟨batch, -, -, hbatch⟩
    · have hrequests : requests = [] := requests_of_nothing_passed hstart hnone
      exact .inl (by rw [hrequests, hnone, List.map_nil])
    · rcases requests_of_passed hstart hbatch with hsent | ⟨hnone, before, m, after, f, hrefused⟩
      · have hrequests : requests = [⟨t, batch⟩] := hsent
        exact .inl (by rw [hrequests, hbatch, List.map_singleton])
      · exact .inr ⟨hnone, before, m, after, batch, f, hrefused⟩
  · cases herrand with
    | launched _ hst => exact absurd hdone (not_done (Loop.continuation?_of_stage? hst) rfl)
    | waiting _ hst => exact absurd hdone (not_done (Loop.continuation?_of_stage? hst) rfl)
    | reading _ _ _ hst => exact absurd hdone (not_done (Loop.continuation?_of_stage? hst) rfl)
    | sent batch hfound hbatch _ hfree hbatches =>
      constructor
      · intro hnone
        cases hbatches.symm.trans hnone
      · rintro (⟨o, ho, hbarred⟩ | hempty | ⟨trouble, herror⟩)
        · exact absurd hbarred (hfree o ho)
        · cases hfound.symm.trans hempty
          exact absurd rfl hbatch
        · cases hfound.symm.trans herror
    | gone _ hwhy hnone =>
      have hfutile := hwhy.resolve_left fun h => h.elim id hrevoke
      exact ⟨fun _ => hfutile, fun _ => hnone⟩
  · exact fun folder hsound hpath hdenied =>
      FileSystem.collect_of_not_readable hsound hpath hdenied
  · intro hpassed
    have hquiet : ∀ before after, ns = before ++ .turn :: after →
        (start.play before).Unnoticed t := fun before after hns =>
      unnoticed_play hlaunched hl hread hundisturbed hpassed hselection hns
    refine ⟨unmade_of_unnoticed ht hs rfl hquiet, fun before after hns hhead => ?_⟩
    exact (hquiet before after hns).state (lone_play hl before).tidy.listeners hhead

/-- A folder with a file that is denied. -/
def lockedFolder : FileSystem where
  root := .folder [("p", .folder [("b.txt", .file [121])])]
  workingFolder := []
  home := "/"
  unreadable := [["p", "b.txt"]]

/-- A session that is to return to the chat in three ticks, as an upload has succeeded. -/
def returning : Session :=
  (opened sample.state.client (.finite false 3) none lockedFolder).play (answeredUpload ++ [.turn])

/-- The folder is read in vain, and three ticks pass. -/
def lockedOut : List Move :=
  [.turn, .turn, .read 2 (lockedFolder.collect "/p"), .turn, .wait 3, .turn, .turn]

/-- **The return to the chat comes on time**, though a folder was chosen that cannot be read. -/
theorem selection_of_lockedFolder :
    let t := returning.tasks.length
    let start := returning.step (.launch (.choose "/p"))
    (∀ selected, .read t selected ∈ lockedOut → selected = lockedFolder.collect "/p") ∧
    start.Undisturbed t lockedOut ∧
    log (passed? t) start lockedOut = [] ∧
    returning.Unmade (.choose "/p") lockedOut ∧
    log returnTime? returning (returning.sparing (.choose "/p") lockedOut) = [3] := by
  intro t start
  have ht : t = 2 := by decide +kernel
  have hread : ∀ selected, .read t selected ∈ lockedOut → selected = lockedFolder.collect "/p" := by
    intro selected hmem
    rw [ht] at hmem
    simpa [lockedOut] using hmem
  have hundisturbed : start.Undisturbed t lockedOut := by
    rw [ht]
    decide +kernel
  have hpassed : log (passed? t) start lockedOut = [] := by
    rw [ht]
    decide +kernel
  have hreturns : log returnTime? returning (.launch (.choose "/p") :: lockedOut) = [3] := by
    decide +kernel
  obtain ⟨_, _, _, _, _, _, hunmade⟩ := selection_all_or_nothing sample.state.client (.finite false 3) none
    lockedFolder (answeredUpload ++ [Move.turn]) "/p" lockedOut hread hundisturbed
  obtain ⟨hunmade, _⟩ := hunmade hpassed
  exact ⟨hread, hundisturbed, hpassed, hunmade, hunmade.returns.symm.trans hreturns⟩

end CodeSession.Session
