import CodeSession.Proofs.Session.Guards

/-!
# Uploads

The phase of the ingestion against the uploads that are under way.

* `uploads` -- the guard of the uploads: the phase `uploading`. It stays after a stray end, one that is
  neither an answer nor a trouble of the backend;
* `Uploads` -- a call has an upload under way: its request is issued and has not ended;
* `uploading_iff_uploads_iff` -- the phase tells whether an upload is under way exactly as long as no
  end was stray; after a stray one every upload is refused.
-/

namespace CodeSession

/-! ## 1. Phases -/

namespace Ingest

theorem canChoose_eq_true_iff {i : Ingest} :
    i.canChoose = true ↔ i.status.phase ≠ .uploading := by
  simp [canChoose]

@[simp] theorem phase_acknowledge_eq_uploading_iff {i : Ingest} :
    i.acknowledge.status.phase = .uploading ↔ i.status.phase = .uploading := by
  unfold acknowledge
  split <;> simp_all [IngestStatus.idle]

@[simp] theorem phase_prepare_eq_uploading_iff {i : Ingest} :
    i.prepare.status.phase = .uploading ↔ i.status.phase = .uploading :=
  phase_acknowledge_eq_uploading_iff

@[simp] theorem selection_acknowledge (i : Ingest) : i.acknowledge.selection = i.selection := by
  unfold acknowledge
  split <;> rfl

@[simp] theorem selection_prepare (i : Ingest) : i.prepare.selection = i.selection :=
  selection_acknowledge i

theorem phase_prepare {i : Ingest} (h : i.status.phase ≠ .uploading) :
    i.prepare.status.phase = .idle := by
  show i.acknowledge.status.phase = .idle
  unfold acknowledge
  cases hp : i.status.phase with
  | idle => exact hp
  | uploading => exact absurd hp h
  | succeeded => rfl
  | failed => rfl

/-- An upload may be begun unless one is running. -/
theorem set?_uploading_prepare {i : Ingest} (h : i.status.phase ≠ .uploading) :
    i.prepare.set? .uploading = .ok (i.prepare.assign .uploading) := by
  rw [set?_eq_ok_iff, phase_prepare h]
  exact ⟨by decide, rfl⟩

theorem set?_of_uploading {i : Ingest} {s : IngestStatus} (h : i.status.phase = .uploading)
    (hs : s.phase = .succeeded ∨ s.phase = .failed) : i.set? s = .ok (i.assign s) := by
  rw [set?_eq_ok_iff, h]
  rcases hs with hs | hs <;> rw [hs] <;> exact ⟨by decide, rfl⟩

end Ingest

namespace Session

open Backend Folder

variable {facts : Facts} {w w' : World} {c : Call} {s : Session} {m : Move}

/-! ## 2. Uploads under way -/

/-- The request of an upload that is under way. -/
def Call.uploading? : Call → Option Nat
  | .uploading x => some x.request
  | _ => none

/-- Whether a call has an upload under way. -/
def Uploads (s : Session) (t : TaskId) : Prop :=
  (s.shown? Call.uploading? t).isSome = true

/-- How an upload ends at once that is begun with files. -/
def issueFate? (files : List SelectedFile) (w : World) : Option (Fate String) :=
  if files.isEmpty || !w.ingest.canChoose then none
  else fateOf Reply.answer (w.client.send (.upload files)).2

/-- How an upload ends in a run of a call, if one does. -/
def uploadFate? (facts : Facts) (c : Call) (wake : Wake) (w : World) : Option (Fate String) :=
  match wake, c with
  | .go, .upload files => if facts.closed then none else issueFate? files w
  | .go, .reading _ _ (some (.ok files)) => issueFate? files w
  | .go, .uploading ⟨_, some r⟩ => some (.landed r.answer)
  | .cancelled, .uploading _ => some .aborted
  | _, _ => none

theorem steady_uploading? : Steady Call.uploading? where
  take r c := by cases c <;> rfl
  takeFiles selected c := by cases c <;> rfl

theorem uploading?_of_isFresh (c : Call) (h : c.isFresh = true) : c.uploading? = none := by
  cases c <;> first | rfl | cases h

theorem kind_of_uploading? {n : Nat} (h : c.uploading? = some n) : c.kind = .upload := by
  cases c with
  | uploading x => rfl
  | _ => cases h

/-! ## 3. Runs of calls -/

/-- Whether an upload is running as far as the phase tells. -/
def World.IsUploading (w : World) : Prop :=
  w.ingest.status.phase = .uploading

/-- What a run of a call does to the uploads. -/
abbrev UploadRun (c : Call) (w : World) (r : Run) : Option (Fate String) → Prop :=
  GuardRun Call.uploading? World.IsUploading Fate.isStray c w r

/-- An upload that ends leaves the phase `uploading` only if its end is stray. -/
theorem phase_endUpload {orders : List (Order Call)} (outcome : Except CallTrouble String)
    (h : w.ingest.status.phase = .uploading) :
    (endUpload facts orders outcome w).state.ingest.status.phase = .uploading ↔
      (Fate.landed outcome).isStray = true := by
  unfold endUpload
  split
  · rw [Ingest.set?_of_uploading h (.inl rfl)]
    simp [World.done, Ingest.clear, Ingest.select, IngestStatus.succeeded, Fate.isStray]
  · rw [Ingest.set?_of_uploading h (.inr rfl)]
    simp [World.done, Ingest.clear, Ingest.select, IngestStatus.failed, Fate.isStray]
  · simp [World.fail, Ingest.clear, Ingest.select, Fate.isStray, h]

theorem continuation?_endUpload {orders : List (Order Call)}
    (outcome : Except CallTrouble String) :
    (endUpload facts orders outcome w).next.continuation? = none := by
  unfold endUpload
  split
  · split <;> rfl
  · split <;> rfl
  · rfl

theorem uploadRun_endUpload {orders : List (Order Call)} (outcome : Except CallTrouble String)
    (hc : c.uploading? = none → w.ingest.status.phase ≠ .uploading)
    (hp : w'.ingest.status.phase = .uploading) :
    UploadRun c w (endUpload facts orders outcome w') (some (.landed outcome)) :=
  .ended _ hc (by rw [continuation?_endUpload]; rfl) (phase_endUpload outcome hp)

theorem uploadRun_beginUpload (files : List SelectedFile) (hc : c.uploading? = none)
    (hp : w'.ingest.status.phase = w.ingest.status.phase) :
    UploadRun c w (beginUpload facts files w') (issueFate? files w') := by
  unfold beginUpload issueFate?
  by_cases hbusy : (files.isEmpty || !w'.ingest.canChoose) = true
  · rw [if_pos hbusy, if_pos hbusy]
    have hsame : w'.IsUploading ↔ w.IsUploading := by
      rw [World.IsUploading, World.IsUploading, hp]
    exact .apart hc rfl hsame
  · rw [if_neg hbusy, if_neg hbusy]
    have hphase : w'.ingest.status.phase ≠ .uploading := by
      rw [← Ingest.canChoose_eq_true_iff]
      simp_all
    dsimp only
    rw [Ingest.set?_uploading_prepare hphase]
    dsimp only
    have hfree : c.uploading? = none → w.ingest.status.phase ≠ .uploading := fun _ => hp ▸ hphase
    cases hsend : (w'.client.send (.upload files)).2 with
    | refused f => exact uploadRun_endUpload _ hfree rfl
    | answered n r => exact uploadRun_endUpload _ hfree rfl
    | outstanding n => exact .underWay hfree rfl rfl

theorem isUploading_of_kind {k : Kind} (hk : k ≠ .upload) (h : Touches k w w') :
    w'.IsUploading ↔ w.IsUploading := by
  cases h with
  | upload ingest client h => exact absurd rfl hk
  | navigation ingest tabs h =>
    rcases h with rfl | rfl
    · exact Iff.rfl
    · exact Ingest.phase_prepare_eq_uploading_iff
  | _ => exact Iff.rfl

/-- **What every run of a call does to the uploads**, if the phase is `uploading` whenever the call
    has one under way. -/
theorem uploadRun_behaviour (wake : Wake) (hv : w.tabs.listeners = [viewer])
    (hp : c.uploading?.isSome = true → w.ingest.status.phase = .uploading) :
    UploadRun c w (behaviour facts c wake w) (uploadFate? facts c wake w) := by
  by_cases hk : c.kind = .upload
  · cases wake with
    | cancelled =>
      cases c with
      | uploading x =>
        have hphase : w.ingest.status.phase = .uploading := hp rfl
        exact .ended .aborted (fun e => by cases e) rfl ⟨fun _ => rfl, fun _ => hphase⟩
      | upload files => exact .apart rfl rfl Iff.rfl
      | choose path => exact .apart rfl rfl Iff.rfl
      | reading path held read => exact .apart rfl rfl Iff.rfl
      | _ => cases hk
    | go =>
      cases c with
      | upload files =>
        show UploadRun _ w (if facts.closed then _ else _) (if facts.closed then _ else _)
        split
        · exact .apart rfl rfl Iff.rfl
        · exact uploadRun_beginUpload files rfl rfl
      | uploading x =>
        obtain ⟨n, _ | r⟩ := x
        · exact .underWay (fun e => by cases e) rfl (hp rfl)
        · exact uploadRun_endUpload _ (fun e => by cases e) (hp rfl)
      | choose path =>
        show UploadRun _ w (beginChoose facts path w) none
        unfold beginChoose
        split <;> exact .apart rfl rfl Iff.rfl
      | reading path held read =>
        obtain _ | t | files := read
        · exact .apart rfl rfl Iff.rfl
        · exact .apart rfl rfl Iff.rfl
        · have hrun : behaviour facts (.reading path held (some (.ok files))) .go w =
              beginUpload facts files { w with ingest := w.ingest.select files } := rfl
          have hfate : uploadFate? facts (.reading path held (some (.ok files))) .go w =
              issueFate? files { w with ingest := w.ingest.select files } := rfl
          rw [hrun, hfate]
          exact uploadRun_beginUpload files rfl rfl
      | _ => cases hk
  · have hnone : uploadFate? facts c wake w = none := by
      cases c <;> cases wake <;> first | rfl | exact absurd rfl hk
    rw [hnone]
    exact guardRun_of_kind _ _ _ (fun c n h => kind_of_uploading? h) hk
      (tame_behaviour c wake hv).kind (isUploading_of_kind hk (touches_behaviour c wake hv))

/-- The guard of the uploads. -/
def uploads : Guard where
  ticket? := Call.uploading?
  flag := World.IsUploading
  fate? := uploadFate?
  lingers := Fate.isStray
  steady := steady_uploading?
  fresh := uploading?_of_isFresh
  calm s m s' h := by
    rw [World.IsUploading, h.ingest]
    cases m with
    | acknowledge => exact Ingest.phase_acknowledge_eq_uploading_iff
    | _ => exact Iff.rfl
  run facts c wake w hv hp := uploadRun_behaviour wake hv hp
  start client delay greeting files := fun h => by cases h

/-- The ends of uploads in a run. -/
def uploadEnds (s : Session) (ms : List Move) : List (Fate String) :=
  log uploads.end? s ms

/-! ## 4. New uploads -/

theorem client_endUpload {orders : List (Order Call)} (outcome : Except CallTrouble String) :
    (endUpload facts orders outcome w).state.client = w.client := by
  unfold endUpload
  split
  · split <;> rfl
  · split <;> rfl
  · rfl

theorem selection_endUpload {orders : List (Order Call)} (outcome : Except CallTrouble String) :
    (endUpload facts orders outcome w).state.ingest.selection = [] := by
  unfold endUpload
  split
  · split <;> rfl
  · split <;> rfl
  · rfl

theorem next_endUpload_ne {orders : List (Order Call)} (outcome : Except CallTrouble String) :
    (endUpload facts orders outcome w).next ≠ .finish (.returned (some false)) := by
  unfold endUpload
  split
  · split <;> exact fun e => by cases e
  · split <;> exact fun e => by cases e
  · exact fun e => by cases e

/-- Files that are uploaded while no upload is running are sent, and the call is not refused. -/
theorem beginUpload_of_canChoose (facts : Facts) {files : List SelectedFile} (hfiles : files ≠ [])
    (h : w.ingest.canChoose = true) :
    (beginUpload facts files w).state.client = (w.client.send (.upload files)).1 ∧
      (beginUpload facts files w).next ≠ .finish (.returned (some false)) := by
  unfold beginUpload
  have hbusy : ¬(files.isEmpty || !w.ingest.canChoose) = true := by simp [hfiles, h]
  rw [if_neg hbusy]
  dsimp only
  rw [Ingest.set?_uploading_prepare (Ingest.canChoose_eq_true_iff.mp h)]
  dsimp only
  generalize w.client.send (.upload files) = sent
  obtain ⟨client, sending⟩ := sent
  cases sending with
  | refused f => exact ⟨client_endUpload _, next_endUpload_ne _⟩
  | answered n r => exact ⟨client_endUpload _, next_endUpload_ne _⟩
  | outstanding n => exact ⟨rfl, fun e => by cases e⟩

/-- A new upload is refused while one is running. -/
theorem proceed_upload_of_uploading {files : List SelectedFile}
    (h : w.ingest.status.phase = .uploading) :
    proceed facts (.upload files) w = w.done [] (some false) := by
  have hbusy : (files.isEmpty || !w.ingest.canChoose) = true := by simp [Ingest.canChoose, h]
  show (if facts.closed then w.done [] (some false) else beginUpload facts files w) = _
  unfold beginUpload
  rw [if_pos hbusy, ite_self]

/-- **The phase tells whether an upload is under way exactly as long as no upload has ended astray**,
    by a fault that is no trouble of the backend or by a cancellation under way. Until then an upload
    may be chosen once none is under way, and it is sent when its turn comes; after it none is under
    way and every one is refused. -/
theorem uploading_iff_uploads_iff (client : Client) (delay : Binary64) (greeting : Option String)
    (files : FileSystem) (ms : List Move) :
    let start := opened client delay greeting files
    let s := start.play ms
    let astray := ∃ f ∈ uploadEnds start ms, f.isStray = true
    ((s.state.ingest.status.phase = .uploading ↔ ∃! t, s.Uploads t) ↔ ¬astray) ∧
    (¬astray ∧ (∀ t, ¬s.Uploads t) → s.state.ingest.canChoose = true ∧
      ∀ t batch, s.closed = false ∧ batch ≠ [] ∧
        s.resumption? = some ⟨t, .upload batch, some .go⟩ →
        (s.step .turn).state.client = (s.state.client.send (.upload batch)).1 ∧
          (s.step .turn).stage? t ≠ some (.ended (.returned (some false)))) ∧
    (astray → ∀ ns, (s.play ns).state.ingest.status.phase = .uploading ∧
      (∀ t, ¬(s.play ns).Uploads t) ∧
      ∀ t batch, (s.play ns).resumption? = some ⟨t, .upload batch, some .go⟩ →
        ((s.play ns).step .turn).stage? t = some (.ended (.returned (some false)))) := by
  intro start s astray
  have hb : Guarded uploads s (uploadEnds start ms) :=
    guarded_play uploads client delay greeting files ms
  refine ⟨⟨fun hiff hstray => ?_, fun hno => hb.flag_iff hno⟩, fun ⟨hno, hfree⟩ => ?_,
    fun hstray ns => ?_⟩
  · obtain ⟨hp, hnone⟩ := hb.left hstray
    obtain ⟨t, ht, _⟩ := hiff.mp hp
    exact hnone t ht
  · have hchoose : s.state.ingest.canChoose = true := by
      rw [Ingest.canChoose_eq_true_iff]
      intro hp
      obtain ⟨t, ht, _⟩ := (hb.flag_iff hno).mp hp
      exact hfree t ht
    refine ⟨hchoose, fun t batch ⟨hopen, hbatch, hres⟩ => ?_⟩
    have hrun : behaviour s.facts (.upload batch) .go s.state = beginUpload s.facts batch s.state :=
      if_neg (by simp [Loop.facts, hopen])
    obtain ⟨hsent, hnext⟩ := beginUpload_of_canChoose s.facts hbatch hchoose
    constructor
    · rw [state_of_run hres, hrun, hsent]
    · rw [step_turn, Loop.stage?_turned_self hres, hrun]
      exact fun e => hnext (Loop.next_of_after_eq_ended (Option.some.inj e))
  · have hb' : Guarded uploads (s.play ns) (uploadEnds start (ms ++ ns)) := by
      have h := guarded_play uploads client delay greeting files (ms ++ ns)
      rw [play_append] at h
      exact h
    have hstray' : ∃ f ∈ uploadEnds start (ms ++ ns), f.isStray = true := by
      obtain ⟨f, hf, hs⟩ := hstray
      exact ⟨f, by rw [uploadEnds, log_append]; exact List.mem_append_left _ hf, hs⟩
    obtain ⟨hp, hnone⟩ := hb'.left hstray'
    refine ⟨hp, hnone, fun t batch hres => ?_⟩
    rw [step_turn,
      Loop.stage?_turned_self hres]
    show some (Loop.after (proceed (s.play ns).facts (.upload batch) (s.play ns).state).next _) = _
    rw [proceed_upload_of_uploading hp]
    rfl

/-- A session after an upload that failed for another reason than the connection. -/
def failedUpload : Session :=
  sample.play [.launch (.upload [⟨"project/a.txt", [97], "text/plain"⟩]), .turn,
    .answer 0 (.fault ⟨.runtime, "connection pool is gone"⟩), .turn]

/-- The phase stays `uploading` with nothing under way. -/
theorem uploading_without_upload :
    ¬(failedUpload.state.ingest.status.phase = .uploading ↔ ∃! t, failedUpload.Uploads t) := by
  intro hiff
  have hp : failedUpload.state.ingest.status.phase = .uploading := by decide +kernel
  have hlength : failedUpload.tasks.length = 1 := by decide +kernel
  have hended : (failedUpload.shown? Call.uploading? 0).isSome = false := by decide +kernel
  obtain ⟨t, ht, _⟩ := hiff.mp hp
  have hlt : t < failedUpload.tasks.length := Guard.lt_of_holds (g := uploads) ht
  obtain rfl : t = 0 := Nat.lt_one_iff.mp (hlength ▸ hlt)
  rw [Uploads, hended] at ht
  cases ht

end Session

end CodeSession
