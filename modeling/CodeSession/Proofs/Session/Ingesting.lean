import CodeSession.Proofs.Session.Uploading

/-!
# What a run of a call does to the ingestion

No run of a call breaks the rules of the phases, so each upload goes through its moves.

* `accepts` -- a call that was given files takes them up and begins an upload;
* `Fate.status?` -- the status that the end of an upload calls for;
* `uploadPhases` -- the phases that an upload assigns;
* `endUpload_eq`, `beginUpload_eq` -- uploads without the moves that are not allowed;
* `IngestRun`, `ingestRun_behaviour` -- a run of a call leaves the status and the return to the chat
  alone, is that return, begins an upload, or ends one.
-/

namespace CodeSession

namespace Ingest

/-- What dismissing the banner of an upload assigns. -/
def dismissal (i : Ingest) : List IngestPhase :=
  match i.status.phase with
  | .succeeded | .failed => [.idle]
  | _ => []

theorem assigned_acknowledge (i : Ingest) : i.acknowledge.assigned = i.assigned ++ i.dismissal := by
  obtain ⟨⟨phase, message⟩, selection, navigation, assigned⟩ := i
  cases phase with
  | succeeded | failed => rfl
  | _ => exact (List.append_nil _).symm

theorem assigned_prepare (i : Ingest) : i.prepare.assigned = i.assigned ++ i.dismissal :=
  i.assigned_acknowledge

end Ingest

namespace Session

open Backend Folder

variable {facts : Facts} {w w' : World} {c : Call} {wake : Wake} {orders : List (Order Call)}
  {r : Run}

/-! ## 1. Uploads that begin and end -/

/-- The files that a call has been given to upload. -/
def Call.files? : Call → Option (List SelectedFile)
  | .upload files => some files
  | .reading _ _ (some (.ok files)) => some files
  | _ => none

/-- Whether a run of a call begins an upload: files were given, and it does not refuse them. -/
def accepts (c : Call) (wake : Wake) (r : Run) : Bool :=
  wake == .go && c.files?.isSome && !isRefusal r.next

theorem accepts_of_files {c : Call} {files : List SelectedFile} (h : c.files? = some files)
    (r : Run) : accepts c .go r = !isRefusal r.next := by
  simp [accepts, h]

theorem accepts_of_no_files {c : Call} {wake : Wake} (h : wake = .go → c.files? = none) (r : Run) :
    accepts c wake r = false := by
  cases wake with
  | go => simp [accepts, h rfl]
  | cancelled => rfl

/-- The status that the end of an upload calls for. A stray end calls for none. -/
def Fate.status? : Fate String → Option IngestStatus
  | .landed (.ok message) => some (.succeeded message)
  | .landed (.error (.backend t)) => some (.failed ("Error: " ++ t.description))
  | _ => none

/-- Whether an upload ended with a reply that the backend took it up. -/
def Fate.isSuccess : Fate String → Bool
  | .landed (.ok _) => true
  | _ => false

theorem Fate.status?_eq_some {f : Fate String} {status : IngestStatus}
    (h : f.status? = some status) :
    status.phase = if f.isSuccess then .succeeded else .failed := by
  unfold status? at h
  split at h
  · cases h
    rfl
  · cases h
    rfl
  · cases h

theorem Fate.isSuccess_eq_false {f : Fate String} (h : f.status? = none) : f.isSuccess = false := by
  unfold isSuccess
  split
  · cases h
  · rfl

/-- The orders of an end: after a success the return to the chat is spawned. -/
def returnOrders (f : Option (Fate String)) : List (Order Call) :=
  if f.any Fate.isSuccess then [.spawn "ingest-auto-navigate" .navigate] else []

/-- The return to the chat that is noted after an end: a success notes the one that it spawns, and a
    closed session spawns none. -/
def returnNoted (facts : Facts) (f : Option (Fate String)) (old : Option TaskId) : Option TaskId :=
  if f.any Fate.isSuccess then facts.spawned? else old

/-- The phases of an upload in one run: one that begins dismisses the banner and is then
    `uploading`; one that ends does so with the phase that its end calls for. -/
def uploadPhases (begins : Bool) (f : Option (Fate String)) (i : Ingest) : List IngestPhase :=
  (if begins then i.dismissal ++ [.uploading] else []) ++
    (f.bind Fate.status?).toList.map IngestStatus.phase

/-- The end of an upload, as the phase `uploading` allows every one. -/
def landUpload (facts : Facts) (orders : List (Order Call)) (w : World) :
    Except CallTrouble String → Run
  | .ok message =>
    { w with
      ingest := { (w.ingest.assign (.succeeded message)).clear with navigation := facts.spawned? }
    }.done (orders ++ [Order.spawn "ingest-auto-navigate" Call.navigate]) (some true)
  | .error (.backend t) =>
    { w with ingest := (w.ingest.assign (.failed ("Error: " ++ t.description))).clear }.done orders
      (some true)
  | .error (.fault f) => { w with ingest := w.ingest.clear }.fail orders (.fault f)

/-- **No move at the end of an upload is refused.** -/
theorem endUpload_eq (facts : Facts) (orders : List (Order Call))
    (outcome : Except CallTrouble String) (h : w.ingest.status.phase = .uploading) :
    endUpload facts orders outcome w = landUpload facts orders w outcome := by
  obtain (t | f) | message := outcome
  · have hset := Ingest.set?_of_uploading (s := .failed ("Error: " ++ t.description)) h (.inr rfl)
    simp only [endUpload, hset]
    rfl
  · rfl
  · have hset := Ingest.set?_of_uploading (s := .succeeded message) h (.inl rfl)
    simp only [endUpload, hset]
    rfl

/-- The state in which an upload has begun, through a client. -/
def World.uploading (client : Client) (w : World) : World :=
  { w with
    ingest := w.ingest.prepare.assign .uploading
    client := client }

/-- **No move at the beginning of an upload is refused.** It goes on as its request does. -/
theorem beginUpload_eq (facts : Facts) {files : List SelectedFile} (hfiles : files ≠ [])
    (h : w.ingest.status.phase ≠ .uploading) :
    beginUpload facts files w =
      let orders := w.ingest.navigation.toList.map Order.cancel
      let sent := w.client.send (.upload files)
      match sent.2 with
      | .refused f => landUpload facts orders (w.uploading sent.1) (.error (.fault f))
      | .answered _ r => landUpload facts orders (w.uploading sent.1) r.answer
      | .outstanding n => (w.uploading sent.1).await orders (.uploading ⟨n, none⟩) := by
  have hfree : ¬(files.isEmpty || !w.ingest.canChoose) = true := by
    have hchoose : w.ingest.canChoose = true := Ingest.canChoose_eq_true_iff.mpr h
    simp [hfiles, hchoose]
  unfold beginUpload
  rw [if_neg hfree]
  dsimp only
  rw [Ingest.set?_uploading_prepare h]
  dsimp only
  unfold World.uploading
  generalize w.client.send (.upload files) = sent
  obtain ⟨client, sending⟩ := sent
  cases sending with
  | refused f => exact endUpload_eq _ _ _ rfl
  | answered n r => exact endUpload_eq _ _ _ rfl
  | outstanding n => rfl

/-- Files that cannot be uploaded now are refused, and nothing else happens. -/
theorem beginUpload_refused (facts : Facts) {files : List SelectedFile}
    (h : files = [] ∨ w.ingest.status.phase = .uploading) :
    beginUpload facts files w = w.done [] (some false) := by
  have hbusy : (files.isEmpty || !w.ingest.canChoose) = true := by
    rcases h with rfl | h
    · rfl
    · simp [Ingest.canChoose, h]
  unfold beginUpload
  rw [if_pos hbusy]

/-! ## 2. Runs of calls -/

/-- What a run of a call does to the ingestion, by whether it begins an upload and how one ends in
    it. A run that does neither changes nothing, unless it is the return to the chat. -/
inductive IngestRun (facts : Facts) (c : Call) (wake : Wake) (w : World) (r : Run) :
    Bool → Option (Fate String) → Prop where
  | aside (f : Option (Fate String)) (hc : wake = .go → c ≠ .navigating)
    (hf : f.bind Fate.status? = none) (hstatus : r.state.ingest.status = w.ingest.status)
    (hnavigation : r.state.ingest.navigation = w.ingest.navigation)
    (hcancel : ∀ i, .cancel i ∈ r.orders → .seal ∈ r.orders)
    (hspawn : ∀ name k, .spawn name k ∉ r.orders)
    (hnext : ∀ c', r.next.continuation? = some c' → c'.uploading?.isSome = true →
      c.uploading?.isSome = true)
    (hover : f ≠ none → r.next.continuation? = none)
    (hassigned : r.state.ingest.assigned = w.ingest.assigned) : IngestRun facts c wake w r false f
  | home (hc : c = .navigating) (hwake : wake = .go)
    (hingest : r.state.ingest = w.ingest.prepare) (horders : r.orders = [])
    (hover : r.next.continuation? = none) : IngestRun facts c wake w r false none
  | begun (f : Option (Fate String)) (hc : wake = .go → c ≠ .navigating)
    (hfree : w.ingest.status.phase ≠ .uploading)
    (hstatus : r.state.ingest.status = (f.bind Fate.status?).getD .uploading)
    (hnavigation : r.state.ingest.navigation = returnNoted facts f none)
    (horders : r.orders = w.ingest.navigation.toList.map Order.cancel ++ returnOrders f)
    (hnext : f = none → ∃ c', r.next.continuation? = some c' ∧ c'.uploading?.isSome = true)
    (hover : f ≠ none → r.next.continuation? = none)
    (hassigned : r.state.ingest.assigned = w.ingest.assigned ++ uploadPhases true f w.ingest) :
    IngestRun facts c wake w r true f
  | ended (f : Fate String) (hc : c.uploading?.isSome = true)
    (hbusy : w.ingest.status.phase = .uploading)
    (hstatus : f.status? = some r.state.ingest.status)
    (hnavigation : r.state.ingest.navigation = returnNoted facts (some f) w.ingest.navigation)
    (horders : r.orders = returnOrders (some f)) (hover : r.next.continuation? = none)
    (hassigned : r.state.ingest.assigned =
      w.ingest.assigned ++ uploadPhases false (some f) w.ingest) :
    IngestRun facts c wake w r false (some f)

/-- A run without orders that leaves the ingestion alone, but for the selection. -/
theorem ingestRun_aside (f : Option (Fate String)) (hc : wake = .go → c ≠ .navigating)
    (hf : f.bind Fate.status? = none) (hstatus : r.state.ingest.status = w.ingest.status)
    (hnavigation : r.state.ingest.navigation = w.ingest.navigation)
    (hassigned : r.state.ingest.assigned = w.ingest.assigned) (horders : r.orders = [])
    (hnext : ∀ c', r.next.continuation? = some c' → c'.uploading?.isSome = true →
      c.uploading?.isSome = true)
    (hover : f ≠ none → r.next.continuation? = none) : IngestRun facts c wake w r false f := by
  refine .aside f hc hf hstatus hnavigation (fun i hi => ?_) (fun name k hk => ?_) hnext hover
    hassigned
  · rw [horders] at hi
    cases hi
  · rw [horders] at hk
    cases hk

/-- A run that ends, without orders, and leaves the ingestion alone, but for the selection. -/
theorem ingestRun_over (f : Option (Fate String)) (hc : wake = .go → c ≠ .navigating)
    (hf : f.bind Fate.status? = none) (hstatus : r.state.ingest.status = w.ingest.status)
    (hnavigation : r.state.ingest.navigation = w.ingest.navigation)
    (hassigned : r.state.ingest.assigned = w.ingest.assigned) (horders : r.orders = [])
    (hover : r.next.continuation? = none) : IngestRun facts c wake w r false f := by
  refine ingestRun_aside f hc hf hstatus hnavigation hassigned horders (fun c' hc' => ?_)
    fun _ => hover
  rw [hover] at hc'
  cases hc'

/-- The end of an upload assigns the phase that it calls for. -/
theorem assigned_landUpload (outcome : Except CallTrouble String) :
    (landUpload facts orders w outcome).state.ingest.assigned =
      w.ingest.assigned ++ ((Fate.landed outcome).status?.toList.map IngestStatus.phase) := by
  obtain (t | f) | message := outcome
  · rfl
  · exact (List.append_nil _).symm
  · rfl

/-- An upload that begins and ends in one run. -/
theorem ingestRun_landUpload_begun (outcome : Except CallTrouble String)
    (hc : wake = .go → c ≠ .navigating) (hfree : w.ingest.status.phase ≠ .uploading)
    (hstatus : w'.ingest.status = .uploading) (hnavigation : w'.ingest.navigation = none)
    (hassigned : w'.ingest.assigned = w.ingest.assigned ++ uploadPhases true none w.ingest) :
    IngestRun facts c wake w
      (landUpload facts (w.ingest.navigation.toList.map Order.cancel) w' outcome) true
      (some (.landed outcome)) := by
  have hended : (landUpload facts (w.ingest.navigation.toList.map Order.cancel) w'
      outcome).state.ingest.assigned =
      w.ingest.assigned ++ uploadPhases true (some (.landed outcome)) w.ingest := by
    rw [assigned_landUpload, hassigned]
    simp [uploadPhases]
  obtain (t | f) | message := outcome
  · exact .begun _ hc hfree rfl hnavigation (List.append_nil _).symm (fun h => by cases h)
      (fun _ => rfl) hended
  · exact .begun _ hc hfree hstatus hnavigation (List.append_nil _).symm (fun h => by cases h)
      (fun _ => rfl) hended
  · exact .begun _ hc hfree rfl rfl rfl (fun h => by cases h) (fun _ => rfl) hended

/-- An upload that ends in a later run than it began. -/
theorem ingestRun_landUpload_ended (outcome : Except CallTrouble String)
    (hc : c.uploading?.isSome = true) (hbusy : w.ingest.status.phase = .uploading) :
    IngestRun facts c wake w (landUpload facts [] w outcome) false (some (.landed outcome)) := by
  have hkind : wake = .go → c ≠ .navigating := by
    rintro _ rfl
    cases hc
  obtain (t | f) | message := outcome
  · exact .ended _ hc hbusy rfl rfl rfl rfl rfl
  · exact ingestRun_over _ hkind rfl rfl rfl rfl rfl rfl
  · exact .ended _ hc hbusy rfl rfl rfl rfl rfl

theorem isRefusal_landUpload (outcome : Except CallTrouble String) :
    isRefusal (landUpload facts orders w outcome).next = false := by
  obtain (t | f) | message := outcome <;> rfl

/-- Files that are refused end no upload. -/
theorem issueFate?_refused {files : List SelectedFile}
    (h : files = [] ∨ w.ingest.status.phase = .uploading) : issueFate? files w = none := by
  unfold issueFate?
  rcases h with rfl | h
  · rfl
  · simp [Ingest.canChoose, h]

theorem issueFate?_eq {files : List SelectedFile} (hfiles : files ≠ [])
    (h : w.ingest.status.phase ≠ .uploading) :
    issueFate? files w = fateOf Reply.answer (w.client.send (.upload files)).2 := by
  have hchoose : w.ingest.canChoose = true := Ingest.canChoose_eq_true_iff.mpr h
  simp [issueFate?, hfiles, hchoose]

/-- Files that are given in a state which differs in the selection alone. -/
theorem ingestRun_beginUpload (files : List SelectedFile) (hc : wake = .go → c ≠ .navigating)
    (hstatus : w'.ingest.status = w.ingest.status)
    (hnavigation : w'.ingest.navigation = w.ingest.navigation)
    (hassigned : w'.ingest.assigned = w.ingest.assigned) :
    IngestRun facts c wake w (beginUpload facts files w')
      (!isRefusal (beginUpload facts files w').next) (issueFate? files w') := by
  by_cases h : files = [] ∨ w'.ingest.status.phase = .uploading
  · rw [beginUpload_refused facts h, issueFate?_refused h]
    exact ingestRun_over none hc rfl hstatus hnavigation hassigned rfl rfl
  · obtain ⟨hfiles, hfree'⟩ := not_or.mp h
    have hfree : w.ingest.status.phase ≠ .uploading := hstatus ▸ hfree'
    have hbegun : ∀ client, (w'.uploading client).ingest.assigned =
        w.ingest.assigned ++ uploadPhases true none w.ingest := by
      intro client
      show w'.ingest.prepare.assigned ++ [IngestPhase.uploading] = _
      rw [Ingest.assigned_prepare, hassigned]
      simp [uploadPhases, Ingest.dismissal, hstatus]
    rw [issueFate?_eq hfiles hfree', beginUpload_eq facts hfiles hfree', hnavigation]
    dsimp only
    generalize w'.client.send (.upload files) = sent
    obtain ⟨client, sending⟩ := sent
    cases sending with
    | refused f =>
      rw [isRefusal_landUpload]
      exact ingestRun_landUpload_begun _ hc hfree rfl rfl (hbegun client)
    | answered n r =>
      rw [isRefusal_landUpload]
      exact ingestRun_landUpload_begun _ hc hfree rfl rfl (hbegun client)
    | outstanding n =>
      exact .begun none hc hfree rfl rfl (List.append_nil _).symm (fun _ => ⟨_, rfl, rfl⟩)
        (fun h => absurd rfl h) (hbegun client)

/-- **The return to the chat dismisses the banner**, and switches the tab of an open session. -/
theorem navigateNow_eq (hv : w.tabs.listeners = [viewer]) :
    navigateNow facts w =
      { w with
        ingest := w.ingest.prepare
        tabs := if facts.closed then w.tabs else { w.tabs with active := .chat }
      }.done [] none := by
  unfold navigateNow
  dsimp only
  cases facts.closed with
  | true => rfl
  | false =>
    rw [switchTab_other (w := { w with ingest := w.ingest.prepare }) hv ofValue?_chat (by decide)]
    rfl

theorem ingest_of_kind {k : Kind} (hupload : k ≠ .upload) (hnavigation : k ≠ .navigation)
    (h : Touches k w w') : w'.ingest = w.ingest := by
  cases h with
  | upload ingest client h => exact absurd rfl hupload
  | navigation ingest tabs h => exact absurd rfl hnavigation
  | _ => rfl

/-- Calls that are about something else order nothing, but for a closing one. -/
theorem orders_of_kind (facts : Facts) (wake : Wake) (hv : w.tabs.listeners = [viewer])
    (hupload : c.kind ≠ .upload) (hclosing : c.kind ≠ .closing) :
    (behaviour facts c wake w).orders = [] := by
  cases wake with
  | cancelled => rfl
  | go =>
    cases c with
    | send text =>
      show (beginSend facts text w).orders = []
      unfold beginSend endSend
      dsimp only
      repeat' split
      all_goals rfl
    | sending x =>
      obtain ⟨n, _ | r⟩ := x
      · rfl
      · show (endSend r.answer w).orders = []
        unfold endSend
        dsimp only
        split <;> rfl
    | fetch number =>
      show (beginFetch number w).orders = []
      unfold beginFetch endFetch
      dsimp only
      repeat' split
      all_goals rfl
    | fetching number x =>
      obtain ⟨n, _ | r⟩ := x
      · rfl
      · show (endFetch number r.records w).orders = []
        unfold endFetch
        dsimp only
        split <;> rfl
    | navigate => rfl
    | navigating =>
      show (navigateNow facts w).orders = []
      rw [navigateNow_eq hv]
      rfl
    | idle => rfl
    | close => exact absurd rfl hclosing
    | closing => exact absurd rfl hclosing
    | _ => exact absurd rfl hupload

/-- A closing call cancels only as it closes the session, and spawns nothing. -/
theorem orders_of_closing (facts : Facts) (w : World) (wake : Wake) (hc : c.kind = .closing) :
    (∀ i, .cancel i ∈ (behaviour facts c wake w).orders →
      .seal ∈ (behaviour facts c wake w).orders) ∧
    ∀ name k, .spawn name k ∉ (behaviour facts c wake w).orders := by
  cases wake with
  | cancelled => exact ⟨fun i hi => (by cases hi), fun name k hk => (by cases hk)⟩
  | go =>
    cases c with
    | close =>
      show (∀ i, .cancel i ∈ (beginClose facts w).orders → .seal ∈ (beginClose facts w).orders) ∧ _
      show _ ∧ ∀ name k, .spawn name k ∉ (beginClose facts w).orders
      unfold beginClose
      split
      · exact ⟨fun i hi => (by cases hi), fun name k hk => (by cases hk)⟩
      · dsimp only
        split <;> simp [World.done, Tracking.closeOrders]
    | closing =>
      show (∀ i, .cancel i ∈ (endClose w).orders → .seal ∈ (endClose w).orders) ∧
        ∀ name k, .spawn name k ∉ (endClose w).orders
      simp [endClose, World.done]
    | _ => cases hc

/-- **What every run of a call does to the ingestion**, if the phase is `uploading` whenever the
    call has an upload under way. -/
theorem ingestRun_behaviour (wake : Wake) (hv : w.tabs.listeners = [viewer])
    (hp : c.uploading?.isSome = true → w.ingest.status.phase = .uploading) :
    IngestRun facts c wake w (behaviour facts c wake w)
      (accepts c wake (behaviour facts c wake w)) (uploadFate? facts c wake w) := by
  by_cases hk : c.kind = .upload
  · have hc : wake = .go → c ≠ .navigating := by
      rintro _ rfl
      cases hk
    cases wake with
    | cancelled =>
      cases c with
      | upload files => exact ingestRun_over none hc rfl rfl rfl rfl rfl rfl
      | uploading x => exact ingestRun_over (some .aborted) hc rfl rfl rfl rfl rfl rfl
      | choose path => exact ingestRun_over none hc rfl rfl rfl rfl rfl rfl
      | reading path held read => exact ingestRun_over none hc rfl rfl rfl rfl rfl rfl
      | _ => cases hk
    | go =>
      cases c with
      | upload files =>
        have hrun : behaviour facts (.upload files) .go w =
          if facts.closed then w.done [] (some false) else beginUpload facts files w := rfl
        have hfate : uploadFate? facts (.upload files) .go w =
          if facts.closed then none else issueFate? files w := rfl
        rw [hrun, hfate]
        split
        · exact ingestRun_over none hc rfl rfl rfl rfl rfl rfl
        · exact ingestRun_beginUpload files hc rfl rfl rfl
      | uploading x =>
        obtain ⟨n, _ | r⟩ := x
        · exact ingestRun_aside none hc rfl rfl rfl rfl rfl (fun _ _ _ => rfl) fun h => absurd rfl h
        · have hbusy : w.ingest.status.phase = .uploading := hp rfl
          have hrun : behaviour facts (.uploading ⟨n, some r⟩) .go w =
              landUpload facts [] w r.answer := endUpload_eq facts [] r.answer hbusy
          rw [hrun]
          exact ingestRun_landUpload_ended r.answer rfl hbusy
      | choose path =>
        have hrun : behaviour facts (.choose path) .go w = beginChoose facts path w := rfl
        have hno : accepts (.choose path) .go (beginChoose facts path w) = false := rfl
        rw [hrun, hno]
        unfold beginChoose
        split
        · exact ingestRun_over none hc rfl rfl rfl rfl rfl rfl
        · refine ingestRun_aside none hc rfl rfl rfl rfl rfl (fun c' hc' hup => ?_)
            fun h => absurd rfl h
          cases hc'
          cases hup
      | reading path held read =>
        obtain _ | t | files := read
        · exact ingestRun_aside none hc rfl rfl rfl rfl rfl (fun _ hc' hup => by cases hc'; cases hup)
            fun h => absurd rfl h
        · exact ingestRun_over none hc rfl rfl rfl rfl rfl rfl
        · have hrun : behaviour facts (.reading path held (some (.ok files))) .go w =
              beginUpload facts files { w with ingest := w.ingest.select files } := rfl
          have hfate : uploadFate? facts (.reading path held (some (.ok files))) .go w =
              issueFate? files { w with ingest := w.ingest.select files } := rfl
          rw [hrun, hfate]
          exact ingestRun_beginUpload files hc rfl rfl rfl
      | _ => cases hk
  · have hfate : uploadFate? facts c wake w = none := by
      cases c <;> cases wake <;> first | rfl | exact absurd rfl hk
    have hfiles : c.files? = none := by
      cases c <;> first | rfl | exact absurd rfl hk
    rw [hfate, accepts_of_no_files fun _ => hfiles]
    by_cases hhome : c = .navigating ∧ wake = .go
    · obtain ⟨rfl, rfl⟩ := hhome
      have hrun : behaviour facts .navigating .go w = navigateNow facts w := rfl
      rw [hrun, navigateNow_eq hv]
      exact .home rfl rfl rfl rfl rfl
    · have hc : wake = .go → c ≠ .navigating := fun hgo hnav => hhome ⟨hnav, hgo⟩
      have hnext : ∀ c', (behaviour facts c wake w).next.continuation? = some c' →
          c'.uploading?.isSome = true → c.uploading?.isSome = true := by
        intro c' hc' hup
        obtain ⟨n, hn⟩ := Option.isSome_iff_exists.mp hup
        cases hr : (behaviour facts c wake w).next with
        | finish e =>
          rw [hr] at hc'
          cases hc'
        | pause p c'' =>
          rw [hr] at hc'
          cases hc'
          have hkind := ((tame_behaviour c wake hv).kind p c' hr).1
          exact absurd (hkind ▸ kind_of_uploading? hn) hk
      have hstate : (behaviour facts c wake w).state.ingest = w.ingest := by
        by_cases hnavigation : c.kind = .navigation
        · cases c with
          | navigate => cases wake <;> rfl
          | navigating =>
            cases wake with
            | go => exact absurd ⟨rfl, rfl⟩ hhome
            | cancelled => rfl
          | _ => cases hnavigation
        · exact ingest_of_kind hk hnavigation (touches_behaviour c wake hv)
      have hstatus := congrArg Ingest.status hstate
      have hnavigation := congrArg Ingest.navigation hstate
      have hassigned := congrArg Ingest.assigned hstate
      by_cases hclose : c.kind = .closing
      · obtain ⟨hcancel, hspawn⟩ := orders_of_closing facts w wake hclose
        exact .aside none hc rfl hstatus hnavigation hcancel hspawn hnext (fun h => absurd rfl h)
          hassigned
      · exact ingestRun_aside none hc rfl hstatus hnavigation hassigned
          (orders_of_kind facts wake hv hk hclose) hnext fun h => absurd rfl h

theorem ingestRun_of_run {s : Session} {t : TaskId} {ends : List (Fate String)}
    (ht : Tidy s) (hb : Guarded uploads s ends) (h : s.resumption? = some ⟨t, c, some wake⟩) :
    IngestRun s.facts c wake s.state (behaviour s.facts c wake s.state)
      (accepts c wake (behaviour s.facts c wake s.state)) (uploadFate? s.facts c wake s.state) := by
  refine ingestRun_behaviour wake ht.listeners fun hup => hb.flag t ?_
  exact (uploads.holds_iff (Loop.Resumption.continuation?_eq h)).mpr hup

end Session

end CodeSession
