import CodeSession.Proofs.Session.Ingesting
import Mathlib.Data.List.Induction

/-!
# The lifecycle of uploads

The phases that a run assigns, each with the upload that assigns it, follow the table of the phases.

* `IngestPhase.Leads` -- phases that lead from one to another, each as the one before allows;
* `writes`, `phaseWrites` -- the phases that a move and a run leave in the history of the ingestion,
  each with the upload that assigns it;
* `writes_of_run`, `writes_of_calm` -- what each kind of step assigns;
* `Lifecycle`, `lifecycle_step` -- what was assigned leads to the phase, and all but dismissals
  comes from uploads that were taken up and have not been left since;
* `upload_step`, `phaseWrites_of_uploads` -- while an upload is under way nothing else is assigned;
* `lifecycle_of_run` -- no move of an upload is refused, and each upload assigns its phases in one
  stretch.
-/

namespace CodeSession

/-! ## 1. Phases that lead from one to another -/

/-- Phases that lead from one phase to another, each as the one before allows. -/
inductive IngestPhase.Leads : IngestPhase → List IngestPhase → IngestPhase → Prop where
  | nil (p : IngestPhase) : Leads p [] p
  | cons {p q r : IngestPhase} {ps : List IngestPhase} (h : q ∈ p.next) (hrest : Leads q ps r) :
    Leads p (q :: ps) r

theorem IngestPhase.Leads.append {p q r : IngestPhase} {ps qs : List IngestPhase}
    (h : Leads p ps q) (h' : Leads q qs r) : Leads p (ps ++ qs) r := by
  induction h with
  | nil p => exact h'
  | cons hnext hrest ih => exact .cons hnext (ih h')

namespace Ingest

theorem leads_acknowledge (i : Ingest) :
    i.status.phase.Leads i.dismissal i.acknowledge.status.phase := by
  obtain ⟨⟨phase, message⟩, selection, navigation, assigned⟩ := i
  cases phase with
  | idle => exact .nil _
  | uploading => exact .nil _
  | succeeded => exact .cons (show IngestPhase.idle ∈ IngestPhase.succeeded.next by decide) (.nil _)
  | failed => exact .cons (show IngestPhase.idle ∈ IngestPhase.failed.next by decide) (.nil _)

theorem dismissal_eq (i : Ingest) : i.dismissal = [] ∨ i.dismissal = [.idle] := by
  unfold dismissal
  split
  · exact .inr rfl
  · exact .inr rfl
  · exact .inl rfl

theorem eq_idle_of_mem_dismissal {i : Ingest} {p : IngestPhase} (h : p ∈ i.dismissal) :
    p = .idle := by
  rcases i.dismissal_eq with hd | hd
  · rw [hd] at h
    cases h
  · rw [hd] at h
    exact List.mem_singleton.mp h

theorem dismissal_of_uploading {i : Ingest} (h : i.status.phase = .uploading) :
    i.dismissal = [] := by
  simp [dismissal, h]

end Ingest

namespace Session

open Backend Folder IngestPhase

variable {facts : Facts} {w : World} {c : Call} {wake : Wake} {r : Run} {t : TaskId}

/-! ## 2. What is assigned -/

/-- A phase that is assigned, with the upload that assigns it. The user who dismisses the banner and
    the return to the chat are none. -/
structure PhaseWrite where
  upload : Option TaskId
  phase : IngestPhase

/-- The upload that a move begins. -/
def upload? (s : Session) (m : Move) : Option TaskId :=
  match s.resumed? m with
  | some ⟨t, c, some wake⟩ =>
    if accepts c wake (behaviour s.facts c wake s.state) then some t else none
  | _ => none

/-- The upload for which a run of a call assigns: the return to the chat is for none. -/
def writer (t : TaskId) (c : Call) (wake : Wake) : Option TaskId :=
  match wake, c with
  | .go, .navigating => none
  | _, _ => some t

/-- The upload for which a move assigns. -/
def writer? (s : Session) (m : Move) : Option TaskId :=
  match s.resumed? m with
  | some ⟨t, c, some wake⟩ => writer t c wake
  | _ => none

/-- What a move assigns: what it adds to the history of the ingestion. -/
def writes (s : Session) (m : Move) : List PhaseWrite :=
  let before := s.state.ingest.assigned
  ((s.step m).state.ingest.assigned.drop before.length).map fun p => ⟨s.writer? m, p⟩

/-- What a run assigns, in order. -/
def phaseWrites : Session → List Move → List PhaseWrite
  | _, [] => []
  | s, m :: ms => s.writes m ++ phaseWrites (s.step m) ms

theorem phaseWrites_append (s : Session) (ms ns : List Move) :
    phaseWrites s (ms ++ ns) = phaseWrites s ms ++ phaseWrites (s.play ms) ns := by
  induction ms generalizing s with
  | nil => rfl
  | cons m ms ih => simp [phaseWrites, ih]

/-- The phases that a run of a call assigns: the return to the chat dismisses the banner. -/
def runPhases (c : Call) (wake : Wake) (begins : Bool) (f : Option (Fate String)) (i : Ingest) :
    List IngestPhase :=
  match wake, c with
  | .go, .navigating => i.dismissal
  | _, _ => uploadPhases begins f i

/-- What a run of a call assigns. -/
def runWrites (t : TaskId) (c : Call) (wake : Wake) (begins : Bool) (f : Option (Fate String))
    (i : Ingest) : List PhaseWrite :=
  (runPhases c wake begins f i).map fun p => ⟨writer t c wake, p⟩

theorem runPhases_of_ne (begins : Bool) (f : Option (Fate String)) (i : Ingest)
    (hc : wake = .go → c ≠ .navigating) : runPhases c wake begins f i = uploadPhases begins f i := by
  cases wake with
  | cancelled => rfl
  | go =>
    cases c with
    | navigating => exact absurd rfl (hc rfl)
    | _ => rfl

/-- What a run of a call that is no return to the chat assigns is for its upload. -/
theorem runWrites_of_ne (t : TaskId) (begins : Bool) (f : Option (Fate String)) (i : Ingest)
    (hc : wake = .go → c ≠ .navigating) :
    runWrites t c wake begins f i = (uploadPhases begins f i).map fun p => ⟨some t, p⟩ := by
  cases wake with
  | cancelled => rfl
  | go =>
    cases c with
    | navigating => exact absurd rfl (hc rfl)
    | _ => rfl

theorem map_phase_map (u : Option TaskId) (ps : List IngestPhase) :
    (ps.map fun p => (⟨u, p⟩ : PhaseWrite)).map PhaseWrite.phase = ps := by
  rw [List.map_map]
  exact List.map_id ps

/-- **A run of a call leaves in the history what it assigns**, and nothing else. -/
theorem assigned_of_ingestRun {begins : Bool} {f : Option (Fate String)}
    (h : IngestRun facts c wake w r begins f) :
    r.state.ingest.assigned = w.ingest.assigned ++ runPhases c wake begins f w.ingest := by
  cases h with
  | aside f hc hf hstatus hnavigation hcancel hspawn hnext hover hassigned =>
    rw [runPhases_of_ne false f w.ingest hc, hassigned, uploadPhases, hf]
    exact (List.append_nil _).symm
  | home hc hwake hingest horders hover =>
    subst hc hwake
    rw [hingest]
    exact w.ingest.assigned_prepare
  | begun f hc hfree hstatus hnavigation horders hnext hover hassigned =>
    rw [runPhases_of_ne true f w.ingest hc, hassigned]
  | ended f hc hbusy hstatus hnavigation horders hover hassigned =>
    have hne : wake = .go → c ≠ .navigating := by
      intro _ hnav
      subst hnav
      cases hc
    rw [runPhases_of_ne false (some f) w.ingest hne, hassigned]

/-- The phase that an upload ends with, if it ends with one. -/
theorem ending_eq (f : Option (Fate String)) :
    (f.bind Fate.status?).toList.map IngestStatus.phase = [] ∨
      (f.bind Fate.status?).toList.map IngestStatus.phase = [.succeeded] ∨
      (f.bind Fate.status?).toList.map IngestStatus.phase = [.failed] := by
  obtain _ | (((t | fault) | message) | _ | _) := f
  · exact .inl rfl
  · exact .inr (.inr rfl)
  · exact .inl rfl
  · exact .inr (.inl rfl)
  · exact .inl rfl
  · exact .inl rfl

/-- The end of an upload leads from `uploading` to the phase after it. -/
theorem leads_ending (f : Option (Fate String)) :
    Leads .uploading ((f.bind Fate.status?).toList.map IngestStatus.phase)
      ((f.bind Fate.status?).getD .uploading).phase := by
  obtain _ | (((t | fault) | message) | _ | _) := f
  · exact .nil _
  · exact .cons (show IngestPhase.failed ∈ uploading.next by decide) (.nil _)
  · exact .nil _
  · exact .cons (show IngestPhase.succeeded ∈ uploading.next by decide) (.nil _)
  · exact .nil _
  · exact .nil _

/-- **What a run of a call assigns leads from the phase before to the phase after.** -/
theorem leads_runWrites {begins : Bool} {f : Option (Fate String)} (t : TaskId)
    (h : IngestRun facts c wake w r begins f) :
    w.ingest.status.phase.Leads ((runWrites t c wake begins f w.ingest).map PhaseWrite.phase)
      r.state.ingest.status.phase := by
  cases h with
  | aside f hc hf hstatus hnavigation hcancel hspawn hnext hover =>
    rw [runWrites_of_ne t false f w.ingest hc, map_phase_map, hstatus, uploadPhases, hf]
    exact .nil _
  | home hc hwake hingest horders hover =>
    subst hc hwake
    rw [hingest]
    show w.ingest.status.phase.Leads ((w.ingest.dismissal.map _).map PhaseWrite.phase) _
    rw [map_phase_map]
    exact w.ingest.leads_acknowledge
  | begun f hc hfree hstatus hnavigation horders hnext hover =>
    rw [runWrites_of_ne t true f w.ingest hc, map_phase_map, hstatus, uploadPhases, if_pos rfl,
      List.append_assoc]
    have hidle : w.ingest.acknowledge.status.phase = .idle := Ingest.phase_prepare hfree
    have hbegins : Leads .idle [.uploading] .uploading := .cons (by decide) (.nil _)
    exact (hidle ▸ w.ingest.leads_acknowledge).append (hbegins.append (leads_ending f))
  | ended f hc hbusy hstatus hnavigation horders hover =>
    have hne : wake = .go → c ≠ .navigating := by
      rintro _ rfl
      cases hc
    have hlast := leads_ending (some f)
    rw [runWrites_of_ne t false (some f) w.ingest hne, map_phase_map, hbusy]
    simp only [Option.bind_some, hstatus, Option.getD_some] at hlast
    simpa [uploadPhases, hstatus] using hlast

/-- What a run of a call assigns is a dismissal, or is for an upload that begins in it or is under
    way, and that is over or under way after it. -/
theorem mem_runWrites {begins : Bool} {f : Option (Fate String)} (t : TaskId)
    (h : IngestRun facts c wake w r begins f) {a : PhaseWrite}
    (ha : a ∈ runWrites t c wake begins f w.ingest) :
    a.upload = none ∧ a.phase = .idle ∨
    a.upload = some t ∧ (begins = true ∨ c.uploading?.isSome = true) ∧
      ∀ c', r.next.continuation? = some c' → c'.uploading?.isSome = true := by
  have hupload : ∀ begins, a ∈ (uploadPhases begins f w.ingest).map
      (fun p => (⟨some t, p⟩ : PhaseWrite)) → a.upload = some t := by
    intro begins ha
    obtain ⟨p, _, rfl⟩ := List.mem_map.mp ha
    rfl
  cases h with
  | aside f hc hf hstatus hnavigation hcancel hspawn hnext hover =>
    rw [runWrites_of_ne t false f w.ingest hc, uploadPhases, hf] at ha
    cases ha
  | home hc hwake hingest horders hover =>
    subst hc hwake
    obtain ⟨p, hp, rfl⟩ := List.mem_map.mp ha
    exact .inl ⟨rfl, Ingest.eq_idle_of_mem_dismissal hp⟩
  | begun f hc hfree hstatus hnavigation horders hnext hover =>
    rw [runWrites_of_ne t true f w.ingest hc] at ha
    refine .inr ⟨hupload true ha, .inl rfl, fun c' hc' => ?_⟩
    cases f with
    | none =>
      obtain ⟨c'', hc'', hup⟩ := hnext rfl
      exact Option.some.inj (hc''.symm.trans hc') ▸ hup
    | some f =>
      rw [hover (fun e => by cases e)] at hc'
      cases hc'
  | ended f hc hbusy hstatus hnavigation horders hover =>
    have hne : wake = .go → c ≠ .navigating := by
      rintro _ rfl
      cases hc
    rw [runWrites_of_ne t false (some f) w.ingest hne] at ha
    refine .inr ⟨hupload false ha, .inr hc, fun c' hc' => ?_⟩
    rw [hover] at hc'
    cases hc'

/-- An upload that is under way after a run begins in it or was under way before. -/
theorem begins_or_uploading {begins : Bool} {f : Option (Fate String)}
    (h : IngestRun facts c wake w r begins f) {c' : Call} (hc' : r.next.continuation? = some c')
    (hup : c'.uploading?.isSome = true) : begins = true ∨ c.uploading?.isSome = true := by
  cases h with
  | aside f hc hf hstatus hnavigation hcancel hspawn hnext hover => exact .inr (hnext c' hc' hup)
  | home hc hwake hingest horders hover =>
    rw [hover] at hc'
    cases hc'
  | begun f hc hfree hstatus hnavigation horders hnext hover => exact .inl rfl
  | ended f hc hbusy hstatus hnavigation horders hover => exact .inr hc

/-! ## 3. No move is refused -/

/-- **No run of a call ends with a move that the phases do not allow**, if the phase is `uploading`
    whenever the call has an upload under way. -/
theorem next_ne_move (facts : Facts) (wake : Wake) (hv : w.tabs.listeners = [viewer])
    (hp : c.uploading?.isSome = true → w.ingest.status.phase = .uploading) (b : BadMove) :
    (behaviour facts c wake w).next ≠ .finish (.raised (.move b)) := by
  have hland : ∀ orders w' outcome,
      (landUpload facts orders w' outcome).next ≠ .finish (.raised (.move b)) := by
    rintro orders w' ((t | f) | message) <;> exact fun e => by cases e
  have hbegin : ∀ files w', (beginUpload facts files w').next ≠ .finish (.raised (.move b)) := by
    intro files w'
    by_cases h : files = [] ∨ w'.ingest.status.phase = .uploading
    · rw [beginUpload_refused facts h]
      exact fun e => by cases e
    · obtain ⟨hfiles, hfree⟩ := not_or.mp h
      rw [beginUpload_eq facts hfiles hfree]
      dsimp only
      split
      · exact hland _ _ _
      · exact hland _ _ _
      · exact fun e => by cases e
  have hsend : ∀ outcome w', (endSend outcome w').next ≠ .finish (.raised (.move b)) := by
    intro outcome w'
    unfold endSend
    dsimp only
    split <;> exact fun e => by cases e
  have hfetch : ∀ number outcome w',
      (endFetch number outcome w').next ≠ .finish (.raised (.move b)) := by
    intro number outcome w'
    unfold endFetch
    dsimp only
    split <;> exact fun e => by cases e
  cases wake with
  | cancelled => exact fun e => by cases e
  | go =>
    cases c with
    | send text =>
      show (beginSend facts text w).next ≠ _
      unfold beginSend
      split
      · exact fun e => by cases e
      · split
        · exact fun e => by cases e
        · dsimp only
          split
          · exact hsend _ _
          · exact hsend _ _
          · exact fun e => by cases e
    | sending x =>
      obtain ⟨n, _ | r⟩ := x
      · exact fun e => by cases e
      · exact hsend r.answer w
    | upload files =>
      show (if facts.closed then w.done [] (some false) else beginUpload facts files w).next ≠ _
      split
      · exact fun e => by cases e
      · exact hbegin files w
    | uploading x =>
      obtain ⟨n, _ | r⟩ := x
      · exact fun e => by cases e
      · have hrun : behaviour facts (.uploading ⟨n, some r⟩) .go w =
            landUpload facts [] w r.answer := endUpload_eq facts [] r.answer (hp rfl)
        rw [hrun]
        exact hland [] w r.answer
    | choose path =>
      show (beginChoose facts path w).next ≠ _
      unfold beginChoose
      split <;> exact fun e => by cases e
    | reading path held read =>
      obtain _ | t | files := read
      · exact fun e => by cases e
      · exact fun e => by cases e
      · exact hbegin files { w with ingest := w.ingest.select files }
    | fetch number =>
      show (beginFetch number w).next ≠ _
      unfold beginFetch
      dsimp only
      split
      · exact hfetch _ _ _
      · exact hfetch _ _ _
      · exact fun e => by cases e
    | fetching number x =>
      obtain ⟨n, _ | r⟩ := x
      · exact fun e => by cases e
      · exact hfetch number r.records w
    | navigate => exact fun e => by cases e
    | navigating =>
      have hrun : behaviour facts .navigating .go w = navigateNow facts w := rfl
      rw [hrun, navigateNow_eq hv]
      exact fun e => by cases e
    | idle =>
      show Tracking.idle facts Call.idle (none : Result) ≠ _
      unfold Tracking.idle
      split <;> exact fun e => by cases e
    | close =>
      show (beginClose facts w).next ≠ _
      unfold beginClose
      split
      · exact fun e => by cases e
      · dsimp only
        split <;> exact fun e => by cases e
    | closing => exact fun e => by cases e

/-- Whether no call has failed by a move that the phases do not allow. -/
def Lawful (s : Session) : Prop :=
  ∀ t b, s.stage? t ≠ some (.ended (.raised (.move b)))

/-! ## 4. What was assigned -/

/-- The phase against what was assigned and the uploads begun. A call that assigned a phase for its
    upload has it under way or is over. -/
structure Lifecycle (s : Session) (written : List PhaseWrite) (begun : List TaskId) : Prop where
  history : written.map PhaseWrite.phase = s.state.ingest.assigned
  path : Leads .idle (written.map PhaseWrite.phase) s.state.ingest.status.phase
  held : ∀ t, s.Uploads t → t ∈ begun
  owned : ∀ a ∈ written, a.phase ≠ .idle → ∃ t ∈ begun, a.upload = some t
  settled : ∀ a ∈ written, ∀ t, a.upload = some t → t < s.tasks.length ∧
    ∀ c, s.continuation? t = some c → c.uploading?.isSome = true

section Lifecycle

variable {s s' : Session} {m : Move} {u : TaskId} {written : List PhaseWrite} {begun : List TaskId}
  {ends : List (Fate String)}

/-- A call with an upload under way has it under way after a run, or is over. -/
theorem uploading_stays (facts : Facts) (wake : Wake) (w : World) (hc : c.uploading?.isSome = true)
    {c' : Call} (hn : (behaviour facts c wake w).next.continuation? = some c') :
    c'.uploading?.isSome = true := by
  cases c with
  | uploading x =>
    cases wake with
    | cancelled => cases hn
    | go =>
      obtain ⟨n, _ | r⟩ := x
      · cases hn
        rfl
      · have hover : (behaviour facts (.uploading ⟨n, some r⟩) .go w).next.continuation? = none :=
          continuation?_endUpload r.answer
        rw [hover] at hn
        cases hn
  | _ => cases hc

/-- A call with an upload under way that does not end in a run has it under way after it. -/
theorem uploading_goes_on (facts : Facts) (wake : Wake) (w : World)
    (hc : c.uploading?.isSome = true) (hf : uploadFate? facts c wake w = none) :
    ∃ c', (behaviour facts c wake w).next.continuation? = some c' ∧
      c'.uploading?.isSome = true := by
  cases c with
  | uploading x =>
    cases wake with
    | cancelled => cases hf
    | go =>
      obtain ⟨n, _ | r⟩ := x
      · exact ⟨_, rfl, rfl⟩
      · cases hf
  | _ => cases hc

theorem writer?_of_run (h : s.resumption? = some ⟨t, c, some wake⟩) :
    s.writer? .turn = writer t c wake := by
  simp only [writer?, resumed?, h]

theorem writer?_of_calm (h : Calm s m s') : s.writer? m = none := by
  unfold writer?
  split
  · rename_i hr
    cases h.wake _ hr
  · rfl

/-- What a move assigns, by what it leaves in the history. -/
theorem writes_eq {ps : List IngestPhase}
    (h : (s.step m).state.ingest.assigned = s.state.ingest.assigned ++ ps) :
    s.writes m = ps.map fun p => ⟨s.writer? m, p⟩ := by
  simp only [writes, h, List.drop_left]

theorem writes_of_run (ht : Tidy s) (hb : Guarded uploads s ends)
    (h : s.resumption? = some ⟨t, c, some wake⟩) : s.writes .turn =
    runWrites t c wake (accepts c wake (behaviour s.facts c wake s.state))
      (uploadFate? s.facts c wake s.state) s.state.ingest := by
  have hassigned := assigned_of_ingestRun (ingestRun_of_run ht hb h)
  rw [← state_of_run h] at hassigned
  rw [writes_eq hassigned, writer?_of_run h]
  rfl

theorem upload?_of_run (h : s.resumption? = some ⟨t, c, some wake⟩) : s.upload? .turn =
    if accepts c wake (behaviour s.facts c wake s.state) then some t else none := by
  simp only [upload?, resumed?, h]

theorem upload?_of_calm (h : Calm s m s') : s.upload? m = none := by
  unfold upload?
  split
  · rename_i hr
    cases h.wake _ hr
  · rfl

/-- A calm step assigns a dismissal or nothing. -/
theorem writes_of_calm (h : Calm s m (s.step m)) :
    s.writes m = [] ∧ (s.step m).state.ingest = s.state.ingest ∨
      s.writes m = s.state.ingest.dismissal.map (fun p => ⟨none, p⟩) ∧
        (s.step m).state.ingest = s.state.ingest.acknowledge := by
  have hingest := h.ingest
  have hsame : (s.step m).state.ingest = s.state.ingest → s.writes m = [] := fun hkept =>
    writes_eq ((congrArg Ingest.assigned hkept).trans (List.append_nil _).symm)
  cases m with
  | acknowledge =>
    have hassigned := (congrArg Ingest.assigned hingest).trans s.state.ingest.assigned_acknowledge
    refine .inr ⟨?_, hingest⟩
    rw [writes_eq hassigned, writer?_of_calm h]
  | _ => exact .inl ⟨hsame hingest, hingest⟩

theorem Lifecycle.calm (h : Lifecycle s written begun) (ht : Tidy s) (hc : Calm s m (s.step m)) :
    Lifecycle (s.step m) (written ++ s.writes m) begun := by
  have hall : (∀ a ∈ s.writes m, a.phase = .idle ∧ a.upload = none) ∧
      (written ++ s.writes m).map PhaseWrite.phase = (s.step m).state.ingest.assigned ∧
      Leads .idle ((written ++ s.writes m).map PhaseWrite.phase)
        (s.step m).state.ingest.status.phase := by
    rcases writes_of_calm hc with ⟨hnone, hingest⟩ | ⟨hwrites, hingest⟩
    · rw [hnone, List.append_nil, hingest]
      exact ⟨fun a ha => (by cases ha), h.history, h.path⟩
    · rw [hwrites, hingest, List.map_append, map_phase_map, Ingest.assigned_acknowledge, h.history]
      refine ⟨fun a ha => ?_, rfl, (h.history ▸ h.path).append s.state.ingest.leads_acknowledge⟩
      obtain ⟨p, hp, rfl⟩ := List.mem_map.mp ha
      exact ⟨Ingest.eq_idle_of_mem_dismissal hp, rfl⟩
  obtain ⟨hidle, hhistory, hpath⟩ := hall
  refine ⟨hhistory, hpath, fun u hu => h.held u ((uploads.holds_calm ht hc u).mp hu), fun a ha hne => ?_,
    fun a ha u hu => ?_⟩
  · rcases List.mem_append.mp ha with ha | ha
    · exact h.owned a ha hne
    · exact absurd (hidle a ha).1 hne
  · rcases List.mem_append.mp ha with ha | ha
    · obtain ⟨hlt, hup⟩ := h.settled a ha u hu
      refine ⟨Nat.lt_of_lt_of_le hlt hc.length, fun c' hc' => ?_⟩
      rcases hc.continuation_before hc' with ⟨c, hcont, hrec⟩ | ⟨hnew, _⟩
      · have hold := hup c hcont
        cases hrec with
        | nothing => exact hold
        | reply r => rw [steady_uploading?.take]; exact hold
        | files selected => rw [steady_uploading?.takeFiles]; exact hold
      · exact absurd hlt (hnew ▸ Nat.lt_irrefl _)
    · rw [(hidle a ha).2] at hu
      cases hu

theorem Lifecycle.run (h : Lifecycle s written begun) (ht : Tidy s) (hb : Guarded uploads s ends)
    (hrun : s.resumption? = some ⟨t, c, some wake⟩) :
    Lifecycle (s.step .turn) (written ++ s.writes .turn) (begun ++ (s.upload? .turn).toList) := by
  have hcont : s.continuation? t = some c := Loop.Resumption.continuation?_eq hrun
  have hlt : t < s.tasks.length := Loop.Resumption.lt hrun
  have hlength : s.tasks.length ≤ (s.step .turn).tasks.length := Loop.length_le_turned_of_run hrun
  have hnext := continuation?_of_run hrun
  have hingest := ingestRun_of_run ht hb hrun
  have hpath := leads_runWrites t hingest
  have hhistory := assigned_of_ingestRun hingest
  rw [← state_of_run hrun] at hpath hhistory
  have hold : ∀ a ∈ written, ∀ u, a.upload = some u → u < (s.step .turn).tasks.length ∧
      ∀ c', (s.step .turn).continuation? u = some c' → c'.uploading?.isSome = true := by
    intro a ha u hu
    obtain ⟨hu', hup⟩ := h.settled a ha u hu
    refine ⟨Nat.lt_of_lt_of_le hu' hlength, fun c' hc' => ?_⟩
    rcases continuation_before_run hrun hc' with ⟨rfl, p, hn⟩ | ⟨_, hc'⟩ | ⟨hle, _⟩
    · exact uploading_stays s.facts wake s.state (hup c hcont) (by rw [hn]; rfl)
    · exact hup c' hc'
    · exact absurd hu' (Nat.not_lt.mpr hle)
  rw [writes_of_run ht hb hrun, upload?_of_run hrun]
  generalize accepts c wake (behaviour s.facts c wake s.state) = begins at hingest hpath hhistory ⊢
  generalize uploadFate? s.facts c wake s.state = f at hingest hpath hhistory ⊢
  have hown : begins = true ∨ c.uploading?.isSome = true →
      t ∈ begun ++ (if begins then some t else none).toList := by
    rintro (rfl | hc)
    · exact List.mem_append_right _ (List.mem_singleton.mpr rfl)
    · exact List.mem_append_left _ (h.held t ((uploads.holds_iff hcont).mpr hc))
  refine ⟨?_, ?_, fun u hu => ?_, fun a ha hne => ?_, fun a ha u hu => ?_⟩
  · rw [List.map_append, h.history, hhistory, runWrites, map_phase_map]
  · rw [List.map_append]
    exact h.path.append hpath
  · by_cases hut : u = t
    · subst hut
      obtain ⟨c', hc', hup⟩ := uploads.exists_of_holds hu
      exact hown (begins_or_uploading hingest (hnext ▸ hc') hup)
    · exact List.mem_append_left _ (h.held u ((uploads.holds_run_of_ne ht hrun hut).mp hu))
  · rcases List.mem_append.mp ha with ha | ha
    · obtain ⟨u, hu, hau⟩ := h.owned a ha hne
      exact ⟨u, List.mem_append_left _ hu, hau⟩
    · rcases mem_runWrites t hingest ha with ⟨_, hidle⟩ | ⟨hat, hor, _⟩
      · exact absurd hidle hne
      · exact ⟨t, hown hor, hat⟩
  · rcases List.mem_append.mp ha with ha | ha
    · exact hold a ha u hu
    · rcases mem_runWrites t hingest ha with ⟨hnone, _⟩ | ⟨hat, _, hup⟩
      · rw [hnone] at hu
        cases hu
      · obtain rfl := Option.some.inj (hat.symm.trans hu)
        exact ⟨Nat.lt_of_lt_of_le hlt hlength, fun c' hc' => hup c' (hnext ▸ hc')⟩

/-- **Every step keeps the lifecycle of the uploads.** -/
theorem lifecycle_step (h : Lifecycle s written begun) (ht : Tidy s) (hb : Guarded uploads s ends)
    (m : Move) : Lifecycle (s.step m) (written ++ s.writes m) (begun ++ (s.upload? m).toList) := by
  rcases calm_or_run ht.listeners m with hc | ⟨rfl, t, c, wake, hrun⟩
  · rw [upload?_of_calm hc, Option.toList_none, List.append_nil]
    exact h.calm ht hc
  · exact h.run ht hb hrun

theorem lawful_step (h : Lawful s) (ht : Tidy s) (hb : Guarded uploads s ends) (m : Move) :
    Lawful (s.step m) := by
  intro u b hu
  rcases calm_or_run ht.listeners m with hc | ⟨rfl, t, c, wake, hrun⟩
  · rcases hc.stage_before hu with ⟨st, hs, hd | he⟩ | ⟨_, c, _, he⟩
    · exact h u b (hd.of_ended ▸ hs)
    · cases he
    · cases he
  · have hp : c.uploading?.isSome = true → s.state.ingest.status.phase = .uploading := fun hup =>
      hb.flag t ((uploads.holds_iff (Loop.Resumption.continuation?_eq hrun)).mpr hup)
    rcases Loop.stage?_turned_of_run hrun hu with ⟨rfl, he⟩ | ⟨_, st, hs, ⟨_, he⟩ | ⟨_, he⟩⟩ |
      ⟨_, _, _, _, _, _, he⟩
    · exact next_ne_move s.facts wake ht.listeners hp b (Loop.next_of_after_eq_ended he.symm)
    · cases st with
      | ended e => exact h u b (hs.trans (congrArg some he.symm))
      | queued c begun cancelled => cases he
      | waiting c v => cases he
    · exact h u b (hs.trans (congrArg some he.symm))
    · cases he

/-- **After every run the uploads keep to their lifecycle.** -/
theorem lifecycle_play (client : Client) (delay : Binary64) (greeting : Option String)
    (files : FileSystem) (ms : List Move) :
    Lawful ((opened client delay greeting files).play ms) ∧
    Lifecycle ((opened client delay greeting files).play ms)
      (phaseWrites (opened client delay greeting files) ms)
      (log upload? (opened client delay greeting files) ms) := by
  induction ms using List.reverseRecOn with
  | nil =>
    refine ⟨fun t b ht => ?_, rfl, .nil _, fun t ht => ?_, fun a ha => (by cases ha),
      fun a ha => (by cases ha)⟩
    · exact absurd (Loop.lt_of_stage? ht) (Nat.not_lt_zero t)
    · exact absurd (Guard.lt_of_holds (g := Session.uploads) ht) (Nat.not_lt_zero t)
  | append_singleton ms m ih =>
    have ht := tidy_play client delay greeting files ms
    have hb := guarded_play uploads client delay greeting files ms
    rw [play_append, phaseWrites_append, log_append, log_cons, log_nil, List.append_nil]
    have hone : phaseWrites ((opened client delay greeting files).play ms) [m] =
        ((opened client delay greeting files).play ms).writes m := List.append_nil _
    rw [hone]
    exact ⟨lawful_step ih.1 ht hb m, lifecycle_step ih.2 ht hb m⟩

/-! ## 5. One stretch for each upload -/

/-- Whether a call is over. -/
def Over (s : Session) (t : TaskId) : Prop :=
  t < s.tasks.length ∧ s.continuation? t = none

theorem over_step (ht : Tidy s) (h : s.Over t) (m : Move) : (s.step m).Over t := by
  obtain ⟨hlt, hnone⟩ := h
  rcases calm_or_run ht.listeners m with hc | ⟨rfl, u, c, wake, hrun⟩
  · refine ⟨Nat.lt_of_lt_of_le hlt hc.length,
      Option.eq_none_iff_forall_ne_some.mpr fun c' hc' => ?_⟩
    rcases hc.continuation_before hc' with ⟨c, hcont, _⟩ | ⟨hnew, _⟩
    · rw [hnone] at hcont
      cases hcont
    · exact absurd hlt (hnew ▸ Nat.lt_irrefl _)
  · refine ⟨Nat.lt_of_lt_of_le hlt (Loop.length_le_turned_of_run hrun),
      Option.eq_none_iff_forall_ne_some.mpr fun c' hc' => ?_⟩
    rcases continuation_before_run hrun hc' with ⟨rfl, _⟩ | ⟨_, hcont⟩ | ⟨hle, _⟩
    · rw [Loop.Resumption.continuation?_eq hrun] at hnone
      cases hnone
    · rw [hnone] at hcont
      cases hcont
    · exact absurd hlt (Nat.not_lt.mpr hle)

/-- A call that is over assigns nothing. -/
theorem upload_ne_of_over (ht : Tidy s) (hb : Guarded uploads s ends) (h : s.Over t)
    {a : PhaseWrite} (ha : a ∈ s.writes m) : a.upload ≠ some t := by
  intro hat
  rcases calm_or_run ht.listeners m with hc | ⟨rfl, u, c, wake, hrun⟩
  · rcases writes_of_calm hc with ⟨hnone, _⟩ | ⟨hwrites, _⟩
    · rw [hnone] at ha
      cases ha
    · rw [hwrites] at ha
      obtain ⟨p, _, rfl⟩ := List.mem_map.mp ha
      cases hat
  · rw [writes_of_run ht hb hrun] at ha
    rcases mem_runWrites u (ingestRun_of_run ht hb hrun) ha with ⟨hnone, _⟩ | ⟨hau, _, _⟩
    · rw [hnone] at hat
      cases hat
    · obtain rfl := Option.some.inj (hau.symm.trans hat)
      have hcont := Loop.Resumption.continuation?_eq hrun
      rw [h.2] at hcont
      cases hcont

theorem phaseWrites_of_over (ht : Tidy s) (hb : Guarded uploads s ends) (h : s.Over t)
    (ns : List Move) : ∀ a ∈ phaseWrites s ns, a.upload ≠ some t := by
  induction ns generalizing s ends with
  | nil => exact fun a ha => by cases ha
  | cons m ns ih =>
    intro a ha
    rcases List.mem_append.mp ha with ha | ha
    · exact upload_ne_of_over ht hb h ha
    · exact ih (tidy_step ht m) (guarded_step hb ht m) (over_step ht h m) a ha

/-- **While an upload is under way nothing is assigned but the phase that it ends with.** -/
theorem upload_step (ht : Tidy s) (hb : Guarded uploads s ends) (h : s.Uploads t) (m : Move) :
    s.writes m = [] ∧ (s.step m).Uploads t ∨
    ∃ f : Option (Fate String), s.writes m =
      ((f.bind Fate.status?).toList.map IngestStatus.phase).map (fun p => ⟨some t, p⟩) ∧
      (s.step m).Over t := by
  have hphase : s.state.ingest.status.phase = .uploading := hb.flag t h
  have hdismissal := Ingest.dismissal_of_uploading hphase
  obtain ⟨c₀, hcont₀, hc₀⟩ := uploads.exists_of_holds h
  have hlt := Loop.lt_of_continuation? hcont₀
  rcases calm_or_run ht.listeners m with hc | ⟨rfl, u, c, wake, hrun⟩
  · refine .inl ⟨?_, (uploads.holds_calm ht hc t).mpr h⟩
    rcases writes_of_calm hc with ⟨hnone, _⟩ | ⟨hwrites, _⟩
    · exact hnone
    · rw [hwrites, hdismissal]
      rfl
  · have hcont := Loop.Resumption.continuation?_eq hrun
    have hingest := ingestRun_of_run ht hb hrun
    rw [writes_of_run ht hb hrun]
    by_cases hut : t = u
    · subst hut
      obtain rfl := Option.some.inj (hcont₀.symm.trans hcont)
      have hne : wake = .go → c₀ ≠ .navigating := by
        rintro _ rfl
        cases hc₀
      have hover : (behaviour s.facts c₀ wake s.state).next.continuation? = none →
          (s.step .turn).Over t := fun hnone =>
        ⟨Nat.lt_of_lt_of_le hlt (Loop.length_le_turned_of_run hrun),
          (continuation?_of_run hrun).trans hnone⟩
      have hgoes := uploading_goes_on s.facts wake s.state hc₀
      generalize accepts c₀ wake (behaviour s.facts c₀ wake s.state) = begins at hingest ⊢
      generalize uploadFate? s.facts c₀ wake s.state = f at hingest hgoes ⊢
      rw [runWrites_of_ne t begins f s.state.ingest hne]
      cases hingest with
      | aside f hc hf hstatus hnavigation hcancel hspawn hnext hover' =>
        cases f with
        | none =>
          obtain ⟨c', hc', hup⟩ := hgoes rfl
          exact .inl ⟨rfl, (uploads.holds_iff ((continuation?_of_run hrun).trans hc')).mpr hup⟩
        | some f => exact .inr ⟨some f, rfl, hover (hover' fun e => by cases e)⟩
      | home hc hwake hingest horders hover' => exact absurd hc (hne hwake)
      | begun f hc hfree hstatus hnavigation horders hnext hover' => exact absurd hphase hfree
      | ended f hc hbusy hstatus hnavigation horders hover' =>
        exact .inr ⟨some f, rfl, hover hover'⟩
    · -- another call has no upload under way, and may not begin one
      refine .inl ⟨?_, (uploads.holds_run_of_ne ht hrun hut).mpr h⟩
      have hnone : ¬c.uploading?.isSome = true := fun hc =>
        hut (hb.unique t u h ((uploads.holds_iff hcont).mpr hc))
      generalize accepts c wake (behaviour s.facts c wake s.state) = begins at hingest ⊢
      generalize uploadFate? s.facts c wake s.state = f at hingest ⊢
      cases hingest with
      | aside f hc hf hstatus hnavigation hcancel hspawn hnext hover =>
        rw [runWrites_of_ne u false f s.state.ingest hc, uploadPhases, hf]
        rfl
      | home hc hwake hingest horders hover =>
        subst hc hwake
        show s.state.ingest.dismissal.map _ = []
        rw [hdismissal]
        rfl
      | begun f hc hfree hstatus hnavigation horders hnext hover => exact absurd hphase hfree
      | ended f hc hbusy hstatus hnavigation horders hover => exact absurd hc hnone

/-- What a run assigns from an upload under way on: the phase that the upload ends with, if it ends,
    and then nothing more for it. -/
theorem phaseWrites_of_uploads (ht : Tidy s) (hb : Guarded uploads s ends) (h : s.Uploads t)
    (ns : List Move) : ∃ (f : Option (Fate String)) (after : List PhaseWrite), phaseWrites s ns =
      ((f.bind Fate.status?).toList.map IngestStatus.phase).map (fun p => ⟨some t, p⟩) ++ after ∧
      ∀ a ∈ after, a.upload ≠ some t := by
  induction ns generalizing s ends with
  | nil => exact ⟨none, [], rfl, fun a ha => (by cases ha)⟩
  | cons m ns ih =>
    have ht' := tidy_step ht m
    have hb' := guarded_step hb ht m
    show ∃ f after, s.writes m ++ phaseWrites (s.step m) ns = _ ∧ _
    rcases upload_step ht hb h m with ⟨hnone, hup⟩ | ⟨f, hwrites, hover⟩
    · obtain ⟨f, after, heq, hafter⟩ := ih ht' hb' hup
      exact ⟨f, after, by rw [hnone, List.nil_append, heq], hafter⟩
    · exact ⟨f, phaseWrites (s.step m) ns, by rw [hwrites], phaseWrites_of_over ht' hb' hover ns⟩

/-- **An upload assigns its phases in one stretch**: from the step on that begins it. -/
theorem stretch_of_upload? (h : Lifecycle s written begun) (ht : Tidy s)
    (hb : Guarded uploads s ends) (hup : s.upload? m = some t) (ns : List Move) :
    ∃ (found ending : List IngestPhase) (after : List PhaseWrite),
      phaseWrites s (m :: ns) =
        (found ++ .uploading :: ending).map (fun p => ⟨some t, p⟩) ++ after ∧
      found = s.state.ingest.dismissal ∧
      (ending = [] ∨ ending = [.succeeded] ∨ ending = [.failed]) ∧
      (∀ a ∈ written, a.upload ≠ some t) ∧ ∀ a ∈ after, a.upload ≠ some t := by
  rcases calm_or_run ht.listeners m with hc | ⟨rfl, u, c, wake, hrun⟩
  · rw [upload?_of_calm hc] at hup
    cases hup
  · have hcont := Loop.Resumption.continuation?_eq hrun
    have hingest := ingestRun_of_run ht hb hrun
    have ht' := tidy_step ht .turn
    have hb' := guarded_step hb ht .turn
    have hwrites := writes_of_run ht hb hrun
    have haccepts : accepts c wake (behaviour s.facts c wake s.state) = true ∧ u = t := by
      rw [upload?_of_run hrun] at hup
      split at hup
      · rename_i hyes
        exact ⟨hyes, Option.some.inj hup⟩
      · cases hup
    obtain ⟨hyes, rfl⟩ := haccepts
    -- a call that begins an upload has assigned nothing before
    have hbefore : ∀ a ∈ written, a.upload ≠ some u := by
      intro a ha hau
      have hsome := (h.settled a ha u hau).2 c hcont
      have hfiles : c.files?.isSome = true := by
        simp only [accepts, Bool.and_eq_true] at hyes
        exact hyes.1.2
      cases c <;>
        first
        | exact absurd hsome Bool.false_ne_true
        | exact absurd hfiles Bool.false_ne_true
    rw [hyes] at hingest hwrites
    show ∃ found ending after, s.writes .turn ++ phaseWrites (s.step .turn) ns = _ ∧ _
    rw [hwrites]
    generalize uploadFate? s.facts c wake s.state = f at hingest ⊢
    cases hingest with
    | begun f hc hfree hstatus hnavigation horders hnext hover =>
      rw [runWrites_of_ne u true f s.state.ingest hc, uploadPhases, if_pos rfl]
      cases f with
      | none =>
        obtain ⟨c', hc', hsome⟩ := hnext rfl
        have huploads := (uploads.holds_iff ((continuation?_of_run hrun).trans hc')).mpr hsome
        obtain ⟨f, after, heq, hafter⟩ := phaseWrites_of_uploads ht' hb' huploads ns
        refine ⟨_, _, after, ?_, rfl, ending_eq f, hbefore, hafter⟩
        rw [heq]
        simp [List.map_append, List.append_assoc]
      | some f =>
        have hover' : (s.step .turn).Over u :=
          ⟨Nat.lt_of_lt_of_le (Loop.Resumption.lt hrun) (Loop.length_le_turned_of_run hrun),
            (continuation?_of_run hrun).trans (hover fun e => by cases e)⟩
        refine ⟨_, _, phaseWrites (s.step .turn) ns, ?_, rfl, ending_eq (some f), hbefore,
          phaseWrites_of_over ht' hb' hover' ns⟩
        simp [List.map_append, List.append_assoc]

end Lifecycle

/-- **The lifecycle of uploads.** In every run no call fails by a move that the phases do not allow,
    and one upload at most is under way. The phases that are assigned, which are the history of the
    ingestion, lead along their table from `idle` to the phase of the session. All but the returns to
    `idle` are assigned by uploads that were taken up, and each of these assigns its phases in one
    stretch: it may return to `idle`, is `uploading`, and may then end as `succeeded` or as
    `failed`. -/
theorem lifecycle_of_run (client : Client) (delay : Binary64) (greeting : Option String)
    (files : FileSystem) (ms : List Move) :
    let start := opened client delay greeting files
    let s := start.play ms
    let written := phaseWrites start ms
    let begun := log upload? start ms
    (∀ t b, s.stage? t ≠ some (.ended (.raised (.move b)))) ∧
    (∀ t u, s.Uploads t → s.Uploads u → t = u) ∧
    written.map PhaseWrite.phase = s.state.ingest.assigned ∧
    IngestPhase.Leads .idle (written.map PhaseWrite.phase) s.state.ingest.status.phase ∧
    (∀ a ∈ written, a.phase ≠ .idle → ∃ t ∈ begun, a.upload = some t) ∧
    ∀ t ∈ begun, ∃ (found ending : List IngestPhase) (before after : List PhaseWrite),
      written = before ++ (found ++ .uploading :: ending).map (fun p => ⟨some t, p⟩) ++ after ∧
      (found = [] ∨ found = [.idle]) ∧
      (ending = [] ∨ ending = [.succeeded] ∨ ending = [.failed]) ∧
      ∀ a ∈ before ++ after, a.upload ≠ some t := by
  intro start s written begun
  have hb := guarded_play uploads client delay greeting files ms
  obtain ⟨hlawful, hl⟩ := lifecycle_play client delay greeting files ms
  refine ⟨hlawful, hb.unique, hl.history, hl.path, hl.owned, fun t ht => ?_⟩
  obtain ⟨before, m, after, rfl, hup⟩ := exists_of_mem_log ht
  have htidy := tidy_play client delay greeting files before
  have hguarded := guarded_play uploads client delay greeting files before
  have hbefore := (lifecycle_play client delay greeting files before).2
  obtain ⟨found, ending, rest, heq, hfound, hending, hold, hnew⟩ :=
    stretch_of_upload? hbefore htidy hguarded hup after
  refine ⟨found, ending, phaseWrites start before, rest, ?_, ?_, hending, fun a ha => ?_⟩
  · have hall : written =
        phaseWrites start before ++ phaseWrites (start.play before) (m :: after) :=
      phaseWrites_append start before (m :: after)
    rw [hall, heq, List.append_assoc]
  · rw [hfound]
    exact Ingest.dismissal_eq _
  · rcases List.mem_append.mp ha with ha | ha
    · exact hold a ha
    · exact hnew a ha

/-- An upload succeeds, and another one begins and fails. -/
def twoUploads : List Move :=
  [.launch (.upload [⟨"project/a.txt", [97], "text/plain"⟩]), .turn,
    .answer 0 (.common 200 [111, 107] none), .turn,
    .launch (.upload [⟨"project/b.txt", [98], "text/plain"⟩]), .turn, .turn, .turn, .turn,
    .answer 2 (.broken "refused"), .turn]

/-- Each of the two has its stretch. -/
theorem lifecycle_of_twoUploads :
    ∃ (found ending : List IngestPhase) (before after : List PhaseWrite),
      phaseWrites sample twoUploads =
        before ++ (found ++ .uploading :: ending).map (fun p => ⟨some 2, p⟩) ++ after ∧
      (found = [] ∨ found = [.idle]) ∧
      (ending = [] ∨ ending = [.succeeded] ∨ ending = [.failed]) ∧
      ∀ a ∈ before ++ after, a.upload ≠ some 2 := by
  have hbegun : log upload? sample twoUploads = [0, 2] := by decide +kernel
  obtain ⟨_, _, _, _, _, hstretch⟩ := lifecycle_of_run _ _ _ _ twoUploads
  exact hstretch 2 (hbegun ▸ by decide)

end Session

end CodeSession
