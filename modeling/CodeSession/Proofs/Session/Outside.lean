import CodeSession.Proofs.Session.Loading
import CodeSession.Proofs.Session.Reckoning

/-!
# The inspection and the ingestion, told from outside

What happens to the inspection and to the ingestion in a run, as their surroundings see it.

* `InspectionInput` -- the inspection is shown, a fetch brings its outcome, the session is closed;
* `settled_of_inputs`, `closed_of_inputs` -- these tell the records, the error and whether the
  session is closed;
* `CutOff`, `loading_play_iff` -- whether the inspection is loading depends on how its latest fetch
  ended, a cancellation under way included;
* `IngestInput`, `ingest_step`, `ingest_of_inputs` -- the ingestion is told by its events and the
  return to the chat among them, in whatever time they come.
-/

namespace CodeSession.Session

open Backend Folder

variable {s s' : Session} {m : Move} {ms : List Move} {t : TaskId} {c : Call} {wake : Wake}

/-! ## 1. What happens to the inspection -/

/-- What happens to the inspection from outside. What the close makes of a fetch is not told. -/
inductive InspectionInput where
  | shown
  | landed (number : Nat) (outcome : Except CallTrouble RecordSet)
  | closed

/-- An event as it is seen from outside: a cancellation is not. -/
def InspectionEvent.input? : InspectionEvent → Option InspectionInput
  | .shown => some .shown
  | .ended number (.landed outcome) => some (.landed number outcome)
  | .ended _ _ => none

/-- The event that is seen from outside, if it is one of the inspection. -/
def InspectionInput.event? : InspectionInput → Option InspectionEvent
  | .shown => some .shown
  | .landed number outcome => some (.ended number (.landed outcome))
  | .closed => none

/-- What a move does to the inspection, as it is seen from outside. -/
def inspectionInput? (s : Session) (m : Move) : Option InspectionInput :=
  if s.closes m then some .closed else (s.inspectionEvent? m).bind InspectionEvent.input?

/-- The step that closes the session does nothing else to the inspection. -/
theorem inspectionEvent?_of_closes (h : s.closes m = true) : s.inspectionEvent? m = none := by
  unfold closes at h
  split at h
  · rename_i t hr
    obtain rfl : m = .turn := by
      cases m with
      | turn => rfl
      | _ => cases hr
    have hend : s.fetchEnd? .turn = none := by simp only [fetchEnd?, hr]; rfl
    simp only [inspectionEvent?, hend]
    rfl
  · cases h

theorem inspectionEvent?_ne_unbegun {n : Nat} :
    s.inspectionEvent? m ≠ some (.ended n .unbegun) := by
  unfold inspectionEvent?
  split
  · exact fun h => by cases h
  · split
    · exact fun h => by cases h
    · rename_i e hother he
      intro h
      obtain ⟨number, fate, isLatest⟩ := e
      cases h
      exact hother _ _ rfl
    · exact fun h => by cases h

/-- From outside all is seen but the cancellations. -/
theorem filter_events (s : Session) (ms : List Move) :
    (log inspectionEvent? s ms).filter InspectionEvent.isOutcome =
      (log inspectionInput? s ms).filterMap InspectionInput.event? := by
  have hstep : ∀ (s : Session) (m : Move),
      (s.inspectionEvent? m).toList.filter InspectionEvent.isOutcome =
        (s.inspectionInput? m).toList.filterMap InspectionInput.event? := by
    intro s m
    unfold inspectionInput?
    cases hcloses : s.closes m with
    | true =>
      rw [inspectionEvent?_of_closes hcloses]
      rfl
    | false =>
      rw [if_neg Bool.false_ne_true]
      have hbegun := fun n => inspectionEvent?_ne_unbegun (s := s) (m := m) (n := n)
      cases he : s.inspectionEvent? m with
      | none => rfl
      | some e =>
        cases e with
        | shown => rfl
        | ended n fate =>
          cases fate with
          | unbegun => exact absurd he (hbegun n)
          | _ => rfl
  induction ms generalizing s with
  | nil => rfl
  | cons m ms ih => rw [log_cons, log_cons, List.filter_append, List.filterMap_append, hstep, ih]

/-- **The records, the error and how many fetches were issued are told from outside.** -/
theorem settled_of_inputs (client : Client) (delay : Binary64) (greeting : Option String)
    (files : FileSystem) (ms : List Move) :
    let start := opened client delay greeting files
    (start.play ms).state.inspection.settled =
      (((log inspectionInput? start ms).filterMap InspectionInput.event?).foldl
        InspectionEvent.after .start).settled := by
  intro start
  have hplay : (start.play ms).state.inspection =
      (log inspectionEvent? start ms).foldl InspectionEvent.after .start :=
    inspection_play client delay greeting files ms
  rw [hplay, settled_replay _ rfl, filter_events]

/-- Whether the session is closed after an input. -/
def InspectionInput.closedAfter (closed : Bool) : InspectionInput → Bool
  | .closed => true
  | _ => closed

/-- **Whether the session is closed is told from outside.** -/
theorem closed_of_inputs (client : Client) (delay : Binary64) (greeting : Option String)
    (files : FileSystem) (ms : List Move) :
    let start := opened client delay greeting files
    (start.play ms).closed =
      (log inspectionInput? start ms).foldl InspectionInput.closedAfter false := by
  refine view_play (fun s => s.closed) (tidy_opened client delay greeting files)
    (fun _ m h => tidy_step h m) (fun s m h => ?_) ms
  rw [closed_step_eq h]
  unfold inspectionInput?
  cases s.closes m with
  | true => exact Bool.or_true _
  | false =>
    rw [Bool.or_false, if_neg Bool.false_ne_true]
    cases s.inspectionEvent? m with
    | none => rfl
    | some e =>
      cases e with
      | shown => rfl
      | ended n fate => cases fate <;> rfl

/-! ## 2. Whether the inspection is loading -/

/-- Whether the latest fetch was cancelled under way. -/
def CutOff (s : Session) (ends : List FetchEnd) : Prop :=
  ∃ isLatest, (⟨s.state.inspection.issued, .aborted, isLatest⟩ : FetchEnd) ∈ ends

/-- **The inspection is loading from its first fetch on, unless the latest one has begun and
    ended.** -/
theorem loading_play_iff (client : Client) (delay : Binary64) (greeting : Option String)
    (files : FileSystem) (ms : List Move) :
    let start := opened client delay greeting files
    let s := start.play ms
    s.state.inspection.loading = true ↔ 0 < s.state.inspection.issued ∧
      ∀ e ∈ log fetchEnd? start ms, e.number = s.state.inspection.issued → e.fate = .unbegun := by
  refine (play_log_induction (P := fun s ends => Tidy s ∧ Numbered s ends ∧
    (s.state.inspection.loading = true ↔ 0 < s.state.inspection.issued ∧
      ∀ e ∈ ends, e.number = s.state.inspection.issued → e.fate = .unbegun))
    ⟨tidy_opened client delay greeting files, numbered_opened client delay greeting files, ?_⟩
    (fun s ends m h => ?_) ms).2.2
  · exact ⟨fun h => (by cases h), fun h => absurd h.1 (Nat.lt_irrefl 0)⟩
  obtain ⟨ht, hn, hl⟩ := h
  have hcourse := course_step ht m
  refine ⟨tidy_step ht m, numbered_step hn hcourse, ?_⟩
  generalize s.step m = s' at hcourse
  generalize s.fetchEnd? m = o at hcourse
  cases hcourse with
  | still hm hall hi =>
    rw [hi, Option.toList_none, List.append_nil]
    exact hl
  | issued t hm ht hnew hother hi =>
    -- no end is that of a fetch which has just been issued
    rw [hi, Option.toList_none, List.append_nil]
    refine ⟨fun _ => ⟨Nat.succ_pos _, fun e he hnum => ?_⟩, fun _ => rfl⟩
    have hle := hn.ended e he
    have hnext : e.number = s.state.inspection.issued + 1 := hnum
    omega
  | ended t n fate hm ht hgone hother hi hopen =>
    have hissued : s'.state.inspection.issued = s.state.inspection.issued := by
      rw [hi, Inspection.issued_resolve]
    have hpos := (hn.bounds t n ht)
    rw [hissued, Option.toList_some, List.forall_mem_append, List.forall_mem_singleton, hi]
    by_cases hlast : n = s.state.inspection.issued
    · subst hlast
      have hfresh : ∀ e ∈ ends, e.number = s.state.inspection.issued → e.fate = .unbegun :=
        fun e he hnum => absurd (hnum ▸ ht) (hn.gone e he t)
      have hloading : s.state.inspection.loading = true := hl.mpr ⟨hpos.1, hfresh⟩
      cases fate with
      | unbegun => exact ⟨fun _ => ⟨hpos.1, hfresh, fun _ => rfl⟩, fun _ => hloading⟩
      | _ =>
        rw [loading_resolve rfl]
        exact ⟨fun h => (by cases h), fun h => by cases h.2.2 rfl⟩
    · rw [Inspection.resolve_stale hlast, hl]
      exact and_congr_right fun _ => ⟨fun h => ⟨h, fun hnum => absurd hnum hlast⟩, fun h => h.1⟩

/-- A fetch brings an outcome, as it is seen from outside. -/
theorem inspectionInput?_eq_landed_iff {n : Nat} {outcome : Except CallTrouble RecordSet} :
    s.inspectionInput? m = some (.landed n outcome) ↔
      ∃ isLatest, s.fetchEnd? m = some ⟨n, .landed outcome, isLatest⟩ := by
  unfold inspectionInput?
  cases hcloses : s.closes m with
  | true =>
    have hnone := inspectionEvent?_of_closes hcloses
    refine ⟨fun h => (by cases h), fun ⟨isLatest, h⟩ => ?_⟩
    unfold inspectionEvent? at hnone
    rw [h] at hnone
    split at hnone <;> cases hnone
  | false =>
    rw [if_neg Bool.false_ne_true]
    unfold inspectionEvent?
    cases hm : m.activates s.closed with
    | true =>
      have hnone : s.fetchEnd? m = none := by
        cases m with
        | turn => cases hm
        | _ => rfl
      rw [hnone]
      exact ⟨fun h => (by cases h), fun ⟨_, h⟩ => by cases h⟩
    | false =>
      rw [if_neg Bool.false_ne_true]
      cases s.fetchEnd? m with
      | none => exact ⟨fun h => (by cases h), fun ⟨_, h⟩ => by cases h⟩
      | some e =>
        obtain ⟨number, fate, isLatest⟩ := e
        cases fate with
        | landed outcome' =>
          refine ⟨fun h => ⟨isLatest, ?_⟩, fun ⟨_, h⟩ => ?_⟩
          · cases h
            rfl
          · cases h
            rfl
        | _ => exact ⟨fun h => (by cases h), fun ⟨_, h⟩ => by cases h⟩

theorem mem_inputs_iff {n : Nat} {outcome : Except CallTrouble RecordSet} :
    InspectionInput.landed n outcome ∈ log inspectionInput? s ms ↔
      ∃ isLatest, (⟨n, .landed outcome, isLatest⟩ : FetchEnd) ∈ log fetchEnd? s ms := by
  induction ms generalizing s with
  | nil => simp
  | cons m ms ih =>
    simp only [log_cons, List.mem_append, Option.mem_toList, ih,
      inspectionInput?_eq_landed_iff, exists_or]

section Run

variable (client : Client) (delay : Binary64) (greeting : Option String) (files : FileSystem)
  (ms : List Move)

/-- Whether the inspection is loading, told from outside but for a cancellation under way. -/
theorem loading_iff_inputs :
    let start := opened client delay greeting files
    let s := start.play ms
    s.state.inspection.loading = true ↔ 0 < s.state.inspection.issued ∧
      (∀ outcome, .landed s.state.inspection.issued outcome ∉ log inspectionInput? start ms) ∧
      ¬s.CutOff (log fetchEnd? start ms) := by
  intro start s
  refine (loading_play_iff client delay greeting files ms).trans
    (and_congr_right fun _ => ⟨fun h => ⟨fun outcome hmem => ?_, ?_⟩, ?_⟩)
  · obtain ⟨isLatest, he⟩ := mem_inputs_iff.mp hmem
    cases h _ he rfl
  · rintro ⟨isLatest, he⟩
    cases h _ he rfl
  · rintro ⟨hlanded, hcut⟩ ⟨number, fate, isLatest⟩ he rfl
    cases fate with
    | landed outcome => exact absurd (mem_inputs_iff.mpr ⟨isLatest, he⟩) (hlanded outcome)
    | aborted => exact absurd ⟨isLatest, he⟩ hcut
    | unbegun => rfl

/-- A fetch that was cancelled under way was issued, brought no outcome, and it was the close that
    cancelled it. -/
theorem of_cutOff :
    let start := opened client delay greeting files
    let s := start.play ms
    s.CutOff (log fetchEnd? start ms) → 0 < s.state.inspection.issued ∧
      (∀ outcome, .landed s.state.inspection.issued outcome ∉ log inspectionInput? start ms) ∧
      s.closed = true := by
  rintro start s ⟨isLatest, he⟩
  have honce := (numbered_play client delay greeting files ms).once
  obtain ⟨before, m, after, hms, hend⟩ := exists_of_mem_log he
  have ht : Tidy (start.play before) := tidy_play client delay greeting files before
  have hcourse := course_step ht m
  rw [hend] at hcourse
  refine ⟨?_, fun outcome hmem => ?_, ?_⟩
  · cases hcourse with
    | ended t n fate hm htn hgone hother hi hopen =>
      exact ((numbered_play client delay greeting files before).bounds t _ htn).1
  · obtain ⟨isLatest', he'⟩ := mem_inputs_iff.mp hmem
    cases List.inj_on_of_nodup_map honce he he' rfl
  · have hclosed : ((start.play before).step m).closed = true := by
      rw [← Bool.not_eq_false]
      intro hopen
      cases hcourse with
      | ended t n fate hm htn hgone hother hi hland =>
        obtain ⟨outcome, hfate⟩ := hland hopen
        cases hfate
    have hsplit : s = ((start.play before).step m).play after := by
      show start.play ms = _
      rw [hms, play_append, play_cons]
    rw [hsplit]
    exact closed_play (tidy_step ht m) hclosed after

end Run

/-! ## 3. What happens to the ingestion -/

/-- What happens to the ingestion from outside, the return to the chat among it. -/
inductive IngestInput where
  | dismissed
  | returned
  | given (files : List SelectedFile) (isRead : Bool) (fate : Option (Fate String))
  | ended (fate : Fate String)
  | closed
  deriving DecidableEq

/-- An event without what the clock tells. -/
def IngestEvent.input : IngestEvent → IngestInput
  | .dismissed => .dismissed
  | .given files isRead fate => .given files isRead fate
  | .ended fate => .ended fate
  | .closed _ => .closed

/-- What a move does to the ingestion, as it is seen from outside. -/
def ingestInput? (s : Session) (m : Move) : Option IngestInput :=
  if (s.backToChat? m).isSome then some .returned else (s.ingestEvent? m).map IngestEvent.input

/-- The ingestion as it stands: no return to the chat is reckoned with. -/
def ingestion (s : Session) : Reckoning :=
  ⟨s.state.ingest.status, s.state.ingest.selection, none, s.closed⟩

/-- The ingestion after an input. -/
def IngestInput.after (r : Reckoning) : IngestInput → Reckoning
  | .dismissed | .returned => { r with status := r.status.dismissed }
  | .given files isRead fate => r.given none 0 files isRead fate
  | .ended fate => r.finish none 0 fate
  | .closed => { r with closed := true }

theorem ingestion_eq {r : Reckoning} (hclosed : s.closed = r.closed) (hdue : r.due = none)
    (hselection : s.state.ingest.selection = r.selection)
    (hstatus : s.state.ingest.status = r.status) : s.ingestion = r := by
  obtain ⟨status, selection, due, closed⟩ := r
  dsimp only at hclosed hdue hselection hstatus
  rw [ingestion, hclosed, hdue, hselection, hstatus]

/-- The ingestion after an upload has ended. -/
theorem ingestion_eq_finish {r : Reckoning} {f : Fate String} (hclosed : s.closed = r.closed)
    (hdue : r.due = none) (hselection : s.state.ingest.selection = [])
    (hstatus : s.state.ingest.status = f.status?.getD r.status) :
    s.ingestion = r.finish none 0 f := by
  refine ingestion_eq ?_ ?_ ?_ ?_
  · rw [Reckoning.closed_finish, hclosed]
  · rw [Reckoning.due_finish fun _ => hdue]
    split <;> rfl
  · rw [Reckoning.selection_finish, hselection]
  · rw [Reckoning.status_finish, hstatus]

theorem ingestInput?_of_back (h : s.backToChat? m = none) :
    s.ingestInput? m = (s.ingestEvent? m).map IngestEvent.input := by
  rw [ingestInput?, h]
  rfl

section Step

variable {ends : List (Fate String)} {files : List SelectedFile}

/-- A step that runs no call: the user may dismiss the banner. -/
theorem ingestion_of_calm (hc : Calm s m (s.step m)) :
    (s.step m).ingestion = (s.ingestInput? m).toList.foldl IngestInput.after s.ingestion := by
  rw [ingestInput?_of_back (backToChat?_of_calm hc)]
  have hclosed : (s.step m).closed = s.closed := hc.closed
  by_cases hack : m = .acknowledge
  · subst hack
    have hingest : (s.step .acknowledge).state.ingest = s.state.ingest.acknowledge := hc.ingest
    exact ingestion_eq hclosed rfl (by rw [hingest, Ingest.selection_acknowledge]; rfl)
      (by rw [hingest, Ingest.status_acknowledge]; rfl)
  · have hingest := ingest_of_calm hc hack
    rw [ingestEvent?_of_calm hc hack]
    exact ingestion_eq hclosed rfl (congrArg _ hingest) (congrArg _ hingest)

/-- The step that closes the session leaves the ingestion as it is. -/
theorem ingestion_of_closes (ht : Tidy s) (hrun : s.resumption? = some ⟨t, c, some wake⟩)
    (hcloses : s.closes .turn = true) :
    (s.step .turn).ingestion = (s.ingestInput? .turn).toList.foldl IngestInput.after s.ingestion := by
  obtain ⟨rfl, _⟩ := (ht.tame c wake).seals ((closes_of_run ht hrun).mp hcloses)
  have hback := backToChat?_of_run hrun fun _ e => by cases e
  have hclosed := closed_of_closes ht hcloses
  have hingest := ingest_of_closes ht hrun hcloses
  rw [ingestInput?_of_back hback, ingestEvent?_of_run hrun, if_pos hcloses]
  exact ingestion_eq hclosed rfl (congrArg _ hingest) (congrArg _ hingest)

/-- A call goes on with files that it was given. -/
theorem ingestion_of_given (ht : Tidy s) (hb : Guarded uploads s ends)
    (hrun : s.resumption? = some ⟨t, c, some .go⟩) (hcloses : s.closes .turn = false)
    (hfiles : c.files? = some files) :
    (s.step .turn).ingestion = (s.ingestInput? .turn).toList.foldl IngestInput.after s.ingestion := by
  have hback := backToChat?_of_run hrun fun _ => Call.ne_navigating_of_files hfiles
  have hclosed := closed_of_not_closes ht hcloses
  have hingest := ingestRun_of_run ht hb hrun
  obtain ⟨hrefusal, hnone, hselection⟩ := behaviour_given s.facts s.state hfiles
  have hrefuses : s.ingestion.refuses files c.isReading = true ↔
      isRefusal (behaviour s.facts c .go s.state).next = true := by
    rw [hrefusal]
    have hfacts : (Loop.facts s).closed = s.closed := rfl
    simp [Reckoning.refuses, ingestion, hfacts, or_assoc]
  rw [accepts_of_files hfiles] at hingest
  rw [← state_of_run hrun] at hselection
  rw [ingestInput?_of_back hback, ingestEvent?_of_files hrun hcloses hfiles]
  show (s.step .turn).ingestion = s.ingestion.given none 0 files c.isReading _
  generalize uploadFate? s.facts c .go s.state = f at hingest hnone hselection ⊢
  cases hrefused : isRefusal (behaviour s.facts c .go s.state).next with
  | true =>
    -- they are refused, and at most selected
    obtain rfl := hnone hrefused
    rw [hrefused] at hingest
    rw [Reckoning.given, if_pos (hrefuses.mpr hrefused)]
    cases hingest with
    | aside f hc hf hstatus hnavigation hcancel hspawn hnext hover =>
      rw [← state_of_run hrun] at hstatus
      exact ingestion_eq hclosed rfl hselection hstatus
    | home hc hwake hingest horders hover =>
      subst hc
      cases hfiles
  | false =>
    rw [hrefused] at hingest
    have hrefuses : ¬s.ingestion.refuses files c.isReading = true := fun e =>
      Bool.false_ne_true (hrefused.symm.trans (hrefuses.mp e))
    rw [Reckoning.given, if_neg hrefuses]
    cases hingest with
    | begun f hc hfree hstatus hnavigation horders hnext hover =>
      rw [← state_of_run hrun] at hstatus
      cases f with
      | none => exact ingestion_eq hclosed rfl hselection hstatus
      | some f =>
        show _ = (s.ingestion.select files c.isReading).begin.finish none 0 f
        exact ingestion_eq_finish hclosed rfl hselection hstatus

/-- A call goes on otherwise: the upload under way may end in it, or it returns to the chat. -/
theorem ingestion_of_other (ht : Tidy s) (hb : Guarded uploads s ends)
    (hrun : s.resumption? = some ⟨t, c, some wake⟩) (hcloses : s.closes .turn = false)
    (hfiles : wake = .go → c.files? = none) :
    (s.step .turn).ingestion = (s.ingestInput? .turn).toList.foldl IngestInput.after s.ingestion := by
  have hclosed := closed_of_not_closes ht hcloses
  have hstate := state_of_run hrun
  have hingest := ingestRun_of_run ht hb hrun
  have hselection := selection_of_not_given s.facts ht.listeners hfiles
  rw [accepts_of_no_files hfiles] at hingest
  rw [← hstate] at hselection
  by_cases hhome : c = .navigating ∧ wake = .go
  · obtain ⟨rfl, rfl⟩ := hhome
    have hback := backToChat?_of_navigating hrun
    obtain ⟨hhome, _⟩ := step_of_backToChat? ht hback
    have hinput : s.ingestInput? .turn = some .returned := by rw [ingestInput?, hback]; rfl
    rw [hinput]
    refine ingestion_eq hclosed rfl hselection ?_
    rw [hhome]
    exact Ingest.status_acknowledge _
  · have hback := backToChat?_of_run hrun fun hgo hnav => hhome ⟨hnav, hgo⟩
    rw [ingestInput?_of_back hback, ingestEvent?_of_no_files hrun hcloses hfiles]
    generalize uploadFate? s.facts c wake s.state = f at hingest hselection ⊢
    cases hingest with
    | aside f hc hf hstatus hnavigation hcancel hspawn hnext hover =>
      rw [← hstate] at hstatus
      cases f with
      | none => exact ingestion_eq hclosed rfl hselection hstatus
      | some f =>
        have hnone : f.status? = none := hf
        show _ = s.ingestion.finish none 0 f
        refine ingestion_eq_finish hclosed rfl hselection ?_
        rw [hstatus, hnone]
        rfl
    | home hc hwake hingest horders hover => exact absurd ⟨hc, hwake⟩ hhome
    | ended f hc hbusy hstatus hnavigation horders hover =>
      rw [← hstate] at hstatus
      show _ = s.ingestion.finish none 0 f
      refine ingestion_eq_finish hclosed rfl hselection ?_
      rw [hstatus]
      rfl

/-- **A step changes the ingestion by its own input alone.** -/
theorem ingestion_step (ht : Tidy s) (hb : Guarded uploads s ends) (m : Move) :
    (s.step m).ingestion = (s.ingestInput? m).toList.foldl IngestInput.after s.ingestion := by
  rcases calm_or_run ht.listeners m with hc | ⟨rfl, t, c, wake, hrun⟩
  · exact ingestion_of_calm hc
  · cases hcloses : s.closes .turn with
    | true => exact ingestion_of_closes ht hrun hcloses
    | false =>
      by_cases hfiles : wake = .go → c.files? = none
      · exact ingestion_of_other ht hb hrun hcloses hfiles
      · obtain ⟨rfl, hsome⟩ := Classical.not_imp.mp hfiles
        obtain ⟨files, hsome⟩ := Option.ne_none_iff_exists'.mp hsome
        exact ingestion_of_given ht hb hrun hcloses hsome

end Step

/-- **The ingestion of a run is told by its inputs**, in whatever time they come. -/
theorem ingestion_play (client : Client) (delay : Binary64) (greeting : Option String)
    (files : FileSystem) (ms : List Move) :
    let start := opened client delay greeting files
    (start.play ms).ingestion = (log ingestInput? start ms).foldl IngestInput.after .start :=
  view_play (P := fun s => Tidy s ∧ ∃ ends, Guarded uploads s ends) ingestion
    ⟨tidy_opened client delay greeting files, _,
      guarded_play uploads client delay greeting files []⟩
    (fun _ m h => ⟨tidy_step h.1 m, _, guarded_step h.2.choose_spec h.1 m⟩)
    (fun _ m h => ingestion_step h.1 h.2.choose_spec m) ms

end CodeSession.Session
