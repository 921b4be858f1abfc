import CodeSession.Proofs.Session.Fetching

/-!
# The latest fetch

Only the latest fetch counts. Other ends change nothing, and from its last activation on what the
inspection comes to show is told by the outcome of one fetch.

* `Inspection.view` -- the records, the error and the flag that the inspection shows;
* `Settling` -- from an activation on, its fetch is under way and the view that of the activation,
  or the fetch has ended and the view is the one that its outcome calls for;
* `view_of_latest_fetch` -- which steps change the view, in which order ends count, and what the view
  is once all fetches have ended.
-/

namespace CodeSession

open Backend

/-! ## 1. Views -/

namespace Inspection

/-- What the inspection shows: the records held, an error, and whether a fetch is under way. -/
def view (i : Inspection) : Option RecordSet × Option String × Bool :=
  (i.snapshot.map Snapshot.records, i.error, i.loading)

/-- The view that the outcome of the latest fetch calls for, with the records held when it was
    issued. -/
def viewAfter (kept : Option RecordSet) :
    Except CallTrouble RecordSet → Option RecordSet × Option String × Bool
  | .ok records => (some records, none, false)
  | .error (.backend t) =>
    (kept, some (if t.description = "" then "Failed to fetch data" else t.description), false)
  | .error (.fault _) => (kept, none, false)

theorem view_issue (i : Inspection) : i.issue.view = (i.snapshot.map Snapshot.records, none, true) :=
  rfl

theorem describe_eq (t : Trouble) :
    describe t = if t.description = "" then "Failed to fetch data" else t.description := by
  simp [describe, unknownFailure]

/-- The latest fetch ends with an outcome. -/
theorem view_land {i : Inspection} {kept : Option RecordSet}
    (h : i.view = (kept, none, true)) (outcome : Except CallTrouble RecordSet) :
    (i.land i.issued outcome).view = viewAfter kept outcome := by
  obtain ⟨snapshot, loading, error, issued⟩ := i
  simp only [view, Prod.mk.injEq] at h
  obtain ⟨hkept, rfl, rfl⟩ := h
  rcases outcome with (t | f) | records
  · simp [land, view, viewAfter, hkept, describe_eq]
  · simp [land, view, viewAfter, hkept]
  · simp [land, view, viewAfter]

end Inspection

namespace Session

open Folder

variable {s s' : Session} {m : Move} {ends : List FetchEnd}

/-! ## 2. From an activation on -/

/-- From the activation that issued a fetch on, as long as it is the latest: it is under way and the
    view is that of its activation, or it has ended, in an open session with an outcome, and the view
    is the one that its outcome calls for. -/
def Settling (g : Nat) (kept : Option RecordSet) (s : Session) (ends : List FetchEnd) : Prop :=
  s.state.inspection.issued = g → s.closed = false →
    (∃ t, s.fetch? t = some g) ∧ s.state.inspection.view = (kept, none, true) ∨
    ∃ outcome, (⟨g, .landed outcome, true⟩ : FetchEnd) ∈ ends ∧
      s.state.inspection.view = Inspection.viewAfter kept outcome

theorem settling_step {g : Nat} {kept : Option RecordSet} {before : List FetchEnd}
    (ht : Tidy s) (hn : Numbered s (before ++ ends)) (hg : g ≤ s.state.inspection.issued)
    (h : Settling g kept s ends) (m : Move) :
    Settling g kept (s.step m) (ends ++ (s.fetchEnd? m).toList) := by
  intro hlast hopen'
  have hopen : s.closed = false := by
    rw [← Bool.not_eq_true]
    intro hcl
    rw [closed_step ht m hcl] at hopen'
    cases hopen'
  have hcourse := course_step ht m
  generalize s.fetchEnd? m = o at hcourse
  generalize s.step m = s' at hcourse hlast hopen'
  cases hcourse with
  | still hm hall hi =>
    rw [hi] at hlast ⊢
    rcases h hlast hopen with ⟨⟨t, ht⟩, hv⟩ | ⟨outcome, hmem, hv⟩
    · exact .inl ⟨⟨t, (hall t).trans ht⟩, hv⟩
    · exact .inr ⟨outcome, List.mem_append_left _ hmem, hv⟩
  | issued t hm ht hnew hother hi =>
    -- a later activation takes the place of this one
    rw [hi] at hlast
    have hnext : s.state.inspection.issue.issued = s.state.inspection.issued + 1 := rfl
    omega
  | ended t n fate hm htn hgone hother hi hland =>
    rw [hi] at hlast ⊢
    rw [Inspection.issued_resolve] at hlast
    by_cases hng : n = g
    · subst hng
      rcases h hlast hopen with ⟨_, hv⟩ | ⟨outcome, hmem, _⟩
      · obtain ⟨outcome, rfl⟩ := hland hopen'
        refine .inr ⟨outcome, ?_, ?_⟩
        · rw [Option.toList_some, beq_iff_eq.mpr hlast.symm]
          exact List.mem_append_right _ (List.mem_singleton.mpr rfl)
        · have hview := Inspection.view_land hv outcome
          rw [hlast] at hview
          exact hview
      · exact absurd htn (hn.gone _ (List.mem_append_right _ hmem) t)
    · rw [Inspection.resolve_stale (fun e => hng (e.trans hlast)) fate]
      rcases h hlast hopen with ⟨⟨u, hu⟩, hv⟩ | ⟨outcome, hmem, hv⟩
      · have hut : u ≠ t := by
          rintro rfl
          rw [htn] at hu
          exact hng (Option.some.inj hu)
        exact .inl ⟨⟨u, (hother u hut).trans hu⟩, hv⟩
      · exact .inr ⟨outcome, List.mem_append_left _ hmem, hv⟩

/-- Right after an activation its fetch is under way. -/
theorem settling_activation (ht : Tidy s) (hm : m.activates s.closed = true) :
    s.state.inspection.issued + 1 ≤ (s.step m).state.inspection.issued ∧
    s.fetchEnd? m = none ∧
    Settling (s.state.inspection.issued + 1) (s.state.inspection.snapshot.map Snapshot.records)
      (s.step m) [] := by
  have hcourse := course_step ht m
  generalize s.fetchEnd? m = o at hcourse
  cases hcourse with
  | still hm' hall hi => rw [hm] at hm'; cases hm'
  | issued t hm' htn hnew hother hi =>
    refine ⟨Nat.le_of_eq (by rw [hi]; rfl), rfl, fun _ _ => .inl ⟨⟨t, hnew⟩, ?_⟩⟩
    rw [hi, Inspection.view_issue]
  | ended t n fate hm' htn hgone hother hi hland => rw [hm] at hm'; cases hm'

theorem issued_le_step (ht : Tidy s) (m : Move) :
    s.state.inspection.issued ≤ (s.step m).state.inspection.issued := by
  have hcourse := course_step ht m
  generalize s.fetchEnd? m = o at hcourse
  cases hcourse with
  | still hm hall hi => exact Nat.le_of_eq (by rw [hi])
  | issued t hm htn hnew hother hi =>
    rw [hi]
    exact Nat.le_succ _
  | ended t n fate hm htn hgone hother hi hland =>
    exact Nat.le_of_eq (by rw [hi, Inspection.issued_resolve])

/-- A run from an activation on. -/
theorem settling_play {before : List FetchEnd} (ht : Tidy s) (hn : Numbered s before)
    (hm : m.activates s.closed = true) (ns : List Move) :
    Settling (s.state.inspection.issued + 1) (s.state.inspection.snapshot.map Snapshot.records)
      ((s.step m).play ns) (log fetchEnd? (s.step m) ns) := by
  obtain ⟨hle, hnone, hstart⟩ := settling_activation ht hm
  have hn' : Numbered (s.step m) (before ++ []) := by
    have h := numbered_step hn (course_step ht m)
    rwa [hnone] at h
  refine (play_log_induction (P := fun z es => Tidy z ∧ Numbered z (before ++ es) ∧
    s.state.inspection.issued + 1 ≤ z.state.inspection.issued ∧
    Settling (s.state.inspection.issued + 1) (s.state.inspection.snapshot.map Snapshot.records) z es)
    ⟨tidy_step ht m, hn', hle, hstart⟩ (fun z es k h => ?_) ns).2.2.2
  obtain ⟨hz, hnz, hlez, hsz⟩ := h
  refine ⟨tidy_step hz k, ?_, Nat.le_trans hlez (issued_le_step hz k), settling_step hz hnz hlez hsz k⟩
  have h := numbered_step hnz (course_step hz k)
  rwa [List.append_assoc] at h

/-! ## 3. Only the latest fetch counts -/

/-- **Only the latest fetch counts.** A step changes the records or the error only by an activation,
    which issues a fetch and keeps the records, or by the end of the fetch that is the latest at that
    moment; the end of any other fetch changes nothing at all. No fetch ends twice, and the ends that
    counted have rising numbers. Once all fetches of an open session have ended after the last
    activation, its fetch has ended with an outcome, and the view is told by this outcome and the
    records held at the activation. -/
theorem view_of_latest_fetch (client : Client) (delay : Binary64) (greeting : Option String)
    (files : FileSystem) (ms : List Move) (m : Move) :
    let start := opened client delay greeting files
    let s := start.play ms
    let ends := log fetchEnd? start ms
    (∀ e, s.fetchEnd? m = some e → (e.isLatest = true ↔ e.number = s.state.inspection.issued) ∧
      (e.isLatest = false → (s.step m).state.inspection = s.state.inspection)) ∧
    (s.fetchEnd? m = none → (s.step m).state.inspection =
      if m.activates s.closed then s.state.inspection.issue else s.state.inspection) ∧
    (ends.map FetchEnd.number).Nodup ∧
    ((ends.filter FetchEnd.isLatest).map FetchEnd.number).Pairwise (· < ·) ∧
    (m.activates s.closed = true → ∀ ns,
      let z := (s.step m).play ns
      let g := s.state.inspection.issued + 1
      z.state.inspection.issued = g ∧ (∀ t, z.fetch? t = none) ∧ z.closed = false →
        ∃ outcome, (⟨g, .landed outcome, true⟩ : FetchEnd) ∈ log fetchEnd? (s.step m) ns ∧
          z.state.inspection.view =
            Inspection.viewAfter (s.state.inspection.snapshot.map Snapshot.records) outcome) := by
  intro start s ends
  have ht : Tidy s := tidy_play client delay greeting files ms
  have hn : Numbered s ends := numbered_play client delay greeting files ms
  have hcourse := course_step ht m
  refine ⟨fun e he => ?_, fun hnone => ?_, hn.once, hn.rising, fun hm ns => ?_⟩
  · rw [he] at hcourse
    cases hcourse with
    | ended t n fate hm htn hgone hother hi hland =>
      refine ⟨beq_iff_eq, fun hstale => ?_⟩
      rw [hi, Inspection.resolve_stale (by simpa using hstale)]
  · rw [hnone] at hcourse
    cases hcourse with
    | still hm hall hi => rw [hi, hm]; rfl
    | issued t hm htn hnew hother hi => rw [hi, if_pos hm]
  · rintro z g ⟨hlast, hover, hopen⟩
    rcases settling_play ht hn hm ns hlast hopen with ⟨⟨t, htg⟩, _⟩ | h
    · rw [hover t] at htg
      cases htg
    · exact h

/-- Two fetches are under way, the second one fails, and the first one is answered after it. -/
def lateReply : List Move :=
  [.turn, .answer 1 (.broken "refused"), .turn, .answer 0 (.common 200 [] none), .turn, .turn]

/-- The outcome of the second fetch is what shows. -/
theorem view_of_lateReply :
    ∃ outcome, (⟨2, .landed outcome, true⟩ : FetchEnd) ∈
        log fetchEnd? ((sample.play [.switch (.string "inspect"), .turn]).step
          (.switch (.string "inspect"))) lateReply ∧
      (((sample.play [.switch (.string "inspect"), .turn]).step (.switch (.string "inspect"))).play
        lateReply).state.inspection.view = Inspection.viewAfter none outcome :=
  (view_of_latest_fetch _ _ _ _ [.switch (.string "inspect"), .turn]
    (.switch (.string "inspect"))).2.2.2.2 (by decide +kernel) lateReply
    ⟨by decide +kernel, fetch?_eq_none_of_lt (by decide +kernel), by decide +kernel⟩

end Session

end CodeSession
