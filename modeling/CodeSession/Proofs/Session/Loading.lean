import CodeSession.Proofs.Session.Closing
import CodeSession.Proofs.Session.Fetching

/-!
# The flag of the inspection

When the inspection says that it is loading.

* `Lost` -- the latest fetch has ended before it began; only the close of a session does that;
* `Loads` -- the inspection is loading while the latest fetch is under way, and once it is lost;
* `loading_iff_fetch_iff` -- the flag tells whether the latest fetch is under way exactly as long as
  it is not lost; a session that is closed without that is not loading.
-/

namespace CodeSession.Session

open Backend Folder

variable {s s' : Session} {m : Move} {ends : List FetchEnd}

/-! ## 1. Lost fetches -/

/-- Whether a request ended before it began. -/
def Fate.isUnbegun {α : Type} : Fate α → Bool
  | .unbegun => true
  | _ => false

/-- Whether the latest fetch has ended before it began. -/
def Lost (s : Session) (ends : List FetchEnd) : Prop :=
  ∃ e ∈ ends, e.number = s.state.inspection.issued ∧ e.fate.isUnbegun = true

/-- Whether the latest fetch is under way. -/
def Fetches (s : Session) : Prop :=
  ∃ t, s.fetch? t = some s.state.inspection.issued

/-- The flag against the fetches under way and the ends so far. -/
structure Loads (s : Session) (ends : List FetchEnd) : Prop where
  loading : s.state.inspection.loading = true ↔ s.Fetches ∨ s.Lost ends
  closed : s.Lost ends → s.closed = true

theorem loads_opened (client : Client) (delay : Binary64) (greeting : Option String)
    (files : FileSystem) : Loads (opened client delay greeting files) [] where
  loading := by
    constructor
    · exact fun h => by cases h
    · rintro (⟨t, ht⟩ | ⟨e, he, _⟩)
      · exact absurd (lt_of_fetch? ht) (Nat.not_lt_zero t)
      · exact absurd he List.not_mem_nil
  closed := by
    rintro ⟨e, he, _⟩
    exact absurd he List.not_mem_nil

/-! ## 2. Every step -/

/-- The latest fetch, once it has begun, leaves the inspection not loading when it ends. -/
theorem loading_resolve {i : Inspection} {fate : Fate RecordSet} (h : fate.isUnbegun = false) :
    (i.resolve i.issued fate).loading = false := by
  cases fate with
  | landed outcome =>
    show (i.land i.issued outcome).loading = false
    unfold Inspection.land
    rw [if_pos rfl]
    split <;> rfl
  | aborted =>
    show (i.abandon i.issued).loading = false
    unfold Inspection.abandon
    rw [if_pos rfl]
  | unbegun => cases h

theorem lost_append {e : FetchEnd} (hi : s'.state.inspection.issued = s.state.inspection.issued) :
    s'.Lost (ends ++ [e]) ↔
      s.Lost ends ∨ e.number = s.state.inspection.issued ∧ e.fate.isUnbegun = true := by
  unfold Lost
  rw [hi]
  constructor
  · rintro ⟨e', he, h⟩
    rcases List.mem_append.mp he with he | he
    · exact .inl ⟨e', he, h⟩
    · exact .inr (List.mem_singleton.mp he ▸ h)
  · rintro (⟨e', he, h⟩ | h)
    · exact ⟨e', List.mem_append_left _ he, h⟩
    · exact ⟨e, List.mem_append_right _ (List.mem_singleton.mpr rfl), h⟩

section Ended

variable {t : TaskId} {n : Nat} {fate : Fate RecordSet} {isLatest : Bool}

/-- The latest fetch ends. -/
theorem loads_of_latest (hn : Numbered s ends) (hl : Loads s ends)
    (ht : s.fetch? t = some s.state.inspection.issued) (hgone : s'.fetch? t = none)
    (hother : ∀ u, u ≠ t → s'.fetch? u = s.fetch? u)
    (hi : s'.state.inspection = s.state.inspection.resolve s.state.inspection.issued fate)
    (hopen : s'.closed = false → ∃ outcome, fate = .landed outcome) :
    Loads s' (ends ++ [⟨s.state.inspection.issued, fate, isLatest⟩]) := by
  have hissued : s'.state.inspection.issued = s.state.inspection.issued := by
    rw [hi, Inspection.issued_resolve]
  have hnone : ¬s'.Fetches := by
    rintro ⟨u, hu⟩
    rw [hissued] at hu
    by_cases hut : u = t
    · rw [hut, hgone] at hu
      cases hu
    · exact hut (hn.unique u t _ (hother u hut ▸ hu) ht)
  have hbefore : ¬s.Lost ends := by
    rintro ⟨e, he, hnum, _⟩
    exact hn.gone e he t (hnum ▸ ht)
  have hlost : s'.Lost (ends ++ [⟨s.state.inspection.issued, fate, isLatest⟩]) ↔
      fate.isUnbegun = true := by
    rw [lost_append hissued]
    exact ⟨fun h => (h.resolve_left hbefore).2, fun h => .inr ⟨rfl, h⟩⟩
  constructor
  · rw [hlost, or_iff_right hnone, hi]
    cases hf : fate.isUnbegun with
    | false => rw [loading_resolve hf]
    | true =>
      -- nobody took note of the end
      cases fate with
      | unbegun => exact ⟨fun _ => rfl, fun _ => hl.loading.mpr (.inl ⟨t, ht⟩)⟩
      | _ => cases hf
  · rw [hlost]
    intro hf
    rw [← Bool.not_eq_false]
    intro hopen'
    obtain ⟨outcome, rfl⟩ := hopen hopen'
    cases hf

/-- Another fetch ends. -/
theorem loads_of_stale (hl : Loads s ends) (hlast : n ≠ s.state.inspection.issued)
    (ht : s.fetch? t = some n) (hgone : s'.fetch? t = none)
    (hother : ∀ u, u ≠ t → s'.fetch? u = s.fetch? u)
    (hi : s'.state.inspection = s.state.inspection.resolve n fate)
    (hclosed : s.closed = true → s'.closed = true) :
    Loads s' (ends ++ [⟨n, fate, isLatest⟩]) := by
  rw [Inspection.resolve_stale hlast] at hi
  have hissued : s'.state.inspection.issued = s.state.inspection.issued := by rw [hi]
  have hlost : s'.Lost (ends ++ [⟨n, fate, isLatest⟩]) ↔ s.Lost ends := by
    rw [lost_append hissued]
    exact ⟨fun h => h.resolve_right fun h => hlast h.1, .inl⟩
  have hfetches : s'.Fetches ↔ s.Fetches := by
    unfold Fetches
    rw [hi]
    refine exists_congr fun u => ?_
    by_cases hut : u = t
    · rw [hut, hgone, ht]
      exact ⟨fun h => (by cases h), fun h => absurd (Option.some.inj h) hlast⟩
    · rw [hother u hut]
  exact ⟨by rw [hi, hl.loading, hfetches, hlost], fun h => hclosed (hl.closed (hlost.mp h))⟩

end Ended

/-- **Every step keeps the flag in line with the latest fetch.** -/
theorem loads_step {o : Option FetchEnd} (hn : Numbered s ends) (hl : Loads s ends)
    (h : Course s m s' o) (hclosed : s.closed = true → s'.closed = true) :
    Loads s' (ends ++ o.toList) := by
  cases h with
  | still hm hall hi =>
    rw [Option.toList_none, List.append_nil]
    have hfetches : s'.Fetches ↔ s.Fetches := by
      unfold Fetches
      rw [hi]
      exact exists_congr fun t => by rw [hall]
    have hlost : s'.Lost ends ↔ s.Lost ends := by
      unfold Lost
      rw [hi]
    exact ⟨by rw [hi, hl.loading, hfetches, hlost], fun h => hclosed (hl.closed (hlost.mp h))⟩
  | issued t hm ht hnew hother hi =>
    rw [Option.toList_none, List.append_nil]
    have hissued : s'.state.inspection.issued = s.state.inspection.issued + 1 := by rw [hi]; rfl
    have hloading : s'.state.inspection.loading = true := by rw [hi]; rfl
    have hfetches : s'.Fetches := ⟨t, by rw [hnew, hissued]⟩
    have hlost : ¬s'.Lost ends := by
      rintro ⟨e, he, hnum, _⟩
      have hb := hn.ended e he
      omega
    exact ⟨⟨fun _ => .inl hfetches, fun _ => hloading⟩, fun h => absurd h hlost⟩
  | ended t n fate hm ht hgone hother hi hopen =>
    by_cases hlast : n = s.state.inspection.issued
    · subst hlast
      exact loads_of_latest hn hl ht hgone hother hi hopen
    · exact loads_of_stale hl hlast ht hgone hother hi hclosed

theorem loads_play (client : Client) (delay : Binary64) (greeting : Option String)
    (files : FileSystem) (ms : List Move) :
    Loads ((opened client delay greeting files).play ms)
      (log fetchEnd? (opened client delay greeting files) ms) := by
  refine (play_log_induction (P := fun s ends => Tidy s ∧ Numbered s ends ∧ Loads s ends)
    ⟨tidy_opened client delay greeting files, numbered_opened client delay greeting files,
      loads_opened client delay greeting files⟩ (fun s ends m h => ?_) ms).2.2
  obtain ⟨ht, hn, hl⟩ := h
  have hc := course_step ht m
  exact ⟨tidy_step ht m, numbered_step hn hc, loads_step hn hl hc (closed_step ht m)⟩

/-! ## 3. When the flag is exact -/

/-- A session that is closed issues no fetch: one that is lost stays so. -/
theorem lost_step {o : Option FetchEnd} (hlost : s.Lost ends) (h : Course s m s' o)
    (hclosed : s.closed = true) : s'.Lost (ends ++ o.toList) := by
  have hi : s'.state.inspection.issued = s.state.inspection.issued := by
    cases h with
    | still hm hall hi => rw [hi]
    | issued t hm ht hnew hother hi =>
      rw [not_activates_of_closed hclosed] at hm
      cases hm
    | ended t n fate hm ht hgone hother hi hopen => rw [hi, Inspection.issued_resolve]
  obtain ⟨e, he, hnum, hf⟩ := hlost
  exact ⟨e, List.mem_append_left _ he, hi ▸ hnum, hf⟩

theorem lost_play (ht : Tidy s) (hclosed : s.closed = true) (hlost : s.Lost ends) (ns : List Move) :
    (s.play ns).Lost (ends ++ log fetchEnd? s ns) := by
  have hstart : Tidy s ∧ s.closed = true ∧ s.Lost (ends ++ []) :=
    ⟨ht, hclosed, by rw [List.append_nil]; exact hlost⟩
  have hrun : Tidy (s.play ns) ∧ (s.play ns).closed = true ∧
      (s.play ns).Lost (ends ++ log fetchEnd? s ns) := by
    refine play_log_induction (P := fun z es => Tidy z ∧ z.closed = true ∧ z.Lost (ends ++ es))
      hstart (fun z es m h => ?_) ns
    obtain ⟨hz, hcl, hlost⟩ := h
    refine ⟨tidy_step hz m, closed_step hz m hcl, ?_⟩
    rw [← List.append_assoc]
    exact lost_step hlost (course_step hz m) hcl
  exact hrun.2.2

theorem fetch?_eq_none_of_alone (h : s.Alone) (t : TaskId) : s.fetch? t = none := by
  cases hf : s.fetch? t with
  | none => rfl
  | some n =>
    obtain ⟨c, hc, hnum⟩ := Loop.shown?_eq_some_iff.mp hf
    have hb := h t c hc
    rw [number?_eq_some_iff.mp hnum] at hb
    cases hb

/-- **The flag tells whether the latest fetch is under way exactly as long as that fetch is not
    lost.** A fetch is lost only by the close of the session, and the flag then stays. Once the call
    that closed the session is over no fetch is under way, and the flag tells whether the latest one
    is lost. -/
theorem loading_iff_fetch_iff (client : Client) (delay : Binary64) (greeting : Option String)
    (files : FileSystem) (ms : List Move) :
    let start := opened client delay greeting files
    let s := start.play ms
    let lost := s.Lost (log fetchEnd? start ms)
    ((s.state.inspection.loading = true ↔ 0 < s.state.inspection.issued ∧ s.Fetches) ↔ ¬lost) ∧
    (lost → s.closed = true ∧ ∀ ns, (s.play ns).state.inspection.loading = true) ∧
    (s.HasClosed → (∀ t, s.fetch? t = none) ∧ (s.state.inspection.loading = true ↔ lost)) := by
  intro start s lost
  have ht : Tidy s := tidy_play client delay greeting files ms
  have hn : Numbered s (log fetchEnd? start ms) := numbered_play client delay greeting files ms
  have hl : Loads s (log fetchEnd? start ms) := loads_play client delay greeting files ms
  have hissued : s.Fetches → 0 < s.state.inspection.issued := fun ⟨t, ht⟩ => (hn.bounds t _ ht).1
  refine ⟨⟨fun hiff hlost => ?_, fun hno => ?_⟩, fun hlost => ⟨hl.closed hlost, fun ns => ?_⟩,
    fun hclosed => ?_⟩
  · -- the latest fetch has ended
    obtain ⟨_, t, ht⟩ := hiff.mp (hl.loading.mpr (.inr hlost))
    obtain ⟨e, he, hnum, _⟩ := hlost
    exact hn.gone e he t (hnum ▸ ht)
  · rw [hl.loading, or_iff_left hno]
    exact ⟨fun h => ⟨hissued h, h⟩, fun h => h.2⟩
  · have hl' : Loads (s.play ns) (log fetchEnd? start (ms ++ ns)) := by
      have h := loads_play client delay greeting files (ms ++ ns)
      rw [play_append] at h
      exact h
    refine hl'.loading.mpr (.inr ?_)
    rw [log_append]
    exact lost_play ht (hl.closed hlost) hlost ns
  · have hnone : ∀ t, s.fetch? t = none :=
      fetch?_eq_none_of_alone (alone_of_hasClosed client delay greeting files ms hclosed)
    refine ⟨hnone, ?_⟩
    have hidle : ¬s.Fetches := by
      rintro ⟨t, ht⟩
      rw [hnone] at ht
      cases ht
    rw [hl.loading, or_iff_right hidle]

/-- A session that is closed just when the inspection is shown. -/
def closedOnShow : List Move :=
  [.launch .close, .switch (.string "inspect"), .turn, .turn, .turn, .turn, .turn]

/-- The close has returned and no fetch is under way, but the inspection is loading. -/
theorem loading_without_fetch :
    closeReturns sample closedOnShow = [0] ∧
      ¬((sample.play closedOnShow).state.inspection.loading = true ↔
        0 < (sample.play closedOnShow).state.inspection.issued ∧
          (sample.play closedOnShow).Fetches) := by
  refine ⟨by decide +kernel, fun hiff => ?_⟩
  have hloading : (sample.play closedOnShow).state.inspection.loading = true := by decide +kernel
  have hnone : ∀ t < (sample.play closedOnShow).tasks.length,
      (sample.play closedOnShow).fetch? t = none := by decide +kernel
  obtain ⟨_, t, ht⟩ := hiff.mp hloading
  rw [fetch?_eq_none_of_lt hnone] at ht
  cases ht

end CodeSession.Session
