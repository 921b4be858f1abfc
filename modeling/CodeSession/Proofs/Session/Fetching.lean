import CodeSession.Proofs.Session.Tidy

/-!
# Fetches

What becomes of the fetches that activations issue, and what the inspection makes of it.

* `fetchEnd?` -- the end of a fetch that a move brings about, and whether the fetch was then the
  latest one;
* `Course`, `course_step` -- a step issues a fetch, ends one, or leaves all as they are;
* `Numbered` -- every number that was issued belongs to one fetch, which is under way or has ended
  once; the numbers of the ends that counted increase.
-/

namespace CodeSession

open Backend

/-- The inspection after a fetch has met its fate; one that never began leaves it as it is. -/
def Inspection.resolve (number : Nat) (fate : Session.Fate RecordSet) (i : Inspection) : Inspection :=
  match fate with
  | .landed outcome => i.land number outcome
  | .aborted => i.abandon number
  | .unbegun => i

namespace Inspection

@[simp] theorem issued_resolve (number : Nat) (fate : Session.Fate RecordSet) (i : Inspection) :
    (i.resolve number fate).issued = i.issued := by
  cases fate with
  | landed outcome => exact issued_land number outcome i
  | aborted => exact issued_abandon number i
  | unbegun => rfl

/-- A fetch that is not the latest one changes nothing. -/
theorem resolve_stale {number : Nat} {i : Inspection} (h : number ≠ i.issued)
    (fate : Session.Fate RecordSet) : i.resolve number fate = i := by
  cases fate with
  | landed outcome => exact land_stale h outcome
  | aborted => simp [resolve, abandon, h]
  | unbegun => rfl

end Inspection

namespace Session

open Folder

variable {facts : Facts} {w : World} {c : Call} {s s' : Session} {m : Move} {t : TaskId}

/-! ## 1. Fetches under way -/

/-- The number of a fetch. -/
def Call.number? (c : Call) : Option Nat :=
  match c.kind with
  | .fetch number => some number
  | _ => none

/-- The number of the fetch that a call is, if it has not ended. -/
def fetch? (s : Session) (t : TaskId) : Option Nat :=
  s.shown? Call.number? t

/-- How a fetch ends when it is resumed, if it does. -/
def fetchFate? (c : Call) (wake : Option Wake) (w : World) : Option (Fate RecordSet) :=
  match wake, c with
  | some .go, .fetch _ => fateOf Reply.records (w.client.send .records).2
  | some .go, .fetching _ ⟨_, some r⟩ => some (.landed r.records)
  | some .go, .fetching _ ⟨_, none⟩ => none
  | some .cancelled, .fetching _ _ => some .aborted
  | _, _ => some .unbegun

/-- The end of a fetch: its number, its fate, and whether it was the latest one. -/
structure FetchEnd where
  number : Nat
  fate : Fate RecordSet
  isLatest : Bool

/-- The end of a fetch that a move brings about. -/
def fetchEnd? (s : Session) (m : Move) : Option FetchEnd :=
  match s.resumed? m with
  | some r => match r.continuation.number? with
    | some number => (fetchFate? r.continuation r.wake s.state).map fun fate =>
        ⟨number, fate, number == s.state.inspection.issued⟩
    | none => none
  | none => none

theorem number?_eq_some_iff {n : Nat} : c.number? = some n ↔ c.kind = .fetch n := by
  unfold Call.number?
  split
  · rename_i k hk
    rw [hk, Option.some.injEq, Kind.fetch.injEq]
  · rename_i hk
    exact ⟨fun h => (by cases h), fun h => absurd h (hk n)⟩

theorem steady_number? : Steady Call.number? where
  take r c := by rw [Call.number?, Call.kind_take, Call.number?]
  takeFiles selected c := by rw [Call.number?, Call.kind_takeFiles, Call.number?]

theorem lt_of_fetch? {n : Nat} (h : s.fetch? t = some n) : t < s.tasks.length := by
  obtain ⟨c, hc, _⟩ := Loop.shown?_eq_some_iff.mp h
  exact Loop.lt_of_continuation? hc

theorem fetch?_eq_none_of_lt (h : ∀ t < s.tasks.length, s.fetch? t = none) (t : TaskId) :
    s.fetch? t = none := by
  cases hf : s.fetch? t with
  | none => rfl
  | some n => rw [← hf, h t (lt_of_fetch? hf)]

/-! ## 2. Runs of calls -/

/-- What a run of a fetch does: it leaves all open, or the fetch ends and the inspection takes
    note. -/
inductive FetchRun (n : Nat) (w : World) (r : Run) : Option (Fate RecordSet) → Prop where
  | underWay (hn : r.next.continuation?.bind Call.number? = some n)
    (hi : r.state.inspection = w.inspection) : FetchRun n w r none
  | ended (fate : Fate RecordSet) (hn : r.next.continuation? = none)
    (hi : r.state.inspection = w.inspection.resolve n fate) : FetchRun n w r (some fate)

theorem fetchRun_endFetch {n : Nat} {w' : World} (outcome : Except CallTrouble RecordSet)
    (h : w'.inspection = w.inspection) :
    FetchRun n w (endFetch n outcome w') (some (.landed outcome)) := by
  have hi : w'.inspection.land n outcome = w.inspection.resolve n (.landed outcome) := by
    rw [h]
    rfl
  unfold endFetch
  dsimp only
  split <;> exact .ended _ rfl hi

theorem fetchRun_behaviour {n : Nat} (hc : c.number? = some n) (wake : Wake) (w : World) :
    FetchRun n w (behaviour facts c wake w) (fetchFate? c (some wake) w) := by
  cases c with
  | fetch k =>
    obtain rfl : k = n := Option.some.inj hc
    cases wake with
    | cancelled => exact .ended .unbegun rfl rfl
    | go =>
      have hrun : behaviour facts (.fetch k) .go w = beginFetch k w := rfl
      have hfate : fetchFate? (.fetch k) (some .go) w =
          fateOf Reply.records (w.client.send .records).2 := rfl
      rw [hrun, hfate]
      unfold beginFetch
      generalize w.client.send .records = sent
      obtain ⟨client, sending⟩ := sent
      cases sending with
      | refused f => exact fetchRun_endFetch _ rfl
      | answered number r => exact fetchRun_endFetch _ rfl
      | outstanding number => exact .underWay rfl rfl
  | fetching k x =>
    obtain rfl : k = n := Option.some.inj hc
    cases wake with
    | cancelled => exact .ended .aborted rfl rfl
    | go =>
      obtain ⟨number, _ | r⟩ := x
      · exact .underWay rfl rfl
      · exact fetchRun_endFetch _ rfl
  | _ => cases hc

/-- A fetch that is not cancelled ends with an outcome. -/
theorem fetchFate?_go {fate : Fate RecordSet} (hc : c.number?.isSome = true)
    (h : fetchFate? c (some .go) w = some fate) : ∃ outcome, fate = .landed outcome := by
  cases c with
  | fetch k =>
    have hfate : fateOf Reply.records (w.client.send .records).2 = some fate := h
    unfold fateOf at hfate
    split at hfate <;> cases hfate <;> exact ⟨_, rfl⟩
  | fetching k x =>
    obtain ⟨number, _ | r⟩ := x
    · cases h
    · cases h
      exact ⟨_, rfl⟩
  | _ => cases hc

/-- A run of another call leaves the inspection as it is. -/
theorem inspection_of_kind (hk : c.number? = none) {w' : World} (h : Touches c.kind w w') :
    w'.inspection = w.inspection := by
  generalize hkind : c.kind = k at h
  cases h with
  | fetch inspection client h =>
    rw [number?_eq_some_iff.mpr hkind] at hk
    cases hk
  | _ => rfl

/-! ## 3. Steps -/

/-- What a step does to the fetches: nothing, or one is issued, or one has ended. Until the session
    is closed a fetch ends with an outcome. -/
inductive Course (s : Session) (m : Move) (s' : Session) : Option FetchEnd → Prop where
  | still (hm : m.activates s.closed = false) (hall : ∀ t, s'.fetch? t = s.fetch? t)
    (hi : s'.state.inspection = s.state.inspection) : Course s m s' none
  | issued (t : TaskId) (hm : m.activates s.closed = true) (ht : s.fetch? t = none)
    (hnew : s'.fetch? t = some (s.state.inspection.issued + 1))
    (hother : ∀ u, u ≠ t → s'.fetch? u = s.fetch? u)
    (hi : s'.state.inspection = s.state.inspection.issue) : Course s m s' none
  | ended (t : TaskId) (n : Nat) (fate : Fate RecordSet) (hm : m.activates s.closed = false)
    (ht : s.fetch? t = some n) (hgone : s'.fetch? t = none)
    (hother : ∀ u, u ≠ t → s'.fetch? u = s.fetch? u)
    (hi : s'.state.inspection = s.state.inspection.resolve n fate)
    (hopen : s'.closed = false → ∃ outcome, fate = .landed outcome) :
    Course s m s' (some ⟨n, fate, n == s.state.inspection.issued⟩)

theorem course_of_run {wake : Wake} (ht : Tidy s) (h : s.resumption? = some ⟨t, c, some wake⟩) :
    Course s .turn (s.step .turn) (s.fetchEnd? .turn) := by
  have tame := ht.tame c wake
  have hc : s.fetch? t = c.number? := by
    rw [fetch?, Loop.shown?, Loop.Resumption.continuation?_eq h]
    rfl
  have hself : (s.step .turn).fetch? t =
      (behaviour s.facts c wake s.state).next.continuation?.bind Call.number? :=
    Loop.shown?_turned_self h
  have hother : ∀ u, u ≠ t → (s.step .turn).fetch? u = s.fetch? u := fun u hu =>
    Loop.shown?_turned_of_ne h hu fun name k hk => by rw [tame.spawns name k hk]; rfl
  have hstate := state_of_run h
  have hend : s.fetchEnd? .turn = match c.number? with
      | some number => (fetchFate? c (some wake) s.state).map fun fate =>
          ⟨number, fate, number == s.state.inspection.issued⟩
      | none => none := by
    simp only [fetchEnd?, resumed?, h]
  rw [hend]
  cases hn : c.number? with
  | none =>
    refine .still rfl (fun u => ?_) (by rw [hstate]; exact inspection_of_kind hn (touches_behaviour c wake ht.listeners))
    by_cases hu : u = t
    · rw [hu, hself, hc, hn]
      cases hnext : (behaviour s.facts c wake s.state).next with
      | finish e => rfl
      | pause p c' =>
        show c'.number? = none
        rw [Call.number?, (tame.kind p c' hnext).1, ← Call.number?, hn]
    · exact hother u hu
  | some n =>
    have hrun : FetchRun n s.state (behaviour s.facts c wake s.state)
        (fetchFate? c (some wake) s.state) := fetchRun_behaviour hn wake s.state
    have hfate : ∀ fate, fetchFate? c (some wake) s.state = some fate → s.closed = false →
        ∃ outcome, fate = .landed outcome := by
      intro fate hf hopen
      -- a fetch of an open session is not cancelled
      obtain ⟨_, begun, cancelled, hs, hw⟩ := Loop.resumption?_eq_some_iff.mp h
      cases cancelled with
      | true => exact absurd (number?_eq_some_iff.mp hn) (ht.spared hopen t c begun n hs)
      | false =>
        obtain rfl : wake = .go := Option.some.inj hw
        exact fetchFate?_go (by rw [hn]; rfl) hf
    dsimp only
    generalize fetchFate? c (some wake) s.state = fate at hrun hfate
    cases hrun with
    | underWay hnext hi =>
      refine .still rfl (fun u => ?_) (by rw [hstate]; exact hi)
      by_cases hu : u = t
      · rw [hu, hself, hc, hn, hnext]
      · exact hother u hu
    | ended fate hnext hi =>
      refine .ended t n fate rfl (hc.trans hn) (by rw [hself, hnext]; rfl) hother
        (by rw [hstate]; exact hi) fun hopen => hfate fate rfl ?_
      rw [← Bool.not_eq_true]
      intro hcl
      rw [show (s.step .turn).closed = true from (closed_of_run h).mpr (.inl hcl)] at hopen
      cases hopen

theorem course_of_calm (ht : Tidy s) (h : Calm s m s') : Course s m s' (s.fetchEnd? m) := by
  have hstage : ∀ u, u < s.tasks.length → (∀ r, s.resumed? m = some r → r.task ≠ u) →
      s'.fetch? u = s.fetch? u := fun u hu hr => h.shown_of_lt steady_number? hu hr
  cases hr : s.resumed? m with
  | some r =>
    -- a call is dropped
    obtain rfl : m = .turn := by
      cases m with
      | turn => rfl
      | _ => cases hr
    have hw : r.wake = none := h.wake r hr
    have hc : s.fetch? r.task = r.continuation.number? := by
      rw [fetch?, Loop.shown?, continuation?_of_resumed? hr]
      rfl
    have hgone : s'.fetch? r.task = none := by
      rw [fetch?, Loop.shown?_of_stage? (h.dropped r hr)]
      rfl
    have hother : ∀ u, u ≠ r.task → s'.fetch? u = s.fetch? u := fun u hu => by
      by_cases hlt : u < s.tasks.length
      · refine hstage u hlt fun r' hr' => ?_
        obtain rfl := Option.some.inj (hr.symm.trans hr')
        exact hu.symm
      · refine h.shown_of_le (Nat.le_of_not_lt hlt) fun c hc => ?_
        exact absurd hc (notArrives_of_not_activates (fun d e => by cases e) rfl)
    have hend : s.fetchEnd? .turn = match r.continuation.number? with
        | some number => some ⟨number, .unbegun, number == s.state.inspection.issued⟩
        | none => none := by
      simp only [fetchEnd?, hr, hw]
      cases r.continuation.number? <;> rfl
    rw [hend]
    cases hn : r.continuation.number? with
    | none =>
      refine .still rfl (fun u => ?_) (by rw [h.inspection]; rfl)
      by_cases hu : u = r.task
      · rw [hu, hgone, hc, hn]
      · exact hother u hu
    | some n =>
      refine .ended r.task n .unbegun rfl (hc.trans hn) hgone hother (by rw [h.inspection]; rfl)
        fun hopen => ?_
      rw [h.closed] at hopen
      obtain ⟨_, begun, cancelled, hs, hw'⟩ := Loop.resumption?_eq_some_iff.mp hr
      cases cancelled with
      | true => exact absurd (number?_eq_some_iff.mp hn) (ht.spared hopen _ _ begun n hs)
      | false => rw [hw'] at hw; cases begun <;> cases hw
  | none =>
    have hnone : s.fetchEnd? m = none := by simp only [fetchEnd?, hr]
    have hnodrop : ∀ u, ∀ r, s.resumed? m = some r → r.task ≠ u := fun u r h => by
      rw [hr] at h
      cases h
    rw [hnone]
    cases hm : m.activates s.closed with
    | true =>
      have hnew := h.arrived _ (.issued hm)
      have hold : s.fetch? s.tasks.length = none := by
        cases hf : s.fetch? s.tasks.length with
        | none => rfl
        | some n => exact absurd (lt_of_fetch? hf) (Nat.lt_irrefl _)
      refine .issued s.tasks.length hm hold ?_ (fun u hu => ?_) (by rw [h.inspection, if_pos hm])
      · rw [fetch?, Loop.shown?_of_stage? hnew]
        rfl
      · by_cases hlt : u < s.tasks.length
        · exact hstage u hlt (hnodrop u)
        · have hle := Nat.le_of_not_lt hlt
          have hgone : s'.stage? u = none := by
            cases hs : s'.stage? u with
            | none => rfl
            | some st => exact absurd (h.arrival u st hle hs).1 hu
          have hold : s.stage? u = none := Loop.stage?_eq_none_iff.mpr hle
          simp [fetch?, Loop.shown?, Loop.continuation?, hgone, hold]
    | false =>
      refine .still hm (fun u => ?_) (by rw [h.inspection, hm]; rfl)
      by_cases hlt : u < s.tasks.length
      · exact hstage u hlt (hnodrop u)
      · refine h.shown_of_le (Nat.le_of_not_lt hlt) fun c hc => ?_
        cases hc with
        | launched d hd => cases d <;> rfl
        | issued ha => rw [hm] at ha; cases ha

/-- **Every step takes one of the courses.** -/
theorem course_step (ht : Tidy s) (m : Move) : Course s m (s.step m) (s.fetchEnd? m) := by
  rcases calm_or_run ht.listeners m with h | ⟨rfl, t, c, wake, h⟩
  · exact course_of_calm ht h
  · exact course_of_run ht h

/-! ## 4. Numbers -/

/-- The fetches under way and the ends so far, against the number of fetches issued: every number is
    that of one fetch, which is under way or has ended once, and the ends that counted have rising
    numbers. -/
structure Numbered (s : Session) (ends : List FetchEnd) : Prop where
  bounds : ∀ t n, s.fetch? t = some n → 0 < n ∧ n ≤ s.state.inspection.issued
  unique : ∀ t u n, s.fetch? t = some n → s.fetch? u = some n → t = u
  ended : ∀ e ∈ ends, e.number ≤ s.state.inspection.issued
  gone : ∀ e ∈ ends, ∀ t, s.fetch? t ≠ some e.number
  once : (ends.map FetchEnd.number).Nodup
  rising : ((ends.filter FetchEnd.isLatest).map FetchEnd.number).Pairwise (· < ·)

section Numbered

variable {ends : List FetchEnd}

theorem numbered_opened (client : Client) (delay : Binary64) (greeting : Option String)
    (files : FileSystem) : Numbered (opened client delay greeting files) [] := by
  have hnone : ∀ t, (opened client delay greeting files).fetch? t = none := fun t => by
    simp [fetch?, opened, Loop.start, Loop.shown?, Loop.continuation?, Loop.stage?]
  refine ⟨fun t n h => ?_, fun t u n h => ?_, fun e h => absurd h List.not_mem_nil,
    fun e h => absurd h List.not_mem_nil, List.nodup_nil, List.Pairwise.nil⟩
  · rw [hnone] at h
    cases h
  · rw [hnone] at h
    cases h

theorem Numbered.issued (hn : Numbered s ends) (hnew : s'.fetch? t = some (s.state.inspection.issued + 1))
    (hother : ∀ u, u ≠ t → s'.fetch? u = s.fetch? u)
    (hi : s'.state.inspection = s.state.inspection.issue) : Numbered s' ends := by
  have hissued : s'.state.inspection.issued = s.state.inspection.issued + 1 := by rw [hi]; rfl
  have hold : ∀ u n, s'.fetch? u = some n →
      u = t ∧ n = s.state.inspection.issued + 1 ∨ s.fetch? u = some n := fun u n h => by
    by_cases hu : u = t
    · rw [hu, hnew] at h
      exact .inl ⟨hu, (Option.some.inj h).symm⟩
    · exact .inr (hother u hu ▸ h)
  refine ⟨fun u n h => ?_, fun u v n hu hv => ?_, fun e he => ?_, fun e he u h => ?_, hn.once,
    hn.rising⟩
  · rcases hold u n h with ⟨_, rfl⟩ | h
    · omega
    · have hb := hn.bounds u n h
      omega
  · rcases hold u n hu with ⟨rfl, hnu⟩ | hu <;> rcases hold v n hv with ⟨rfl, hnv⟩ | hv
    · rfl
    · have hb := hn.bounds v n hv
      omega
    · have hb := hn.bounds u n hu
      omega
    · exact hn.unique u v n hu hv
  · have hb := hn.ended e he
    omega
  · rcases hold u e.number h with ⟨_, hne⟩ | h
    · have hb := hn.ended e he
      omega
    · exact hn.gone e he u h

theorem Numbered.resolved {n : Nat} {fate : Fate RecordSet} (hn : Numbered s ends)
    (ht : s.fetch? t = some n) (hgone : s'.fetch? t = none)
    (hother : ∀ u, u ≠ t → s'.fetch? u = s.fetch? u)
    (hi : s'.state.inspection = s.state.inspection.resolve n fate) :
    Numbered s' (ends ++ [⟨n, fate, n == s.state.inspection.issued⟩]) := by
  have hissued : s'.state.inspection.issued = s.state.inspection.issued := by
    rw [hi, Inspection.issued_resolve]
  have hold : ∀ u k, s'.fetch? u = some k → u ≠ t ∧ s.fetch? u = some k := fun u k h => by
    by_cases hu : u = t
    · rw [hu, hgone] at h
      cases h
    · exact ⟨hu, hother u hu ▸ h⟩
  have hfresh : ∀ e ∈ ends, e.number ≠ n := fun e he h => hn.gone e he t (h ▸ ht)
  refine ⟨fun u k h => ?_, fun u v k hu hv => ?_, fun e he => ?_, fun e he u h => ?_, ?_, ?_⟩
  · rw [hissued]
    exact hn.bounds u k (hold u k h).2
  · exact hn.unique u v k (hold u k hu).2 (hold v k hv).2
  · rw [hissued]
    rcases List.mem_append.mp he with he | he
    · exact hn.ended e he
    · rw [List.mem_singleton.mp he]
      exact (hn.bounds t n ht).2
  · obtain ⟨hu, h⟩ := hold u _ h
    rcases List.mem_append.mp he with he | he
    · exact hn.gone e he u h
    · rw [List.mem_singleton.mp he] at h
      exact hu (hn.unique u t n h ht)
  · rw [List.map_append, List.nodup_append]
    refine ⟨hn.once, by simp, fun a ha b hb => ?_⟩
    obtain ⟨e, he, rfl⟩ := List.mem_map.mp ha
    rw [List.map_singleton, List.mem_singleton] at hb
    exact hb ▸ hfresh e he
  · rw [List.filter_append, List.map_append, List.pairwise_append]
    refine ⟨hn.rising, ?_, fun a ha b hb => ?_⟩
    · by_cases hlast : n = s.state.inspection.issued <;> simp [hlast]
    · -- what counted before is older than the latest
      obtain ⟨e, he, rfl⟩ := List.mem_map.mp ha
      obtain ⟨e', he', rfl⟩ := List.mem_map.mp hb
      obtain ⟨hmem, hlast⟩ := List.mem_filter.mp he'
      obtain rfl := List.mem_singleton.mp hmem
      have hlast' : n = s.state.inspection.issued := by simpa using hlast
      have hmem' := (List.mem_filter.mp he).1
      have hle := hn.ended e hmem'
      have hne := hfresh e hmem'
      show e.number < n
      omega

/-- **Every step keeps the numbers in order.** -/
theorem numbered_step {o : Option FetchEnd} (hn : Numbered s ends) (h : Course s m s' o) :
    Numbered s' (ends ++ o.toList) := by
  cases h with
  | still hm hall hi =>
    rw [Option.toList_none, List.append_nil]
    refine ⟨fun t n h => ?_, fun t u n ht hu => ?_, fun e he => ?_, fun e he t h => ?_, hn.once,
      hn.rising⟩
    · rw [hi]
      exact hn.bounds t n (hall t ▸ h)
    · exact hn.unique t u n (hall t ▸ ht) (hall u ▸ hu)
    · rw [hi]
      exact hn.ended e he
    · exact hn.gone e he t (hall t ▸ h)
  | issued t hm ht hnew hother hi =>
    rw [Option.toList_none, List.append_nil]
    exact hn.issued hnew hother hi
  | ended t n fate hm ht hgone hother hi hopen => exact hn.resolved ht hgone hother hi

/-- **After every run the numbers are in order.** -/
theorem numbered_play (client : Client) (delay : Binary64) (greeting : Option String)
    (files : FileSystem) (ms : List Move) :
    Numbered ((opened client delay greeting files).play ms)
      (log fetchEnd? (opened client delay greeting files) ms) := by
  refine (play_log_induction (P := fun s ends => Tidy s ∧ Numbered s ends)
    ⟨tidy_opened client delay greeting files, numbered_opened client delay greeting files⟩
    (fun s ends m h => ?_) ms).2
  exact ⟨tidy_step h.1 m, numbered_step h.2 (course_step h.1 m)⟩

end Numbered

end Session

end CodeSession
