import CodeSession.Proofs.Tracking.Shutting

/-!
# Fair schedules

A loop that is given turns for ever serves its queue, whatever else happens in between.

* `Fair`, `first` -- a schedule that has turns for ever, and the moves it begins with;
* `exists_head` -- whatever stands in the queue comes to its front;
* `exists_zero` -- a rank that no step raises, and that falls when some callback in the queue is
  served, comes to zero;
* `exists_settled` -- every end is settled;
* `exists_returned` -- once all work has ended and no more is spawned, every call returns.
-/

namespace CodeSession.Tracking

open Loop

variable {σ κ ρ ε : Type} {b : Behaviour σ κ ρ ε} {duty : κ → Duty} {l l' : Loop σ κ ρ ε}
  {f : Nat → Move σ κ} {t u : TaskId} {done es : List TaskId}

/-! ## 1. Schedules -/

/-- A schedule has turns for ever. -/
def Fair (f : Nat → Move σ κ) : Prop :=
  ∀ i, ∃ j, i ≤ j ∧ (f j).isTurn = true

/-- The first moves of a schedule. -/
def first (f : Nat → Move σ κ) (n : Nat) : List (Move σ κ) :=
  (List.range n).map f

theorem first_succ (f : Nat → Move σ κ) (n : Nat) : first f (n + 1) = first f n ++ [f n] := by
  simp [first, List.range_succ]

theorem play_first_succ (l : Loop σ κ ρ ε) (f : Nat → Move σ κ) (n : Nat) :
    play b duty l (first f (n + 1)) = step b duty (play b duty l (first f n)) (f n) := by
  rw [first_succ, play_append, play_cons, play_nil]

theorem eq_turn_of_isTurn {m : Move σ κ} (h : m.isTurn = true) : m = .turn := by
  cases m with
  | turn => rfl
  | _ => cases h

/-- What every step of a schedule preserves holds from then on. -/
theorem first_induction {P : Loop σ κ ρ ε → Prop} (hl : P l)
    (hstep : ∀ l n, P l → P (step b duty l (f n))) (n : Nat) : P (play b duty l (first f n)) := by
  induction n with
  | zero => exact hl
  | succ n ih =>
    rw [play_first_succ]
    exact hstep _ n ih

/-! ## 2. The queue is served -/

/-- A move that is no turn takes nothing from the queue. -/
theorem orderly_step {m : Move σ κ} (hm : m.isTurn = false) : Orderly l (step b duty l m) := by
  cases m with
  | turn => cases hm
  | spawn name k =>
    show Orderly l (if duty k = .work then l.obey (.spawn name k) else l)
    split
    · exact orderly_obey l (.spawn name k)
    · exact .refl l
  | call k =>
    show Orderly l (if duty k = .idle ∨ duty k = .close then l.launch k else l)
    split
    · exact orderly_add "" false k l
    · exact .refl l
  | signal t => exact orderly_signal t id l
  | cancel t =>
    show Orderly l (if t ∈ l.tracked then l.cancel t else l)
    split
    · exact orderly_cancel t l
    · exact .refl l
  | change x => exact .of_tasks_eq rfl rfl
  | wait ticks => exact orderly_fireAt (l.now + ticks) l

/-- Every step keeps the queue in line. -/
theorem lined_step (h : Lined l) (m : Move σ κ) : Lined (step b duty l m) := by
  cases hm : m.isTurn with
  | true =>
    rw [eq_turn_of_isTurn hm]
    exact h.turned b
  | false => exact h.orderly (orderly_step hm)

/-- The queue is in line after every run. -/
theorem lined_play (x : σ) (ms : List (Move σ κ)) :
    Lined (play b duty (Loop.start x : Loop σ κ ρ ε) ms) := by
  have hstart : Lined (Loop.start x : Loop σ κ ρ ε) :=
    ⟨(fun t k begun cancelled hs => by cases hs), fun t ht => by cases ht⟩
  exact play_induction hstart (fun _ m h => lined_step h m) ms

/-- The next turn finds the queue as it is, with more at its end. -/
theorem exists_turn (hfair : Fair f) (b : Behaviour σ κ ρ ε) (duty : κ → Duty) (l : Loop σ κ ρ ε)
    (i : Nat) : ∃ j, i ≤ j ∧ f j = .turn ∧
      (play b duty l (first f i)).ready <+: (play b duty l (first f j)).ready := by
  obtain ⟨j, hij, hj⟩ := hfair i
  obtain ⟨d, rfl⟩ := Nat.exists_eq_add_of_le hij
  clear hij
  induction d generalizing i with
  | zero => exact ⟨i, Nat.le_refl i, eq_turn_of_isTurn hj, List.prefix_rfl⟩
  | succ d ih =>
    cases hi : (f i).isTurn with
    | true => exact ⟨i, Nat.le_refl i, eq_turn_of_isTurn hi, List.prefix_rfl⟩
    | false =>
      obtain ⟨j, hj', hturn, hprefix⟩ := ih (i + 1) (by rw [Nat.succ_add_eq_add_succ]; exact hj)
      refine ⟨j, Nat.le_of_succ_le hj', hturn, List.IsPrefix.trans ?_ hprefix⟩
      rw [play_first_succ]
      exact (orderly_step hi).grows

/-- **Whatever stands in the queue comes to its front**, and a turn is taken then. -/
theorem exists_head (hfair : Fair f) {c : Callback} {i : Nat}
    (hc : c ∈ (play b duty l (first f i)).ready) :
    ∃ j, i ≤ j ∧ f j = .turn ∧ (play b duty l (first f j)).ready.head? = some c := by
  obtain ⟨front, back, hready⟩ := List.append_of_mem hc
  clear hc
  -- each turn takes one callback from the front
  induction front generalizing i back with
  | nil =>
    obtain ⟨j, hij, hturn, cs, hcs⟩ := exists_turn hfair b duty l i
    exact ⟨j, hij, hturn, by rw [← hcs, hready]; rfl⟩
  | cons d front ih =>
    obtain ⟨j, hij, hturn, cs, hcs⟩ := exists_turn hfair b duty l i
    obtain ⟨ds, hds⟩ := tail_prefix_turned b (play b duty l (first f j))
    have hnext : (play b duty l (first f (j + 1))).ready = front ++ c :: (back ++ cs ++ ds) := by
      rw [play_first_succ, hturn]
      show (Loop.turned b _).ready = _
      rw [← hds, ← hcs, hready]
      simp
    obtain ⟨j', hjj', hturn', hhead⟩ := ih _ hnext
    exact ⟨j', by omega, hturn', hhead⟩

/-- **A rank that no step raises comes to zero**, if above zero there is always a callback in the queue
    with which it falls, whenever that is served. -/
theorem exists_zero (hfair : Fair f) (rank : Loop σ κ ρ ε → Nat) (P : Loop σ κ ρ ε → Prop) {i : Nat}
    (hP : ∀ n, i ≤ n → P (play b duty l (first f n)))
    (hmono : ∀ n, i ≤ n →
      rank (play b duty l (first f (n + 1))) ≤ rank (play b duty l (first f n)))
    (hserved : ∀ l₁, P l₁ → 0 < rank l₁ → ∃ c ∈ l₁.ready, ∀ l₂, P l₂ → rank l₂ ≤ rank l₁ →
      l₂.ready.head? = some c → rank (l₂.turned b) < rank l₁) :
    ∃ n, i ≤ n ∧ rank (play b duty l (first f n)) = 0 := by
  have hle : ∀ d n, i ≤ n →
      rank (play b duty l (first f (n + d))) ≤ rank (play b duty l (first f n)) := by
    intro d n hn
    induction d with
    | zero => exact Nat.le_refl _
    | succ d ih => exact Nat.le_trans (hmono (n + d) (by omega)) ih
  generalize hr : rank (play b duty l (first f i)) = r
  induction r using Nat.strongRecOn generalizing i with
  | ind r ih =>
    by_cases hzero : r = 0
    · exact ⟨i, Nat.le_refl i, hr.trans hzero⟩
    · obtain ⟨c, hc, hfalls⟩ := hserved _ (hP i (Nat.le_refl i)) (by omega)
      obtain ⟨j, hij, hturn, hhead⟩ := exists_head hfair hc
      obtain ⟨d, rfl⟩ := Nat.exists_eq_add_of_le hij
      have hless := hfalls _ (hP _ hij) (hle d i (Nat.le_refl i)) hhead
      have hnext : rank (play b duty l (first f (i + d + 1))) < r := by
        rw [play_first_succ, hturn, ← hr]
        exact hless
      obtain ⟨n, hn, hrank⟩ := ih _ hnext (fun n hn => hP n (by omega))
        (fun n hn => hmono n (by omega)) (fun d n hn => hle d n (by omega)) rfl
      exact ⟨n, by omega, hrank⟩

/-! ## 3. Every end is settled -/

/-- **The end of every spawned task is settled**, once it has ended. -/
theorem exists_settled (hb : Staffed b duty) (hfair : Fair f) (x : σ) (ms : List (Move σ κ))
    (ht : (play b duty (Loop.start x) ms).Spawned t)
    (hend : ((play b duty (Loop.start x) ms).ending? t).isSome = true) :
    ∃ n, t ∈ log b duty settled? (Loop.start x) (ms ++ first f n) := by
  have hbooks := books_play hb x ms
  by_cases hdone : t ∈ log b duty settled? (Loop.start x) ms
  · exact ⟨0, by simpa [first] using hdone⟩
  · have hnote : .settled t ∈ (play b duty (play b duty (Loop.start x) ms) (first f 0)).ready :=
      hbooks.accounts.note_of_tracked ((hbooks.accounts.tracked t).mpr ⟨ht, hdone⟩) hend
    obtain ⟨j, _, hturn, hhead⟩ := exists_head hfair hnote
    have hsettled : settled? (play b duty (play b duty (Loop.start x) ms) (first f j)) (f j) =
        some t := by
      rw [hturn]
      simp [settled?, hhead]
    refine ⟨j + 1, ?_⟩
    rw [log_append, first_succ, log_append, log_cons, hsettled]
    simp

/-! ## 4. Nothing happens any more -/

/-- Every task that has been spawned has ended. -/
def AllEnded (l : Loop σ κ ρ ε) : Prop :=
  ∀ t, l.Spawned t → (l.ending? t).isSome = true

/-- Then whoever has not ended is a call. -/
theorem AllEnded.not_work (h : AllEnded l) (hposted : Posted duty l) {k : κ}
    (hk : l.continuation? t = some k) : duty k ≠ .work := by
  intro hduty
  have hend := h t ((hposted.work_iff hk).mp hduty)
  obtain ⟨s, hs, hsk⟩ := continuation?_eq_some_iff.mp hk
  rw [ending?_of_stage? hs, Stage.ending?_eq_none_of_continuation? hsk] at hend
  cases hend

/-- Then no work is spawned but from outside. -/
theorem AllEnded.not_maySpawn (h : AllEnded l) (hposted : Posted duty l) {m : Move σ κ}
    (hm : m.isSpawn = false) : ¬MaySpawn duty l m := by
  rintro (hspawn | ⟨_, t, k, wake, hres, hk⟩)
  · rw [hm] at hspawn
    cases hspawn
  · exact h.not_work hposted (Resumption.continuation?_eq hres) hk

/-- An act that spawns nothing leaves it so. -/
theorem AllEnded.act (h : AllEnded l) (hact : Act False duty l es l') : AllEnded l' := by
  intro t ht
  obtain ⟨e, he⟩ := Option.isSome_iff_exists.mp (h t ((spawned_act hact False.elim t).mp ht))
  rw [ending_act hact he]
  rfl

/-- All work has ended and the books are in order. -/
structure Over (duty : κ → Duty) (l : Loop σ κ ρ ε) : Prop where
  books : ∃ done, Books duty l done
  lined : Lined l
  allEnded : AllEnded l

/-- A step that spawns nothing is a sequence of acts that spawn nothing. -/
theorem Over.acts_step (h : Over duty l) (hb : Staffed b duty) {m : Move σ κ}
    (hm : m.isSpawn = false) : ∃ es, Acts False duty l es (step b duty l m) := by
  obtain ⟨done, hbooks⟩ := h.books
  have hacts := Tracking.acts_step hb hbooks.fit m
  rw [eq_false (h.allEnded.not_maySpawn hbooks.posted hm)] at hacts
  exact ⟨_, hacts⟩

/-- **Once all work has ended it stays so**, as long as none is spawned, and nothing is tracked
    anew. -/
theorem Over.step (h : Over duty l) (hb : Staffed b duty) {m : Move σ κ} (hm : m.isSpawn = false) :
    Over duty (step b duty l m) ∧ (step b duty l m).tracked.Sublist l.tracked ∧
      ∀ t, (step b duty l m).Spawned t → l.Spawned t := by
  obtain ⟨done, hbooks⟩ := h.books
  obtain ⟨es, hacts⟩ := h.acts_step hb hm
  have hkept : AllEnded (Tracking.step b duty l m) ∧
      (Tracking.step b duty l m).tracked.Sublist l.tracked ∧
      ∀ t, (Tracking.step b duty l m).Spawned t → l.Spawned t := by
    refine hacts.invariant (P := fun l₁ => AllEnded l₁ ∧ l₁.tracked.Sublist l.tracked ∧
      ∀ t, l₁.Spawned t → l.Spawned t) (fun l₁ es₁ l₂ h₁ hact => ?_)
      ⟨h.allEnded, .refl _, fun t ht => ht⟩
    have hspawned := fun t => (spawned_act hact False.elim t).mp
    exact ⟨h₁.1.act hact,
      (tracked_sublist_act hact False.elim).trans h₁.2.1, fun t ht => h₁.2.2 t (hspawned t ht)⟩
  exact ⟨⟨⟨_, books_step hb hbooks m⟩, lined_step h.lined m, hkept.1⟩, hkept.2⟩

/-! ## 5. Every call returns -/

/-- How far a task that stands at a stage is from its end, if it waits for ends at most. -/
def rankOf : Option (Stage κ ρ ε) → Nat
  | none | some (.ended _) => 0
  | some (.queued _ _ _) => 1
  | some (.waiting _ (.tasks n)) => n + 1
  | some (.waiting _ _) => 2

theorem rankOf_waiting_pos (k : κ) (w : Wait) :
    1 ≤ rankOf (some (.waiting k w : Stage κ ρ ε)) := by
  cases w with
  | tasks n => exact Nat.le_add_left 1 n
  | _ => exact Nat.le_succ 1

/-- Counting an end brings no task further from its end. -/
theorem rankOf_count_le (w i : TaskId) (l : Loop σ κ ρ ε) :
    rankOf ((l.count w).stage? i) ≤ rankOf (l.stage? i) := by
  unfold count
  split
  · rename_i k left hs
    by_cases hi : i = w
    · subst hi
      split
      · rw [stage?_push, stage?_move, if_pos rfl, hs]
        exact Nat.le_add_left 1 left
      · rw [stage?_move, if_pos rfl, hs]
        show left - 1 + 1 ≤ left + 1
        omega
    · split
      · exact Nat.le_of_eq (by rw [stage?_push, stage?_move, if_neg hi])
      · exact Nat.le_of_eq (by rw [stage?_move, if_neg hi])
  · exact Nat.le_refl _

/-- An act brings no task further from its end, when nothing is tracked and all work has ended. -/
theorem rankOf_act_le (hposted : Posted duty l) (hall : AllEnded l) (hempty : l.tracked = [])
    (hact : Act False duty l es l') {i : TaskId} (hi : i < l.tasks.length) :
    rankOf (l'.stage? i) ≤ rankOf (l.stage? i) := by
  cases hact with
  | aside htasks => exact Nat.le_of_eq (congrArg rankOf (by rw [stage?, htasks, stage?]))
  | spawn name k hfree => exact hfree.elim
  | call name k => exact Nat.le_of_eq (by rw [stage?_add, if_neg (Nat.ne_of_lt hi)])
  | cancel t ht =>
    rw [hempty] at ht
    cases ht
  | @wake t k w hs =>
    rw [stage?_push, stage?_move]
    split
    · rename_i hit
      rw [hit, hs]
      exact rankOf_waiting_pos k w
    · exact Nat.le_refl _
  | expired => exact Nat.le_refl _
  | pop => exact Nat.le_refl _
  | settle => exact Nat.le_refl _
  | count w => exact rankOf_count_le w i l.popped
  | rest hs _ hk₀ => exact absurd hk₀ (hall.not_work hposted (continuation?_of_stage? hs))
  | await hs ids k hids hne =>
    rw [hempty] at hids
    exact absurd (List.perm_nil.mp hids) hne
  | finish hs e =>
    rw [stage?_finish]
    split
    · cases l.stage? i <;> exact Nat.zero_le _
    · exact Nat.le_refl _

/-- Nothing is tracked, and all work has ended. -/
structure Quiet (duty : κ → Duty) (l : Loop σ κ ρ ε) : Prop where
  ended : Over duty l
  empty : l.tracked = []

theorem Quiet.step (h : Quiet duty l) (hb : Staffed b duty) {m : Move σ κ} (hm : m.isSpawn = false) :
    Quiet duty (step b duty l m) := by
  obtain ⟨hover, hsub, _⟩ := h.ended.step hb hm
  refine ⟨hover, List.eq_nil_of_subset_nil fun u hu => ?_⟩
  have hmem := hsub.subset hu
  rwa [h.empty] at hmem

/-- A quiet step brings no task further from its end. -/
theorem Quiet.rankOf_step_le (h : Quiet duty l) (hb : Staffed b duty) {m : Move σ κ}
    (hm : m.isSpawn = false) {i : TaskId} (hi : i < l.tasks.length) :
    rankOf ((Tracking.step b duty l m).stage? i) ≤ rankOf (l.stage? i) := by
  obtain ⟨done, hbooks⟩ := h.ended.books
  obtain ⟨es, hacts⟩ := h.ended.acts_step hb hm
  -- what is needed of the loop is kept by each act
  refine (hbooks.invariant (P := fun z => AllEnded z ∧ z.tracked = [] ∧ i < z.tasks.length ∧
    rankOf (z.stage? i) ≤ rankOf (l.stage? i)) hacts (fun hz hkept hact => ?_)
    ⟨h.ended.allEnded, h.empty, hi, Nat.le_refl _⟩).2.2.2
  obtain ⟨hall, hempty, hlt, hle⟩ := hkept
  refine ⟨hall.act hact, ?_, ?_, ?_⟩
  · exact List.sublist_nil.mp (hempty ▸ tracked_sublist_act hact False.elim)
  · exact Nat.lt_of_lt_of_le hlt (length_le_act hact)
  · exact Nat.le_trans (rankOf_act_le hz.posted hall hempty hact hlt) hle

/-- A call that waits has the ends in the queue that it waits for. -/
theorem Over.counted_mem (h : Over duty l) {k : κ} {w : Wait}
    (hs : l.stage? t = some (.waiting k w)) :
    ∃ n, w = .tasks n ∧ 0 < n ∧ .counted t ∈ l.ready := by
  obtain ⟨done, hbooks⟩ := h.books
  have hcall := h.allEnded.not_work hbooks.posted (continuation?_of_stage? hs)
  obtain ⟨isTracked, hpost, _⟩ := hbooks.posted.post hs
  cases hpost with
  | workWaiting hwork => exact absurd hwork hcall
  | @callWaiting _ n _ hn =>
    refine ⟨n, rfl, hn, ?_⟩
    -- nobody is watched, as all work has ended
    have hwatched : (l.tasks.flatMap Task.watchers).count t = 0 := by
      refine List.count_eq_zero.mpr fun hmem => ?_
      obtain ⟨other, hother, hw⟩ := List.mem_flatMap.mp hmem
      obtain ⟨u, hu⟩ := List.mem_iff_getElem?.mp hother
      obtain ⟨hwork, hopen⟩ := (hbooks.posted u other hu).watched (List.ne_nil_of_mem hw)
      have hend := h.allEnded u (spawned_iff.mpr ⟨other, hu, hwork⟩)
      rw [ending?_eq_bind, stage?, hu] at hend
      rw [Option.map_some, Option.bind_some, hopen] at hend
      cases hend
    have howed := hbooks.even t
    rw [owed, hwatched, hs] at howed
    have hcount : l.ready.count (.counted t) = n := by
      rw [Nat.zero_add] at howed
      exact howed
    exact List.count_pos_iff.mp (by omega)

/-- **A call that goes on when nothing is tracked ends its run.** -/
theorem finish_of_call (hb : Staffed b duty) (hempty : l.tracked = []) {k : κ}
    (hk : duty k ≠ .work) : ∃ r, (b l.facts k .go l.state).next = .finish (.returned r) := by
  cases hduty : duty k with
  | work => exact absurd hduty hk
  | idle =>
    obtain ⟨_, ids, again, r, hids, _, hnext⟩ := hb.idle l.facts k l.state hduty
    have hnil : ids = [] := List.perm_nil.mp (hempty ▸ hids)
    subst hnil
    exact ⟨r, hnext⟩
  | close =>
    obtain ⟨ids, _, hcases⟩ := hb.close l.facts k l.state hduty
    rw [if_pos (show l.facts.tracked = [] from hempty)] at hcases
    exact hcases.2
  | closing => exact (hb.closing l.facts k l.state hduty).2

/-- A call whose turn it is returns. -/
theorem Quiet.rankOf_resume (h : Quiet duty l) (hb : Staffed b duty)
    (hlt : t < l.tasks.length) (hhead : l.ready.head? = some (.resume t))
    (hrank : rankOf (l.stage? t) ≤ 1) : rankOf ((l.turned b).stage? t) = 0 := by
  obtain ⟨done, hbooks⟩ := h.ended.books
  cases hs : l.stage? t with
  | none => exact absurd hlt (Nat.not_lt.mpr (stage?_eq_none_iff.mp hs))
  | some s =>
    cases s with
    | ended e =>
      have hle := h.rankOf_step_le hb (m := .turn) rfl hlt
      rw [hs] at hle
      exact Nat.le_zero.mp hle
    | waiting k w =>
      obtain ⟨n, rfl, hn, _⟩ := h.ended.counted_mem hs
      rw [hs] at hrank
      exact absurd (show n + 1 ≤ 1 from hrank) (by omega)
    | queued k begun cancelled =>
      have hcall := h.ended.allEnded.not_work hbooks.posted (continuation?_of_stage? hs)
      obtain ⟨rfl, _⟩ := hbooks.fit t k begun cancelled hs hcall
      have hres : l.resumption? = some ⟨t, k, some .go⟩ :=
        resumption?_eq_some_iff.mpr ⟨hhead, begun, false, hs, rfl⟩
      obtain ⟨r, hnext⟩ := finish_of_call hb h.empty hcall
      rw [stage?_turned_self hres, hnext]
      rfl

/-- A call that is told of an end comes nearer to its own. -/
theorem rankOf_counted (heven : Even l) (hhead : l.ready.head? = some (.counted t)) :
    rankOf ((l.turned b).stage? t) < rankOf (l.stage? t) := by
  have hpos : 0 < l.owed t := by
    rw [owed_popped hhead, if_pos rfl]
    exact Nat.succ_pos _
  rw [heven t] at hpos
  rw [turned_of_head hhead]
  show rankOf ((l.popped.count t).stage? t) < _
  cases hs : l.stage? t with
  | none => rw [hs] at hpos; cases hpos
  | some s =>
    rw [hs] at hpos
    have hs' : l.popped.stage? t = some s := hs
    unfold awaited at hpos
    split at hpos
    · rename_i k n he
      cases he
      unfold count
      rw [hs']
      dsimp only
      split
      · rw [stage?_push, stage?_move, if_pos rfl, hs']
        show 1 < n + 1
        omega
      · rw [stage?_move, if_pos rfl, hs']
        show n - 1 + 1 < n + 1
        omega
    · cases hpos

section Returns

variable (hb : Staffed b duty) (hfair : Fair f) (hspawn : ∀ i, (f i).isSpawn = false)

include hb hspawn

/-- All work has ended for good, and a call that has been made stays a call. -/
theorem Over.first (h : Over duty l) (hlt : t < l.tasks.length) (hnot : ¬l.Spawned t) (n : Nat) :
    Over duty (play b duty l (first f n)) ∧ t < (play b duty l (Tracking.first f n)).tasks.length ∧
      ¬(play b duty l (Tracking.first f n)).Spawned t := by
  refine first_induction (P := fun z => Over duty z ∧ t < z.tasks.length ∧ ¬z.Spawned t)
    ⟨h, hlt, hnot⟩ (fun z i hz => ?_) n
  obtain ⟨hz', _, hspawned⟩ := hz.1.step hb (hspawn i)
  obtain ⟨es, hacts⟩ := hz.1.acts_step hb (hspawn i)
  refine ⟨hz', ?_, fun hs => hz.2.2 (hspawned t hs)⟩
  exact hacts.invariant (P := fun z' => t < z'.tasks.length)
    (fun _ _ _ hlt hact => Nat.lt_of_lt_of_le hlt (length_le_act hact)) hz.2.1

include hfair

/-- Once all work has ended, whatever is tracked is settled, and nothing is tracked from then on. -/
theorem exists_quiet (h : ∀ n, Over duty (play b duty l (first f n))) :
    ∃ i, ∀ n, i ≤ n → Quiet duty (play b duty l (first f n)) := by
  obtain ⟨i, _, hempty⟩ := exists_zero (b := b) (l := l) (i := 0) hfair
    (fun z => z.tracked.length) (Over duty) (fun n _ => h n)
    (fun n _ => by
      rw [play_first_succ]
      exact ((h n).step hb (hspawn n)).2.1.length_le)
    (fun z hz hpos => by
      obtain ⟨done, hbooks⟩ := hz.books
      obtain ⟨u, hu⟩ := List.exists_mem_of_length_pos hpos
      have hend := hz.allEnded u ((hbooks.accounts.tracked u).mp hu).1
      refine ⟨_, hbooks.accounts.note_of_tracked hu hend, fun z' hz' hle hhead => ?_⟩
      obtain ⟨done', hbooks'⟩ := hz'.books
      have hu' := (hbooks'.accounts.of_note (List.mem_of_mem_head? hhead)).1
      rw [turned_of_head hhead]
      refine Nat.lt_of_lt_of_le ?_ hle
      exact List.length_filter_lt_length_iff_exists.mpr ⟨u, hu', by simp⟩)
  refine ⟨i, fun n hn => ?_⟩
  obtain ⟨d, rfl⟩ := Nat.exists_eq_add_of_le hn
  clear hn
  induction d with
  | zero => exact ⟨h i, List.eq_nil_of_length_eq_zero hempty⟩
  | succ d ih =>
    rw [← Nat.add_assoc, play_first_succ]
    exact ih.step hb (hspawn (i + d))

/-- Once nothing is tracked, a call comes to its end. -/
theorem exists_rankOf_eq_zero {i : Nat} (h : ∀ n, i ≤ n → Quiet duty (play b duty l (first f n)) ∧
    t < (play b duty l (first f n)).tasks.length) :
    ∃ n, i ≤ n ∧ rankOf ((play b duty l (first f n)).stage? t) = 0 := by
  refine exists_zero hfair (fun z => rankOf (z.stage? t))
    (fun z => Quiet duty z ∧ t < z.tasks.length) h (fun n hn => ?_) fun z hz hpos => ?_
  · rw [play_first_succ]
    exact (h n hn).1.rankOf_step_le hb (hspawn n) (h n hn).2
  · cases hs : z.stage? t with
    | none => rw [hs] at hpos; cases hpos
    | some s =>
      cases s with
      | ended e => rw [hs] at hpos; cases hpos
      | queued k begun cancelled =>
        refine ⟨_, hz.1.ended.lined.queued t k begun cancelled hs, fun z' hz' hle hhead => ?_⟩
        rw [hz'.1.rankOf_resume hb hz'.2 hhead hle]
        exact Nat.one_pos
      | waiting k w =>
        obtain ⟨m, rfl, _, hmem⟩ := hz.1.ended.counted_mem hs
        refine ⟨_, hmem, fun z' hz' hle hhead => ?_⟩
        obtain ⟨done', hbooks'⟩ := hz'.1.ended.books
        exact Nat.lt_of_lt_of_le (rankOf_counted hbooks'.even hhead) hle

/-- **Once all work has ended and no more is spawned, every call returns.** -/
theorem exists_returned (h : Over duty l) {k : κ} (hk : l.continuation? t = some k) :
    ∃ n r, (play b duty l (first f n)).ending? t = some (.returned r) := by
  have hnot : ¬l.Spawned t := by
    obtain ⟨done, hbooks⟩ := h.books
    exact fun ht => h.allEnded.not_work hbooks.posted hk ((hbooks.posted.work_iff hk).mpr ht)
  have hover := h.first hb hspawn (lt_of_continuation? hk) hnot
  obtain ⟨i, hquiet⟩ := exists_quiet hb hfair hspawn fun n => (hover n).1
  obtain ⟨n, _, hrank⟩ := exists_rankOf_eq_zero hb hfair hspawn fun n hn =>
    ⟨hquiet n hn, (hover n).2.1⟩
  obtain ⟨⟨⟨done, hbooks⟩, _, _⟩, hlt, hnot⟩ := hover n
  refine ⟨n, ?_⟩
  generalize play b duty l (first f n) = z at hrank hlt hnot hbooks ⊢
  cases hs : z.stage? t with
  | none => exact absurd hlt (Nat.not_lt.mpr (stage?_eq_none_iff.mp hs))
  | some s =>
    rw [hs] at hrank
    cases s with
    | queued => cases hrank
    | waiting k w => exact absurd hrank (Nat.ne_of_gt (rankOf_waiting_pos k w))
    | ended e =>
      -- a call ends by returning
      obtain ⟨isTracked, hpost, hspawned⟩ := hbooks.posted.post hs
      cases hpost with
      | workEnded => exact absurd (hspawned.mp rfl) hnot
      | callEnded r => exact ⟨r, ending?_of_stage? hs⟩

end Returns

end CodeSession.Tracking
