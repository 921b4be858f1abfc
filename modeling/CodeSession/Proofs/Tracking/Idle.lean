import CodeSession.Proofs.Tracking.Fair

/-!
# Waiting until nothing is tracked

The books of a tracked set, told as what a user of it can rely on.

* `errorLog`, `Entry.line?` -- the lines that are logged, and the line that a task deserves;
* `errorLog_eq`, `errorLog_perm` -- the log has the lines of the tasks whose ends are settled, in that
  order, and of all tasks when nothing is tracked;
* `tracking_of_run` -- tracking loses nothing: what is tracked, when a call that waits until nothing is
  tracked returns, and what is logged.
-/

namespace CodeSession

variable {σ κ ρ ε : Type}

/-- The line that a task deserves in the log of errors: one that was spawned and raised an error. -/
def Entry.line? (own : TaskId → String) (text : ε → String) (t : TaskId) (r : Entry ρ ε) :
    Option String :=
  match r.isTracked, r.ending? with
  | true, some (.raised e) => some (Tracking.failureLine own t r.name (text e))
  | _, _ => none

namespace Tracking

open Loop

variable {b : Behaviour σ κ ρ ε} {duty : κ → Duty} {l : Loop σ κ ρ ε} {t : TaskId}
  {done : List TaskId} {own : TaskId → String} {text : ε → String}

/-! ## 1. The log of errors -/

/-- The log of errors. -/
def errorLog (own : TaskId → String) (text : ε → String) (l : Loop σ κ ρ ε) : List String :=
  l.failures.map fun f => failureLine own f.task f.name (text f.error)

/-- The line that a task deserves in the log of errors. -/
def lineOf? (own : TaskId → String) (text : ε → String) (l : Loop σ κ ρ ε) (t : TaskId) :
    Option String :=
  (l.entryOf? t).bind (Entry.line? own text t)

theorem spawned_of_lineOf? {line : String} (h : lineOf? own text l t = some line) : l.Spawned t := by
  obtain ⟨r, hr, hline⟩ := Option.bind_eq_some_iff.mp h
  unfold Spawned
  rw [hr]
  unfold Entry.line? at hline
  split at hline
  · rename_i hwork _
    exact hwork
  · cases hline

/-- The errors of a spawned task are the line that it deserves. -/
theorem map_failureOf (h : l.Spawned t) :
    ((l.failureOf t).map fun f => failureLine own f.task f.name (text f.error)) = (lineOf? own text l t).toList := by
  unfold failureOf lineOf?
  unfold Spawned at h
  cases hr : l.entryOf? t with
  | none => rfl
  | some r =>
    rw [hr] at h
    obtain ⟨name, isTracked, ending?⟩ := r
    obtain rfl : isTracked = true := h
    unfold Entry.failure Entry.line?
    cases ending? with
    | none => rfl
    | some e => cases e <;> rfl

/-- **The log has one line for each task that raised an error and whose end is settled**, in that
    order. -/
theorem errorLog_eq (h : Accounts l done) : errorLog own text l = done.filterMap (lineOf? own text l) := by
  rw [errorLog, h.failures, List.map_flatMap, List.filterMap_eq_flatMap_toList]
  exact List.flatMap_congr fun t ht => map_failureOf (h.spawned_of_mem ht).1

/-- When nothing is tracked the ends of all that were spawned are settled. -/
theorem Accounts.settled_of_nil (h : Accounts l done) (hempty : l.tracked = []) (ht : l.Spawned t) :
    t ∈ done ∧ (l.ending? t).isSome = true := by
  have hdone : t ∈ done := by
    by_contra hnot
    have hmem := (h.tracked t).mpr ⟨ht, hnot⟩
    rw [hempty] at hmem
    cases hmem
  exact ⟨hdone, (h.spawned_of_mem hdone).2⟩

/-- **When nothing is tracked the log has one line for each task that raised an error.** -/
theorem errorLog_perm (h : Accounts l done) (hempty : l.tracked = []) :
    (errorLog own text l).Perm ((List.range l.tasks.length).filterMap (lineOf? own text l)) := by
  have hsettled : ∀ t, t ∈ done ↔ l.Spawned t := fun t =>
    ⟨fun ht => (h.spawned_of_mem ht).1, fun ht => (h.settled_of_nil hempty ht).1⟩
  have hperm : done.Perm ((List.range l.tasks.length).filter fun t => decide (l.Spawned t)) := by
    refine (List.perm_ext_iff_of_nodup h.nodup_done (List.nodup_range.filter _)).mpr fun t => ?_
    rw [List.mem_filter, List.mem_range, hsettled, decide_eq_true_eq]
    exact ⟨fun ht => ⟨lt_of_spawned ht, ht⟩, And.right⟩
  rw [errorLog_eq h]
  refine (hperm.filterMap _).trans (.of_eq ?_)
  rw [List.filterMap_filter]
  refine List.filterMap_congr fun t _ => ?_
  cases hline : lineOf? own text l t with
  | none => simp
  | some line => simp [spawned_of_lineOf? hline]

/-! ## 2. Runs -/

/-- A call that ends its run in a turn is the one that the turn resumes. -/
theorem exists_of_finished? {m : Move σ κ} {k : κ} (h : finished? b l m = some k) :
    m = .turn ∧ ∃ t wake e, l.resumption? = some ⟨t, k, some wake⟩ ∧
      (b l.facts k wake l.state).next = .finish e := by
  cases m with
  | turn =>
    unfold finished? at h
    dsimp only at h
    split at h
    · rename_i t k' wake hres
      split at h
      · rename_i e he
        cases h
        exact ⟨rfl, t, wake, e, hres, he⟩
      · cases h
    · cases h
  | _ => cases h

/-- **A call that waits until nothing is tracked only returns when nothing is.** -/
theorem tracked_eq_nil_of_idle (hb : Staffed b duty) (hfit : Fit duty l) {m : Move σ κ} {k : κ}
    (h : finished? b l m = some k) (hk : duty k = .idle) : l.tracked = [] := by
  obtain ⟨rfl, t, wake, e, hres, hfinish⟩ := exists_of_finished? h
  have hcall : duty k ≠ .work := by rw [hk]; exact fun e => by cases e
  cases (hfit.resumed hcall hres).1
  obtain ⟨_, ids, again, r, hids, _, hnext⟩ := hb.idle l.facts k l.state hk
  rw [hnext] at hfinish
  cases ids with
  | nil => exact (List.nil_perm.mp hids)
  | cons u ids => cases hfinish

/-- **Tracking loses nothing.** For every run:

    * a task is tracked from its spawn until its end is settled, and no task twice;
    * each end is settled after it has come, once, and in every fair schedule all are;
    * the log has one line for each task that raised an error and whose end is settled;
    * a call that waits until nothing is tracked returns only when nothing is, so that every task that
      has been spawned has ended, and the log has the lines of all that raised an error;
    * it does return in every fair schedule, once all that have been spawned have ended and no more
      are. This rests on the loop's way to wait for tasks that have ended (`Loop.watch`): a loop in
      which such a wait is over at once lets the call ask again for ever, before any end is settled. -/
theorem tracking_of_run (hb : Staffed b duty) (own : TaskId → String) (text : ε → String) (x : σ)
    (ms : List (Move σ κ)) :
    let l := play b duty (Loop.start x) ms
    let done := log b duty settled? (Loop.start x) ms
    ((∀ t, t ∈ l.tracked ↔ l.Spawned t ∧ t ∉ done) ∧ l.tracked.Nodup) ∧
    (done.Nodup ∧ (∀ t ∈ done, l.Spawned t ∧ (l.ending? t).isSome = true) ∧
      ∀ f, Fair f → ∀ t, l.Spawned t → (l.ending? t).isSome = true →
        ∃ n, t ∈ log b duty settled? (Loop.start x) (ms ++ first f n)) ∧
    errorLog own text l = done.filterMap (lineOf? own text l) ∧
    (∀ m k, finished? b l m = some k → duty k = .idle →
      l.tracked = [] ∧ (∀ t, l.Spawned t → t ∈ done ∧ (l.ending? t).isSome = true) ∧
        (errorLog own text l).Perm ((List.range l.tasks.length).filterMap (lineOf? own text l))) ∧
    ∀ f : Nat → Move σ κ, Fair f → (∀ i, (f i).isSpawn = false) →
      (∀ t, l.Spawned t → (l.ending? t).isSome = true) →
      ∀ t k, l.continuation? t = some k → duty k = .idle →
        ∃ n r, (play b duty l (first f n)).ending? t = some (.returned r) := by
  intro l done
  have hbooks : Books duty l done := books_play hb x ms
  have haccounts := hbooks.accounts
  refine ⟨⟨haccounts.tracked, haccounts.nodup⟩, ⟨haccounts.nodup_done, fun t ht =>
    haccounts.spawned_of_mem ht, fun f hfair t ht hend => exists_settled hb hfair x ms ht hend⟩,
    errorLog_eq haccounts, fun m k hfin hk => ?_, fun f hfair hspawn hall t k hk _ =>
    exists_returned hb hfair hspawn ⟨⟨done, hbooks⟩, lined_play x ms, hall⟩ hk⟩
  have hempty := tracked_eq_nil_of_idle hb hbooks.fit hfin hk
  exact ⟨hempty, fun t ht => haccounts.settled_of_nil hempty ht, errorLog_perm haccounts hempty⟩

/-- A chore that spawns another without a name, which raises an error, and a call that waits for both. -/
def nested : List (Move Chore.World Chore.Job) :=
  let child : Chore := { (default : Chore) with
    name := "child", isUnnamed := true, fails := some ⟨.runtime, "kaboom"⟩ }
  let parent : Chore := { (default : Chore) with name := "parent", spawns := [child] }
  .spawn "parent" (.chore parent .start) :: .call .idle :: List.replicate 7 .turn

theorem tracking_of_nested :
    let l := play Chore.behaviour Chore.Job.duty (Loop.start ⟨[], []⟩) nested
    (finished? Chore.behaviour l .turn).map Chore.Job.duty = some .idle ∧ l.tracked = [] ∧
      errorLog numbered Backend.Fault.message l = ["Background task 'Task-3' failed: kaboom"] ∧
      ∃ n r, (play Chore.behaviour Chore.Job.duty l (first (fun _ => .turn) n)).ending? 1 =
        some (.returned r) := by
  intro l
  obtain ⟨_, _, hlog, hidle, hreturns⟩ :=
    tracking_of_run Chore.staffed_chores numbered Backend.Fault.message ⟨[], []⟩ nested
  have hfinished : (finished? Chore.behaviour l .turn).map Chore.Job.duty = some .idle := by
    decide +kernel
  obtain ⟨k, hk, hduty⟩ := Option.map_eq_some_iff.mp hfinished
  have hwaits : (l.continuation? 1).map Chore.Job.duty = some .idle := by decide +kernel
  obtain ⟨k', hk', hduty'⟩ := Option.map_eq_some_iff.mp hwaits
  have hended : ∀ t < l.tasks.length, l.Spawned t → (l.ending? t).isSome = true := by
    decide +kernel
  refine ⟨hfinished, (hidle .turn k hk hduty).1, hlog.trans (by decide +kernel), ?_⟩
  exact hreturns (fun _ => .turn) (fun i => ⟨i, Nat.le_refl i, rfl⟩) (fun _ => rfl)
    (fun t ht => hended t (lt_of_spawned ht) ht) 1 k' hk' hduty'

end Tracking

end CodeSession
