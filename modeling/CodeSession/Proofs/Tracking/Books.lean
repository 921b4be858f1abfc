import CodeSession.Proofs.Loop.Watching
import CodeSession.Proofs.Tracking.Acts
import CodeSession.Proofs.Tracking.Entries
import Mathlib.Data.List.Nodup

/-!
# The books of a tracked set

What the loop knows of its tasks agrees with what has happened: the set, the notes of the ends that
are yet to be settled, the errors, and what each call waits for.

* `Placed` -- work is tracked and calls are not; only work that has not ended is watched;
* `Accounts` -- a task is tracked from its spawn until its end is settled, each end is noted once, and
  the errors are those of the ends that are settled, in order;
* `Even` -- a call waits for exactly the ends that it is yet to be told of;
* `posted_act`, `accounts_act`, `even_act` -- every act keeps them.
-/

namespace CodeSession.Tracking

open Loop

variable {σ κ ρ ε : Type} {free : Prop} {duty : κ → Duty} {l l' : Loop σ κ ρ ε} {t : TaskId}
  {done es : List TaskId}

/-! ## 1. Where tasks stand -/

/-- Where a task may stand. Work may be cancelled, waits for a time or a signal, and ends in any way; a
    call is not cancelled, waits for ends, and returns. -/
inductive Post (duty : κ → Duty) : Bool → Stage κ ρ ε → Prop
  | workQueued {k : κ} (hk : duty k = .work) (begun cancelled : Bool) :
      Post duty true (.queued k begun cancelled)
  | workWaiting {k : κ} {w : Wait} (hk : duty k = .work) (hw : ∀ n, w ≠ .tasks n) :
      Post duty true (.waiting k w)
  | callQueued {k : κ} (hk : duty k ≠ .work) (begun : Bool) :
      Post duty false (.queued k begun false)
  | callWaiting {k : κ} {n : Nat} (hk : duty k = .idle ∨ duty k = .closing) (hn : 0 < n) :
      Post duty false (.waiting k (.tasks n))
  | workEnded (e : Ending ρ ε) : Post duty true (.ended e)
  | callEnded (r : ρ) : Post duty false (.ended (.returned r))

/-- A task stands where it may, and is watched only if it is work that has not ended. -/
structure Placed (duty : κ → Duty) (task : Task κ ρ ε) : Prop where
  post : Post duty task.isTracked task.stage
  watched : task.watchers ≠ [] → task.isTracked = true ∧ task.stage.ending? = none

/-- Every task stands where it may. -/
def Posted (duty : κ → Duty) (l : Loop σ κ ρ ε) : Prop :=
  ∀ (t : TaskId) (task : Task κ ρ ε), l.tasks[t]? = some task → Placed duty task

theorem Post.work {isTracked : Bool} {s : Stage κ ρ ε} {k : κ} (h : Post duty isTracked s)
    (hk : s.continuation? = some k) : duty k = .work ↔ isTracked = true := by
  cases h with
  | workQueued hduty | workWaiting hduty _ => cases hk; simp [hduty]
  | callQueued hduty => cases hk; simp [hduty]
  | callWaiting hduty => cases hk; rcases hduty with hduty | hduty <;> simp [hduty]
  | workEnded | callEnded => cases hk

theorem Posted.exists_task (h : Posted duty l) {s : Stage κ ρ ε} (hs : l.stage? t = some s) :
    ∃ task, l.tasks[t]? = some task ∧ task.stage = s ∧ Placed duty task := by
  obtain ⟨task, ht, he⟩ := exists_task_of_stage? hs
  exact ⟨task, ht, he, h t task ht⟩

/-- Where a task may stand: as work if it has been spawned, and as a call if not. -/
theorem Posted.post (h : Posted duty l) {s : Stage κ ρ ε} (hs : l.stage? t = some s) :
    ∃ isTracked, Post duty isTracked s ∧ (isTracked = true ↔ l.Spawned t) := by
  obtain ⟨task, ht, rfl, hplaced⟩ := h.exists_task hs
  refine ⟨task.isTracked, hplaced.post, ?_⟩
  rw [spawned_iff, ht]
  simp

/-- Work that has not ended has been spawned, and only work is. -/
theorem Posted.work_iff (h : Posted duty l) {k : κ} (hk : l.continuation? t = some k) :
    duty k = .work ↔ l.Spawned t := by
  obtain ⟨s, hs, hsk⟩ := continuation?_eq_some_iff.mp hk
  obtain ⟨isTracked, hpost, hspawned⟩ := h.post hs
  exact (hpost.work hsk).trans hspawned

theorem posted_modify {f : Task κ ρ ε → Task κ ρ ε} (h : Posted duty l)
    (hf : ∀ task, l.tasks[t]? = some task → Placed duty task → Placed duty (f task)) :
    Posted duty (l.modify t f) := by
  intro i task hi
  unfold Loop.modify at hi
  rw [List.getElem?_modify] at hi
  obtain ⟨old, hold, rfl⟩ := Option.map_eq_some_iff.mp hi
  split
  · rename_i hti
    exact hf old (hti ▸ hold) (h i old hold)
  · exact h i old hold

/-- A task that has not ended moves to a stage where it may stand. -/
theorem posted_move {s s' : Stage κ ρ ε} (h : Posted duty l) (hs : l.stage? t = some s)
    (hpost : ∀ isTracked, Post duty isTracked s → Post duty isTracked s')
    (hnew : s'.ending? = none) : Posted duty (l.move t s') := by
  refine posted_modify h fun task ht hplaced => ⟨?_, fun hw => ⟨(hplaced.watched hw).1, hnew⟩⟩
  obtain ⟨task', ht', rfl⟩ := exists_task_of_stage? hs
  obtain rfl : task' = task := Option.some.inj (ht'.symm.trans ht)
  exact hpost _ hplaced.post

theorem posted_add (h : Posted duty l) (name : String) {isTracked : Bool} {k : κ}
    (hk : duty k = .work ↔ isTracked = true) : Posted duty (l.add name isTracked k) := by
  intro i task hi
  unfold add at hi
  rw [List.getElem?_append] at hi
  split at hi
  · exact h i task hi
  · obtain ⟨_, he⟩ := List.getElem?_eq_some_iff.mp hi
    rw [List.getElem_singleton] at he
    subst he
    refine ⟨?_, fun hw => absurd rfl hw⟩
    cases isTracked with
    | true => exact .workQueued (hk.mpr rfl) false false
    | false => exact .callQueued (fun hwork => by cases hk.mp hwork) false

theorem posted_cancel (h : Posted duty l) (ht : l.Spawned t) : Posted duty (l.cancel t) := by
  -- only work is spawned
  have hwork : ∀ {s : Stage κ ρ ε} {k : κ}, l.stage? t = some s → s.continuation? = some k →
      duty k = .work := fun hs hk =>
    (h.work_iff ((continuation?_of_stage? hs).trans hk)).mpr ht
  have hmove : ∀ {s : Stage κ ρ ε} {k : κ} (begun : Bool), l.stage? t = some s →
      s.continuation? = some k → Posted duty (l.move t (.queued k begun true)) := by
    intro s k begun hs hk
    refine posted_move h hs (fun isTracked hpost => ?_) rfl
    obtain rfl := (hpost.work hk).mp (hwork hs hk)
    exact .workQueued (hwork hs hk) begun true
  unfold cancel
  split
  · rename_i hs
    exact hmove _ hs rfl
  · rename_i hs
    exact hmove true hs rfl
  · exact h

theorem posted_watch (h : Posted duty l) {u : TaskId} (hu : l.Spawned u) (v : TaskId) :
    Posted duty (l.watch v u) := by
  unfold watch
  split
  · exact h
  · rename_i hend
    refine posted_modify h fun task ht hplaced => ⟨hplaced.post, fun _ => ⟨?_, ?_⟩⟩
    · obtain ⟨task', ht', hwork⟩ := spawned_iff.mp hu
      exact Option.some.inj (ht'.symm.trans ht) ▸ hwork
    · rw [stage?, ht] at hend
      cases hstage : task.stage with
      | ended e => exact absurd (congrArg some hstage) (hend e)
      | _ => rfl

theorem posted_foldl_watch (h : Posted duty l) {ids : List TaskId} (hids : ∀ u ∈ ids, l.Spawned u)
    (v : TaskId) : Posted duty (ids.foldl (watch v) l) := by
  induction ids generalizing l with
  | nil => exact h
  | cons u ids ih =>
    exact ih (posted_watch h (hids u List.mem_cons_self) v) fun i hi =>
      ((aligned_watch v l u).spawned i).mpr (hids i (List.mem_cons_of_mem u hi))

theorem posted_finish {k : κ} {begun cancelled : Bool} (h : Posted duty l)
    (hs : l.stage? t = some (.queued k begun cancelled)) {e : Ending ρ ε}
    (he : duty k ≠ .work → ∃ r, e = .returned r) : Posted duty (l.finish t e) := by
  have hpost : ∀ task, l.tasks[t]? = some task → Post duty task.isTracked (.ended e : Stage κ ρ ε) := by
    intro task ht
    obtain ⟨task', ht', hstage, hplaced⟩ := h.exists_task hs
    obtain rfl : task' = task := Option.some.inj (ht'.symm.trans ht)
    have hwork := hplaced.post.work (by rw [hstage]; rfl)
    cases htracked : task'.isTracked with
    | true => exact .workEnded e
    | false =>
      obtain ⟨r, rfl⟩ := he fun hk => by rw [hwork.mp hk] at htracked; cases htracked
      exact .callEnded r
  unfold finish
  split
  · exact h
  · exact posted_modify (f := fun task => { task with stage := .ended e, watchers := [] }) h
      fun task ht _ => ⟨hpost task ht, fun hw => absurd rfl hw⟩

/-- **Every act leaves the tasks where they may stand.** -/
theorem posted_act (h : Posted duty l) (hspawned : ∀ u ∈ l.tracked, l.Spawned u)
    (hact : Act free duty l es l') : Posted duty l' := by
  cases hact with
  | aside htasks => exact fun i task hi => h i task (htasks ▸ hi)
  | spawn name k _ _ hk => exact posted_add h name (by simp [hk])
  | call name k hk => exact posted_add h name (by rcases hk with hk | hk <;> simp [hk])
  | cancel t ht => exact posted_cancel h (hspawned t ht)
  | wake hs hw =>
    refine posted_move h hs (fun isTracked hpost => ?_) rfl
    cases hpost with
    | workWaiting hk => exact .workQueued hk true false
    | callWaiting => exact absurd rfl (hw _)
  | expired => exact h
  | pop => exact h
  | settle => exact h
  | count w hhead =>
    have hpop : Posted duty l.popped := h
    unfold count
    split
    · rename_i k left hs
      split
      · refine posted_move hpop hs (fun isTracked hpost => ?_) rfl
        cases hpost with
        | workWaiting _ hw => exact absurd rfl (hw left)
        | callWaiting hk => exact .callQueued (by rcases hk with hk | hk <;> simp [hk]) true
      · rename_i hlast
        refine posted_move hpop hs (fun isTracked hpost => ?_) rfl
        cases hpost with
        | workWaiting _ hw => exact absurd rfl (hw left)
        | callWaiting hk => exact .callWaiting hk (by omega)
    · exact hpop
  | @rest t k₀ begun cancelled hs _ hk₀ p k hk hp =>
    have hpost : ∀ isTracked, Post duty isTracked (.queued k₀ begun cancelled : Stage κ ρ ε) →
        isTracked = true := fun isTracked hold => (hold.work rfl).mp hk₀
    have hmove : ∀ s : Stage κ ρ ε, s.ending? = none → Post duty true s →
        Posted duty (l.move t s) := fun s hend hnew =>
      posted_move h hs (fun isTracked hold => hpost isTracked hold ▸ hnew) hend
    unfold pause
    split
    · exact hmove _ rfl (.workQueued hk true false)
    · exact absurd rfl (hp [])
    · exact hmove _ rfl (.workWaiting hk fun n e => by cases e)
    · rename_i ticks _
      exact hmove (.waiting k (.timer (some (l.now + ticks)) l.armed)) rfl
        (.workWaiting hk fun n e => by cases e)
    · exact hmove _ rfl (.workWaiting hk fun n e => by cases e)
    · rename_i ids _
      exact absurd rfl (hp ids)
  | @await t k₀ begun cancelled hs ids k hids hne hk =>
    have hduty : duty k₀ ≠ .work ∧ (duty k = .idle ∨ duty k = .closing) := by
      rcases hk with ⟨hk₀, hk⟩ | ⟨hk₀, hk, _⟩ <;> simp [hk₀, hk]
    have hmove : Posted duty (l.move t (.waiting k (.tasks ids.length))) := by
      refine posted_move h hs (fun isTracked hold => ?_) rfl
      have hcall : isTracked = false :=
        Bool.eq_false_iff.mpr fun htrue => hduty.1 ((hold.work rfl).mpr htrue)
      exact hcall ▸ .callWaiting hduty.2 (List.length_pos_iff.mpr hne)
    have hmoved := aligned_move (.waiting k (.tasks ids.length)) hs rfl rfl
    rw [pause_tasks hne]
    exact posted_foldl_watch hmove
      (fun i hi => (hmoved.spawned i).mpr (hspawned i (hids.mem_iff.mp hi))) t
  | finish hs e he => exact posted_finish h hs he

/-! ## 2. What is tracked, noted and logged -/

/-- The accounts of a tracked set, after the ends of some tasks have been settled. -/
structure Accounts (l : Loop σ κ ρ ε) (done : List TaskId) : Prop where
  tracked : ∀ t, t ∈ l.tracked ↔ l.Spawned t ∧ t ∉ done
  nodup : l.tracked.Nodup
  notes : ∀ t, done.count t + l.ready.count (.settled t) =
    if l.Spawned t ∧ (l.ending? t).isSome then 1 else 0
  failures : l.failures = done.flatMap l.failureOf

namespace Accounts

theorem spawned_of_mem (h : Accounts l done) (ht : t ∈ done) :
    l.Spawned t ∧ (l.ending? t).isSome = true := by
  have hpos : 0 < done.count t := List.count_pos_iff.mpr ht
  have hnotes := h.notes t
  by_contra hnot
  rw [if_neg hnot] at hnotes
  omega

theorem of_note (h : Accounts l done) (ht : .settled t ∈ l.ready) :
    t ∈ l.tracked ∧ (l.ending? t).isSome = true := by
  have hpos : 0 < l.ready.count (.settled t) := List.count_pos_iff.mpr ht
  have hnotes := h.notes t
  by_cases hended : l.Spawned t ∧ (l.ending? t).isSome
  · rw [if_pos hended] at hnotes
    have hzero : done.count t = 0 := by omega
    exact ⟨(h.tracked t).mpr ⟨hended.1, List.count_eq_zero.mp hzero⟩, hended.2⟩
  · rw [if_neg hended] at hnotes
    omega

/-- The end of a tracked task is noted in the queue. -/
theorem note_of_tracked (h : Accounts l done) (ht : t ∈ l.tracked)
    (hend : (l.ending? t).isSome = true) : .settled t ∈ l.ready := by
  obtain ⟨hspawned, hdone⟩ := (h.tracked t).mp ht
  have hnotes := h.notes t
  rw [if_pos ⟨hspawned, hend⟩, List.count_eq_zero.mpr hdone] at hnotes
  exact List.count_pos_iff.mp (by omega)

theorem nodup_done (h : Accounts l done) : done.Nodup := by
  refine List.nodup_iff_count_le_one.mpr fun t => ?_
  have hnotes := h.notes t
  split at hnotes <;> omega

theorem aligned (h : Accounts l done) (ha : Aligned l l') : Accounts l' done where
  tracked i := by rw [ha.tracked, h.tracked, ha.spawned]
  nodup := ha.tracked ▸ h.nodup
  notes i := by simp only [ha.notes, h.notes, ha.ending?, ha.spawned]
  failures := by
    rw [ha.failures, h.failures]
    refine List.flatMap_congr fun i _ => ?_
    rw [failureOf, failureOf, ha.entry]

end Accounts

/-- A new task is added: it is tracked if it is work. -/
theorem accounts_add (h : Accounts l done) (name : String) (isTracked : Bool) (k : κ) :
    Accounts (l.add name isTracked k) done := by
  have hfresh : ¬l.Spawned l.tasks.length := fun hs => Nat.lt_irrefl _ (lt_of_spawned hs)
  have hspawned := spawned_add name isTracked k l
  have hnew : l.tasks.length ∉ done := fun hmem => hfresh (h.spawned_of_mem hmem).1
  have hnone : l.tasks.length ∉ l.tracked := fun hmem => hfresh ((h.tracked _).mp hmem).1
  refine ⟨fun i => ?_, ?_, fun i => ?_, ?_⟩
  · rw [hspawned]
    show i ∈ (if isTracked then l.tracked ++ [l.tasks.length] else l.tracked) ↔ _
    by_cases hi : i = l.tasks.length
    · subst hi
      cases isTracked <;> simp [hnew, hnone]
    · cases isTracked <;> simp [hi, h.tracked]
  · show (if isTracked then l.tracked ++ [l.tasks.length] else l.tracked).Nodup
    split
    · rw [List.nodup_append]
      refine ⟨h.nodup, List.nodup_singleton _, fun a ha c hc => ?_⟩
      rintro rfl
      exact hnone (List.mem_singleton.mp hc ▸ ha)
    · exact h.nodup
  · have hready : (l.add name isTracked k).ready.count (.settled i) = l.ready.count (.settled i) := by
      simp [add]
    rw [hready, h.notes, ending?_eq_entryOf?, ending?_eq_entryOf?, entryOf?_add]
    by_cases hi : i = l.tasks.length
    · subst hi
      simp [hfresh]
    · simp only [hspawned, hi, if_false]
  · show l.failures = _
    rw [h.failures]
    refine List.flatMap_congr fun i hi => ?_
    have hne : i ≠ l.tasks.length := fun e => hnew (e ▸ hi)
    rw [failureOf, failureOf, entryOf?_add, if_neg hne]

/-- The end of a task is noted once, if it has been spawned. -/
theorem notes_finish {task : Task κ ρ ε} (ht : l.tasks[t]? = some task) (e : Ending ρ ε) (i : TaskId) :
    (l.finish t e).ready.count (.settled i) =
      l.ready.count (.settled i) + if i = t ∧ task.isTracked then 1 else 0 := by
  have hcounted : (task.watchers.map Callback.counted).count (.settled i) = 0 := by
    refine List.count_eq_zero.mpr fun hmem => ?_
    obtain ⟨_, _, e⟩ := List.mem_map.mp hmem
    cases e
  unfold finish
  rw [ht]
  show (l.ready ++ _).count _ = _
  rw [List.count_append, List.count_append, hcounted]
  cases task.isTracked with
  | true =>
    by_cases hi : i = t
    · subst hi
      simp
    · simp [hi, Ne.symm hi]
  | false => simp

/-- A task ends: its end is noted if it is tracked. -/
theorem accounts_finish (h : Accounts l done) {k : κ} {begun cancelled : Bool}
    (hs : l.stage? t = some (.queued k begun cancelled)) (e : Ending ρ ε) :
    Accounts (l.finish t e) done := by
  obtain ⟨task, ht, hstage⟩ := exists_task_of_stage? hs
  have hopen : l.ending? t = none := ending?_of_stage? hs
  have hspawned := spawned_finish t e l
  have hwork : l.Spawned t ↔ task.isTracked = true := by
    rw [spawned_iff, ht]
    simp
  have hnotDone : t ∉ done := fun hmem => by
    have hend := (h.spawned_of_mem hmem).2
    rw [hopen] at hend
    cases hend
  refine ⟨fun i => ?_, ?_, fun i => ?_, ?_⟩
  · rw [(keeps_finish t e l).tracked, h.tracked, hspawned]
  · rw [(keeps_finish t e l).tracked]
    exact h.nodup
  · have hnotes := h.notes i
    rw [notes_finish ht]
    by_cases hi : i = t
    · subst hi
      rw [hopen] at hnotes
      simp only [Option.isSome_none, Bool.false_eq_true, and_false, if_false] at hnotes
      have hended : ((l.finish i e).ending? i).isSome = true := by
        rw [ending?_eq_entryOf?, entryOf?_finish, if_pos rfl, entryOf?, ht]
        rfl
      rw [← Nat.add_assoc, hnotes, Nat.zero_add]
      simp only [hspawned, hwork, hended, true_and, and_true]
    · rw [ending?_eq_entryOf?, entryOf?_finish, if_neg hi, ← ending?_eq_entryOf?]
      simp only [hi, false_and, if_false, Nat.add_zero, hnotes, hspawned]
  · have hfailures : (l.finish t e).failures = l.failures := by
      unfold finish
      rw [ht]
      rfl
    rw [hfailures, h.failures]
    refine List.flatMap_congr fun i hi => ?_
    have hne : i ≠ t := fun he => hnotDone (he ▸ hi)
    rw [failureOf, failureOf, entryOf?_finish, if_neg hne]

/-- An end is settled: the task leaves the set, and its error is logged. -/
theorem accounts_settle (h : Accounts l done) (hhead : l.ready.head? = some (.settled t)) :
    Accounts (l.popped.settleEnd t) (done ++ [t]) := by
  have hpop : ∀ i, l.ready.count (.settled i) =
      l.popped.ready.count (.settled i) + if t = i then 1 else 0 := by
    intro i
    obtain ⟨rest, hr⟩ := List.head?_eq_some_iff.mp hhead
    simp [popped, hr, List.count_cons]
  refine ⟨fun i => ?_, h.nodup.filter _, fun i => ?_, ?_⟩
  · show i ∈ l.tracked.filter (· != t) ↔ l.Spawned i ∧ i ∉ done ++ [t]
    rw [List.mem_filter, h.tracked]
    simp [and_assoc]
  · have hnotes := h.notes i
    rw [hpop] at hnotes
    show (done ++ [t]).count i + l.popped.ready.count (.settled i) =
      if l.Spawned i ∧ (l.ending? i).isSome then 1 else 0
    rw [count_append_singleton, ← hnotes]
    omega
  · show l.failures ++ _ = (done ++ [t]).flatMap l.failureOf
    rw [List.flatMap_append, h.failures, List.flatMap_singleton, failureOf, entryOf?]
    refine congrArg (_ ++ ·) ?_
    show (l.tasks[t]?.map (failure t)).getD [] = _
    rw [Option.map_map]
    exact congrArg (fun f => (l.tasks[t]?.map f).getD [])
      (funext fun task => (failure_entry t task).symm)

/-- **What an act does to the entries**: nothing, or a task is added, or one ends, or the end of one is
    settled. -/
theorem Act.entry_cases (hact : Act free duty l es l') :
    (es = [] ∧ Aligned l l') ∨
    (es = [] ∧ ∃ name isTracked k, (isTracked = true → free ∧ l.closed = false) ∧
      l' = l.add name isTracked k) ∨
    (es = [] ∧ ∃ t k begun cancelled e, l.stage? t = some (.queued k begun cancelled) ∧
      l' = l.finish t e) ∨
    ∃ t, es = [t] ∧ l.ready.head? = some (.settled t) ∧ l' = l.popped.settleEnd t := by
  cases hact with
  | spawn name k hfree hopen => exact .inr (.inl ⟨rfl, name, true, k, (fun _ => ⟨hfree, hopen⟩), rfl⟩)
  | call name k => exact .inr (.inl ⟨rfl, name, false, k, (fun h => by cases h), rfl⟩)
  | finish hs e => exact .inr (.inr (.inl ⟨rfl, _, _, _, _, e, hs, rfl⟩))
  | settle t hhead => exact .inr (.inr (.inr ⟨t, rfl, hhead, rfl⟩))
  | aside htasks hready htracked hfailures =>
    refine .inl ⟨rfl, htracked, hfailures, fun i => ?_, fun i => ?_⟩
    · rw [entryOf?, htasks, entryOf?]
    · rw [hready]
  | cancel t => exact .inl ⟨rfl, aligned_cancel t l⟩
  | wake hs => exact .inl ⟨rfl, (aligned_move _ hs rfl rfl).trans (aligned_resume _ _)⟩
  | expired cs hcs =>
    refine .inl ⟨rfl, aligned_push (fun i hi => ?_) l⟩
    obtain ⟨_, _, he⟩ := hcs _ hi
    cases he
  | pop c hhead hsettled => exact .inl ⟨rfl, aligned_popped hhead hsettled⟩
  | count w hhead =>
    have hpop := aligned_popped hhead fun i e => by cases e
    exact .inl ⟨rfl, hpop.trans (aligned_count w l.popped)⟩
  | rest hs _ _ p k => exact .inl ⟨rfl, aligned_pause hs p k⟩
  | await hs ids k => exact .inl ⟨rfl, aligned_pause hs (.tasks ids) k⟩

/-- A task that is added is a call, unless work is free to be spawned in an open set. -/
theorem isTracked_eq_false {isTracked : Bool} (hadd : isTracked = true → free ∧ l.closed = false)
    (hfree : free → l.closed = true) : isTracked = false := by
  refine Bool.eq_false_iff.mpr fun htrue => ?_
  obtain ⟨hfree', hopen⟩ := hadd htrue
  rw [hfree hfree'] at hopen
  cases hopen

/-- Unless work is spawned, the tasks that have been spawned stay the same. -/
theorem spawned_act (hact : Act free duty l es l') (hfree : free → l.closed = true) (t : TaskId) :
    l'.Spawned t ↔ l.Spawned t := by
  rcases hact.entry_cases with ⟨rfl, ha⟩ | ⟨rfl, name, isTracked, k, hadd, rfl⟩ |
    ⟨rfl, u, k, begun, cancelled, e, hs, rfl⟩ | ⟨u, rfl, hhead, rfl⟩
  · exact ha.spawned t
  · obtain rfl := isTracked_eq_false hadd hfree
    rw [spawned_add]
    split
    · rename_i ht
      have hnot : ¬l.Spawned t := fun hs => Nat.ne_of_lt (lt_of_spawned hs) ht
      simp [hnot]
    · exact Iff.rfl
  · exact spawned_finish u e l t
  · exact Iff.rfl

/-- Whoever has ended stays as it has ended. -/
theorem ending_act (hact : Act free duty l es l') {e : Ending ρ ε} (hend : l.ending? t = some e) :
    l'.ending? t = some e := by
  have hs := ending?_eq_some_iff.mp hend
  rcases hact.entry_cases with ⟨rfl, ha⟩ | ⟨rfl, name, isTracked, k, hadd, rfl⟩ |
    ⟨rfl, u, k, begun, cancelled, e', hu, rfl⟩ | ⟨u, rfl, hhead, rfl⟩
  · rwa [ha.ending?]
  · rwa [ending?_eq_bind, stage?_add, if_neg (Nat.ne_of_lt (lt_of_stage? hs)), ← ending?_eq_bind]
  · have hne : t ≠ u := by
      rintro rfl
      rw [hu] at hs
      cases hs
    rwa [ending?_eq_bind, stage?_finish, if_neg hne, ← ending?_eq_bind]
  · exact hend

/-- Unless work is spawned, nothing is tracked anew. -/
theorem tracked_sublist_act (hact : Act free duty l es l') (hfree : free → l.closed = true) :
    l'.tracked.Sublist l.tracked := by
  rcases hact.entry_cases with ⟨rfl, ha⟩ | ⟨rfl, name, isTracked, k, hadd, rfl⟩ |
    ⟨rfl, t, k, begun, cancelled, e, hs, rfl⟩ | ⟨t, rfl, hhead, rfl⟩
  · rw [ha.tracked]
  · obtain rfl := isTracked_eq_false hadd hfree
    exact .refl _
  · rw [(keeps_finish t e l).tracked]
  · exact List.filter_sublist

theorem length_le_act (hact : Act free duty l es l') : l.tasks.length ≤ l'.tasks.length := by
  cases hact with
  | aside htasks => exact Nat.le_of_eq (congrArg List.length htasks.symm)
  | spawn | call => simp [add]
  | cancel t => exact Nat.le_of_eq (keeps_cancel t l).length.symm
  | wake => exact Nat.le_of_eq (keeps_move _ _ l).length.symm
  | expired | pop | settle => exact Nat.le_refl _
  | count w => exact Nat.le_of_eq (rests_count w l.popped).length.symm
  | rest _ _ _ p k => exact Nat.le_of_eq (keeps_pause _ p k l).length.symm
  | await _ ids k => exact Nat.le_of_eq (keeps_pause _ (.tasks ids) k l).length.symm
  | finish _ e => exact Nat.le_of_eq (keeps_finish _ e l).length.symm

/-- A closed set stays closed. -/
theorem closed_act (hact : Act free duty l es l') (h : l.closed = true) : l'.closed = true := by
  cases hact with
  | aside _ _ _ _ hclosed => exact hclosed h
  | spawn | call | wake | expired | pop | settle => exact h
  | cancel t => exact (keeps_cancel t l).closed.trans h
  | count w => exact (rests_count w l.popped).closed.trans h
  | rest _ _ _ p k => exact (keeps_pause _ p k l).closed.trans h
  | await _ ids k => exact (keeps_pause _ (.tasks ids) k l).closed.trans h
  | finish _ e => exact (keeps_finish _ e l).closed.trans h

/-- **Every act keeps the accounts.** -/
theorem accounts_act (h : Accounts l done) (hact : Act free duty l es l') :
    Accounts l' (done ++ es) := by
  rcases hact.entry_cases with ⟨rfl, ha⟩ | ⟨rfl, name, isTracked, k, _, rfl⟩ |
    ⟨rfl, t, k, begun, cancelled, e, hs, rfl⟩ | ⟨t, rfl, hhead, rfl⟩
  · exact (List.append_nil done).symm ▸ h.aligned ha
  · exact (List.append_nil done).symm ▸ accounts_add h name isTracked k
  · exact (List.append_nil done).symm ▸ accounts_finish h hs e
  · exact accounts_settle h hhead

/-! ## 3. What calls wait for -/

/-- How many ends a task that stands at a stage waits for. -/
def awaited : Option (Stage κ ρ ε) → Nat
  | some (.waiting _ (.tasks n)) => n
  | _ => 0

/-- Every task waits for exactly the ends that it is yet to be told of. -/
def Even (l : Loop σ κ ρ ε) : Prop :=
  ∀ w, l.owed w = awaited (l.stage? w)

theorem even_move {s' : Stage κ ρ ε} (h : Even l)
    (hs : ∀ s, l.stage? t = some s → awaited (some s') = awaited (some s)) :
    Even (l.move t s') := by
  intro w
  rw [owed_move, h w, stage?_move]
  split
  · rename_i hwt
    subst hwt
    cases hw : l.stage? w with
    | none => rfl
    | some s => exact (hs s hw).symm
  · rfl

theorem even_push {cs : List Callback} (h : Even l) (hcs : ∀ w, .counted w ∉ cs) :
    Even (l.push cs) := fun w =>
  ((tallied_push hcs l).owed w).trans (h w)

theorem even_add (h : Even l) (name : String) (isTracked : Bool) (k : κ) :
    Even (l.add name isTracked k) := by
  intro w
  rw [(tallied_add name isTracked k l).owed, h w, stage?_add]
  split
  · rename_i hw
    rw [stage?_eq_none_iff.mpr (Nat.le_of_eq hw.symm)]
    rfl
  · rfl

theorem even_wake {k : κ} {begun cancelled : Bool} (h : Even l) (hs : awaited (l.stage? t) = 0) :
    Even ((l.move t (.queued k begun cancelled)).push [.resume t]) :=
  even_push (even_move h fun s hts => by rw [hts] at hs; exact hs.symm)
    fun w hmem => by cases List.mem_singleton.mp hmem

theorem owed_foldl_watch_of_lt {ids : List TaskId} (v : TaskId)
    (hids : ∀ u ∈ ids, u < l.tasks.length) (w : TaskId) :
    (ids.foldl (watch v) l).owed w = l.owed w + if v = w then ids.length else 0 := by
  induction ids generalizing l with
  | nil => simp
  | cons u ids ih =>
    have hlength := (keeps_watch v l u).length
    rw [List.foldl_cons, ih fun i hi => hlength ▸ hids i (List.mem_cons_of_mem u hi),
      owed_watch_of_lt v (hids u List.mem_cons_self), List.length_cons]
    split <;> omega

/-- An end is counted for a task, which waits for one less, or goes on. -/
theorem even_count {w : TaskId} (h : Even l) (hhead : l.ready.head? = some (.counted w)) :
    Even (l.popped.count w) := by
  have hpop : ∀ v, awaited (l.stage? v) = l.popped.owed v + if w = v then 1 else 0 := by
    intro v
    rw [← h v, owed_popped hhead v]
    simp
  -- the others are as they were, and the task moves on
  have hmove : ∀ s : Stage κ ρ ε, awaited (some s) = l.popped.owed w →
      Even (l.popped.move w s) := by
    intro s hs v
    rw [owed_move, stage?_move]
    split
    · rename_i hvw
      subst hvw
      have hself := hpop v
      rw [if_pos rfl] at hself
      cases hv : l.stage? v with
      | none =>
        rw [hv] at hself
        exact absurd hself (Nat.succ_ne_zero _).symm
      | some s₀ =>
        rw [show l.popped.stage? v = some s₀ from hv]
        exact hs.symm
    · rename_i hvw
      have hother := hpop v
      rw [if_neg (Ne.symm hvw)] at hother
      exact hother.symm
  have hself := hpop w
  rw [if_pos rfl] at hself
  unfold count
  split
  · rename_i k left hs
    have hleft : left = l.popped.owed w + 1 := by
      rw [show l.stage? w = _ from hs] at hself
      exact hself
    split
    · refine even_push (hmove (.queued k true false) ?_) fun v hmem => by
        cases List.mem_singleton.mp hmem
      show 0 = l.popped.owed w
      omega
    · refine hmove (.waiting k (.tasks (left - 1))) ?_
      show left - 1 = l.popped.owed w
      omega
  · -- it was owed this end, so it waits
    rename_i hs
    cases hw : l.stage? w with
    | none => rw [hw] at hself; exact absurd hself (Nat.succ_ne_zero _).symm
    | some s =>
      rw [hw] at hself
      unfold awaited at hself
      split at hself
      · rename_i k n he
        exact absurd (hw.trans he) (hs k n)
      · exact absurd hself (Nat.succ_ne_zero _).symm

/-- A tracked task is cancelled: it is work, which waits for no ends. -/
theorem even_cancel (h : Even l) (hposted : Posted duty l) (ht : l.Spawned t) :
    Even (l.cancel t) := by
  intro w
  rw [(tallied_cancel t l).owed, h w, stage?_cancel]
  split
  · rename_i hwt
    subst hwt
    cases hs : l.stage? w with
    | none => rfl
    | some s =>
      obtain ⟨isTracked, hpost, hspawned⟩ := hposted.post hs
      obtain rfl := hspawned.mpr ht
      cases hpost with
      | @workWaiting k v _ hw =>
        cases v with
        | tasks n => exact absurd rfl (hw n)
        | _ => rfl
      | workQueued | workEnded => rfl
  · rfl

/-- A task that waits for no ends pauses, but for no ends. -/
theorem even_rest (h : Even l) (hs : awaited (l.stage? t) = 0) {p : Pause} (k : κ)
    (hp : ∀ ids, p ≠ .tasks ids) : Even (l.pause t p k) := by
  have hmove : ∀ s : Stage κ ρ ε, awaited (some s) = 0 → Even (l.move t s) := fun s hnew =>
    even_move h fun s₀ hs₀ => by rw [hnew, ← hs₀, hs]
  unfold pause
  split
  · exact even_wake h hs
  · exact absurd rfl (hp [])
  · exact hmove _ rfl
  · rename_i ticks _
    exact hmove (.waiting k (.timer (some (l.now + ticks)) l.armed)) rfl
  · exact hmove _ rfl
  · rename_i ids _
    exact absurd rfl (hp ids)

/-- A task that waits for no ends pauses for the ends of some: it is owed each of them. -/
theorem even_await (h : Even l) (hs : awaited (l.stage? t) = 0) (ht : t < l.tasks.length)
    {ids : List TaskId} (k : κ) (hids : ∀ u ∈ ids, u < l.tasks.length) (hne : ids ≠ []) :
    Even (l.pause t (.tasks ids) k) := by
  have howed : ∀ w, (l.pause t (.tasks ids) k).owed w =
      l.owed w + if t = w then ids.length else 0 := by
    intro w
    rw [pause_tasks hne, owed_foldl_watch_of_lt t (fun u hu => ?_), owed_move]
    rw [(keeps_move _ _ l).length]
    exact hids u hu
  intro w
  rw [howed, stage?_pause, h w, paused_tasks hne]
  by_cases hw : w = t
  · subst hw
    obtain ⟨s, hsome⟩ := Option.ne_none_iff_exists'.mp
      (fun hnone => Nat.not_lt.mpr (stage?_eq_none_iff.mp hnone) ht : l.stage? w ≠ none)
    rw [if_pos rfl, if_pos rfl, hs, hsome]
    exact Nat.zero_add _
  · rw [if_neg (Ne.symm hw), if_neg hw, Nat.add_zero]

/-- **Every act keeps the books of the calls even.** -/
theorem even_act (h : Even l) (hposted : Posted duty l) (haccounts : Accounts l done)
    (hact : Act free duty l es l') : Even l' := by
  have hspawned : ∀ u ∈ l.tracked, l.Spawned u := fun u hu => ((haccounts.tracked u).mp hu).1
  cases hact with
  | aside htasks hready =>
    intro w
    have hsame := h w
    rw [owed, stage?] at hsame
    rw [owed, stage?, htasks, hready]
    exact hsame
  | spawn name k => exact even_add h name true k
  | call name k => exact even_add h name false k
  | cancel t ht => exact even_cancel h hposted (hspawned t ht)
  | @wake t k w hs hw =>
    refine even_wake h ?_
    rw [hs]
    cases w with
    | tasks n => exact absurd rfl (hw n)
    | _ => rfl
  | expired cs hcs =>
    refine even_push h fun w hmem => ?_
    obtain ⟨_, _, he⟩ := hcs _ hmem
    cases he
  | pop c hhead _ hcounted => exact fun w => ((tallied_popped hhead hcounted).owed w).trans (h w)
  | settle t hhead =>
    exact fun w => ((tallied_popped hhead fun v e => by cases e).owed w).trans (h w)
  | count w hhead => exact even_count h hhead
  | rest hs _ _ p k _ hp => exact even_rest h (by rw [hs]; rfl) k hp
  | await hs ids k hids hne =>
    exact even_await h (by rw [hs]; rfl) (lt_of_stage? hs) k
      (fun u hu => lt_of_spawned (hspawned u (hids.mem_iff.mp hu))) hne
  | @finish t k begun cancelled hs e =>
    intro w
    rw [owed_finish, h w, stage?_finish]
    split
    · rename_i hwt
      subst hwt
      rw [hs]
      rfl
    · rfl

end CodeSession.Tracking
