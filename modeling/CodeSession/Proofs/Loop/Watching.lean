import CodeSession.Proofs.Loop.Turns
import Mathlib.Data.List.Count

/-!
# Waiting for the ends of tasks

A task that waits for others watches them, and is told of each end by a callback. The books agree:
it never waits for fewer ends than are yet to be told (`Owing`), so when it goes on it watches none.

* `owed` -- the ends that a task has yet to be told of;
* `Tallied` -- the operations that change neither the watching nor the telling;
* `owing_turned` -- every turn keeps the books, if a task that is cancelled under way ends;
* `watches_turned`, `watches_of_pause` -- a task watches what it waits for, as long as that has not
  ended.
-/

namespace CodeSession.Loop

variable {σ κ ρ ε : Type} {l l' l'' : Loop σ κ ρ ε} {t u w : TaskId}

/-! ## 1. What is owed -/

/-- The watchers of a task. -/
def watchersOf (l : Loop σ κ ρ ε) (t : TaskId) : List TaskId :=
  (l.tasks[t]?.map Task.watchers).getD []

/-- Whether a task watches another. -/
def Watches (l : Loop σ κ ρ ε) (w u : TaskId) : Prop :=
  w ∈ l.watchersOf u

/-- The ends that a task has yet to be told of: those of the tasks it watches, and those in the
    queue. -/
def owed (l : Loop σ κ ρ ε) (w : TaskId) : Nat :=
  (l.tasks.flatMap Task.watchers).count w + l.ready.count (.counted w)

/-- Whether a task that stands at a stage may be owed so many ends. One that is cancelled or has
    ended does not care. -/
def MayOwe : Option (Stage κ ρ ε) → Nat → Prop
  | some (.queued _ _ true), _ => True
  | some (.ended _), _ => True
  | some (.waiting _ (.tasks left)), n => n ≤ left
  | _, n => n = 0

/-- Every task waits for all the ends that it is owed. -/
def Owing (l : Loop σ κ ρ ε) : Prop :=
  ∀ w, MayOwe (l.stage? w) (l.owed w)

theorem owed_pos_of_watches (h : l.Watches w u) : 0 < l.owed w := by
  unfold Watches watchersOf at h
  cases hu : l.tasks[u]? with
  | none => simp [hu] at h
  | some task =>
    have hmem : w ∈ task.watchers := by simpa [hu] using h
    have hone : 0 < (l.tasks.flatMap Task.watchers).count w :=
      List.count_pos_iff.mpr (List.mem_flatMap.mpr ⟨task, List.mem_of_getElem? hu, hmem⟩)
    unfold owed
    omega

/-- A task that goes on as it was told watches none. -/
theorem Owing.not_watches {k : κ} {begun : Bool} (h : Owing l)
    (hs : l.stage? w = some (.queued k begun false)) : ¬l.Watches w u := by
  intro hw
  have hpos := owed_pos_of_watches hw
  have hzero : MayOwe (l.stage? w) (l.owed w) := h w
  rw [hs] at hzero
  exact absurd hzero (Nat.ne_of_gt hpos)

/-! ## 2. Operations that leave the books alone -/

/-- The watching and the telling are the same, and a stage that changes leaves room for what was
    owed. -/
structure Tallied (l l' : Loop σ κ ρ ε) : Prop where
  owed : ∀ w, l'.owed w = l.owed w
  watches : ∀ w u, l.Watches w u → l'.Watches w u
  mayOwe : ∀ w n, MayOwe (l.stage? w) n → MayOwe (l'.stage? w) n

theorem Tallied.refl (l : Loop σ κ ρ ε) : Tallied l l :=
  ⟨fun _ => rfl, fun _ _ h => h, fun _ _ h => h⟩

theorem Tallied.trans (h : Tallied l l') (h' : Tallied l' l'') : Tallied l l'' where
  owed w := (h'.owed w).trans (h.owed w)
  watches w u hw := h'.watches w u (h.watches w u hw)
  mayOwe w n hn := h'.mayOwe w n (h.mayOwe w n hn)

theorem Tallied.of_tasks_eq (htasks : l'.tasks = l.tasks)
    (hready : ∀ w, l'.ready.count (.counted w) = l.ready.count (.counted w)) : Tallied l l' := by
  refine ⟨fun w => ?_, fun w u h => ?_, fun w n h => ?_⟩
  · rw [Loop.owed, htasks, hready, Loop.owed]
  · rw [Watches, watchersOf, htasks]
    exact h
  · rw [stage?, htasks]
    exact h

theorem Owing.tallied (ho : Owing l) (h : Tallied l l') : Owing l' := by
  intro w
  rw [h.owed]
  exact h.mayOwe w _ (ho w)

/-- How often one occurs in lists that belong to the elements of a list, when an element is
    modified. -/
theorem count_flatMap_modify {α β : Type} [DecidableEq β] {g : α → List β} {f : α → α} {as : List α}
    {i : Nat} {a : α} (h : as[i]? = some a) (b : β) :
    ((as.modify i f).flatMap g).count b + (g a).count b =
      (as.flatMap g).count b + (g (f a)).count b := by
  induction as generalizing i with
  | nil => cases h
  | cons a' as ih =>
    cases i with
    | zero =>
      obtain rfl : a' = a := Option.some.inj h
      simp only [List.modify_zero_cons, List.flatMap_cons, List.count_append]
      omega
    | succ i =>
      have hrest := ih h
      simp only [List.modify_succ_cons, List.flatMap_cons, List.count_append]
      omega

@[simp] theorem owed_move (t : TaskId) (s : Stage κ ρ ε) (l : Loop σ κ ρ ε) (w : TaskId) :
    (l.move t s).owed w = l.owed w := by
  cases ht : l.tasks[t]? with
  | none =>
    have hle : l.tasks.length ≤ t := List.getElem?_eq_none_iff.mp ht
    simp [owed, move, modify, List.modify_eq_self hle]
  | some task =>
    have hcount := count_flatMap_modify (g := Task.watchers)
      (f := fun task => { task with stage := s }) ht w
    show _ + l.ready.count (.counted w) = _ + l.ready.count (.counted w)
    exact congrArg (· + _) (Nat.add_right_cancel hcount)

@[simp] theorem watchersOf_move (t : TaskId) (s : Stage κ ρ ε) (l : Loop σ κ ρ ε) (u : TaskId) :
    (l.move t s).watchersOf u = l.watchersOf u := by
  unfold watchersOf move modify
  rw [List.getElem?_modify]
  split <;> cases l.tasks[u]? <;> rfl

/-- A task moves to a stage that leaves room for what it was owed. -/
theorem tallied_move {s : Stage κ ρ ε} (h : ∀ n, MayOwe (l.stage? t) n → MayOwe (some s) n) :
    Tallied l (l.move t s) := by
  refine ⟨fun w => owed_move t s l w, fun w u hw => ?_, fun w n hn => ?_⟩
  · rw [Watches, watchersOf_move]
    exact hw
  · rw [stage?_move]
    split
    · rename_i hwt
      subst hwt
      cases hs : l.stage? w with
      | none =>
        rw [hs] at hn
        exact hn
      | some s' =>
        rw [hs] at h hn
        exact h n hn
    · exact hn

/-- Callbacks that tell of no end are put into the queue. -/
theorem tallied_push {cs : List Callback} (h : ∀ w, .counted w ∉ cs) (l : Loop σ κ ρ ε) :
    Tallied l (l.push cs) :=
  .of_tasks_eq rfl fun w => by
    rw [push, List.count_append, List.count_eq_zero.mpr (h w), Nat.add_zero]

theorem tallied_resume (t : TaskId) (l : Loop σ κ ρ ε) : Tallied l (l.push [.resume t]) :=
  tallied_push (fun w h => by cases List.mem_singleton.mp h) l

theorem tallied_add (name : String) (isTracked : Bool) (k : κ) (l : Loop σ κ ρ ε) :
    Tallied l (l.add name isTracked k) := by
  refine ⟨fun w => ?_, fun w u h => ?_, fun w n hn => ?_⟩
  · simp [owed, add]
  · have hlt : u < l.tasks.length := by
      refine Nat.lt_of_not_le fun hle => ?_
      simp [Watches, watchersOf, List.getElem?_eq_none hle] at h
    unfold Watches watchersOf add at *
    rw [List.getElem?_append_left hlt]
    exact h
  · rw [stage?_add]
    split
    · rename_i hw
      rw [stage?_eq_none_iff.mpr (Nat.le_of_eq hw.symm)] at hn
      exact hn
    · exact hn

theorem mayOwe_cancelled (k : κ) (begun : Bool) (n : Nat) :
    MayOwe (some (.queued k begun true : Stage κ ρ ε)) n := trivial

theorem tallied_cancel (t : TaskId) (l : Loop σ κ ρ ε) : Tallied l (l.cancel t) := by
  unfold cancel
  split
  · exact tallied_move fun n _ => mayOwe_cancelled _ _ n
  · exact (tallied_move fun n _ => mayOwe_cancelled _ _ n).trans (tallied_resume t _)
  · exact .refl l

theorem tallied_signal (t : TaskId) (f : κ → κ) (l : Loop σ κ ρ ε) : Tallied l (l.signal t f) := by
  unfold signal
  split
  · rename_i k hs
    refine (tallied_move fun n hn => ?_).trans (tallied_resume t _)
    rw [hs] at hn
    exact hn
  · exact .refl l

theorem tallied_expire (t rank : TaskId) (l : Loop σ κ ρ ε) : Tallied l (l.expire t rank) := by
  unfold expire
  split
  · rename_i k due r hs
    split
    · refine (tallied_move fun n hn => ?_).trans (tallied_resume t _)
      rw [hs] at hn
      exact hn
    · exact .refl l
  · exact .refl l

theorem tallied_fireAt (time : Nat) (l : Loop σ κ ρ ε) : Tallied l (l.fireAt time) := by
  have htime : Tallied l { l with now := time } := .of_tasks_eq rfl fun _ => rfl
  refine htime.trans (tallied_push (fun w h => ?_) _)
  obtain ⟨_, _, e⟩ := List.mem_map.mp h
  cases e

theorem tallied_obey (l : Loop σ κ ρ ε) (o : Order κ) : Tallied l (l.obey o) := by
  cases o with
  | spawn name k =>
    unfold obey
    dsimp only
    split
    · exact .refl l
    · exact tallied_add name true k l
  | cancel t => exact tallied_cancel t l
  | _ => exact .of_tasks_eq rfl fun _ => rfl

theorem tallied_foldl_obey (x : σ) (orders : List (Order κ)) (l : Loop σ κ ρ ε) :
    Tallied l (orders.foldl obey { l with state := x }) := by
  have hstate : Tallied l { l with state := x } := .of_tasks_eq rfl fun _ => rfl
  refine hstate.trans ?_
  generalize ({ l with state := x } : Loop σ κ ρ ε) = l₁
  induction orders generalizing l₁ with
  | nil => exact .refl l₁
  | cons o orders ih => exact (tallied_obey l₁ o).trans (ih _)

/-! ## 3. Pauses and ends -/

theorem count_append_singleton {α : Type} [DecidableEq α] (as : List α) (a b : α) :
    (as ++ [a]).count b = as.count b + if a = b then 1 else 0 := by
  rw [List.count_append, List.count_singleton]
  by_cases h : a = b <;> simp [h]

/-- Watching a task owes the watcher one end more. -/
theorem owed_watch_of_lt (v : TaskId) (ht : t < l.tasks.length) (w : TaskId) :
    (l.watch v t).owed w = l.owed w + (if v = w then 1 else 0) := by
  unfold watch
  split
  · simp only [owed, push, count_append_singleton, Callback.counted.injEq, Nat.add_assoc]
  · have hcount := count_flatMap_modify (g := Task.watchers)
      (f := fun task => { task with watchers := task.watchers ++ [v] })
      (List.getElem?_eq_getElem ht) w
    rw [count_append_singleton] at hcount
    unfold owed modify
    dsimp only
    omega

/-- Watching a task owes the watcher one end more at most, and the others none. -/
theorem owed_watch (v : TaskId) (l : Loop σ κ ρ ε) (t w : TaskId) :
    (l.watch v t).owed w ≤ l.owed w + (if v = w then 1 else 0) ∧
      (v ≠ w → (l.watch v t).owed w = l.owed w) := by
  by_cases ht : t < l.tasks.length
  · rw [owed_watch_of_lt v ht w]
    exact ⟨Nat.le_refl _, fun hne => by rw [if_neg hne, Nat.add_zero]⟩
  · have hle : l.tasks.length ≤ t := Nat.le_of_not_lt ht
    have hsame : ∀ f, l.modify t f = l := fun f => by rw [modify, List.modify_eq_self hle]
    unfold watch
    rw [stage?_eq_none_iff.mpr hle]
    dsimp only
    rw [hsame]
    exact ⟨Nat.le_add_right _ _, fun _ => rfl⟩

theorem owed_foldl_watch (v : TaskId) (ids : List TaskId) (l : Loop σ κ ρ ε) (w : TaskId) :
    (ids.foldl (watch v) l).owed w ≤ l.owed w + (if v = w then ids.length else 0) ∧
      (v ≠ w → (ids.foldl (watch v) l).owed w = l.owed w) := by
  induction ids generalizing l with
  | nil => simp
  | cons t ids ih =>
    obtain ⟨hle, hsame⟩ := ih (l.watch v t)
    obtain ⟨hle', hsame'⟩ := owed_watch v l t w
    refine ⟨?_, fun hne => (hsame hne).trans (hsame' hne)⟩
    rw [List.foldl_cons, List.length_cons]
    split at hle
    · rename_i hvw
      rw [if_pos hvw] at hle'
      rw [if_pos hvw]
      omega
    · rename_i hvw
      rw [if_neg hvw] at hle'
      rw [if_neg hvw]
      omega

/-- A pause owes the task no more than the ends that it waits for, and the others nothing. -/
theorem owed_pause (t : TaskId) (p : Pause) (k : κ) (l : Loop σ κ ρ ε) :
    (∀ w, t ≠ w → (l.pause t p k).owed w = l.owed w) ∧
      (l.owed t = 0 → MayOwe (some (l.paused p k)) ((l.pause t p k).owed t)) := by
  have hqueued : ∀ w, ((l.move t (.queued k true false)).push [.resume t]).owed w = l.owed w :=
    fun w => ((tallied_resume t _).owed w).trans (owed_move t _ l w)
  have hmoved : ∀ s w, (l.move t s).owed w = l.owed w := fun s w => owed_move t s l w
  match p with
  | .sleep none => exact ⟨fun w _ => hmoved _ w, fun ht => (hmoved _ t).trans ht⟩
  | .sleep (some 0) => exact ⟨fun w _ => hqueued w, fun ht => (hqueued t).trans ht⟩
  | .sleep (some (n + 1)) =>
    have hset := hmoved (.waiting k (.timer (some (l.now + (n + 1))) l.armed))
    exact ⟨fun w _ => hset w, fun ht => (hset t).trans ht⟩
  | .signal => exact ⟨fun w _ => hmoved _ w, fun ht => (hmoved _ t).trans ht⟩
  | .tasks [] => exact ⟨fun w _ => hqueued w, fun ht => (hqueued t).trans ht⟩
  | .tasks (u :: ids) =>
    have hwatch := owed_foldl_watch t (u :: ids) (l.move t (.waiting k (.tasks (u :: ids).length)))
    refine ⟨fun w hne => ((hwatch w).2 hne).trans (hmoved _ w), fun ht => ?_⟩
    have hle := (hwatch t).1
    rw [if_pos rfl, hmoved, ht, Nat.zero_add] at hle
    exact hle

/-- A task that is owed nothing pauses. -/
theorem owing_pause (h : Owing l) (hlt : t < l.tasks.length) (ht : l.owed t = 0) (p : Pause)
    (k : κ) : Owing (l.pause t p k) := by
  obtain ⟨hother, hself⟩ := owed_pause t p k l
  intro w
  rw [stage?_pause]
  split
  · rename_i hwt
    subst hwt
    cases hs : l.stage? w with
    | none => exact absurd hlt (Nat.not_lt.mpr (stage?_eq_none_iff.mp hs))
    | some s => exact hself ht
  · rename_i hwt
    rw [hother w (Ne.symm hwt)]
    exact h w

/-- **The end of a task is told to those that watched it.** -/
theorem owed_finish (t : TaskId) (e : Ending ρ ε) (l : Loop σ κ ρ ε) (w : TaskId) :
    (l.finish t e).owed w = l.owed w := by
  unfold finish
  split
  · rfl
  · rename_i task ht
    have hcount := count_flatMap_modify (g := Task.watchers)
      (f := fun task => { task with stage := .ended e, watchers := [] }) ht w
    have hinj : Function.Injective Callback.counted := fun a b h => Callback.counted.inj h
    have hnotes : ((if task.isTracked then [Callback.settled t] else []) ++
        task.watchers.map Callback.counted).count (.counted w) = task.watchers.count w := by
      rw [List.count_append, List.count_map_of_injective _ _ hinj]
      split <;> simp
    unfold owed push modify
    dsimp only at hcount ⊢
    rw [List.count_append, hnotes]
    simp only [List.count_nil] at hcount
    omega

/-- A task ends. -/
theorem owing_finish (h : Owing l) (t : TaskId) (e : Ending ρ ε) : Owing (l.finish t e) := by
  intro w
  rw [owed_finish, stage?_finish]
  split
  · cases hs : l.stage? w with
    | none =>
      have hzero : MayOwe (l.stage? w) (l.owed w) := h w
      rw [hs] at hzero
      exact hzero
    | some s => trivial
  · exact h w

theorem mayOwe_of_succ {s : Option (Stage κ ρ ε)} {n : Nat} (h : MayOwe s (n + 1)) : MayOwe s n := by
  unfold MayOwe at *
  split at h
  · trivial
  · trivial
  · exact Nat.le_of_succ_le h
  · exact absurd h (Nat.succ_ne_zero n)

/-- **An end is counted.** A task that goes on with the last one that it waits for is owed
    nothing. -/
theorem owing_count (h : ∀ v, MayOwe (l.stage? v) (l.owed v + if w = v then 1 else 0)) :
    Owing (l.count w) := by
  have hother : ∀ v, v ≠ w → MayOwe (l.stage? v) (l.owed v) := fun v hv => by
    have hvw := h v
    rw [if_neg (Ne.symm hv)] at hvw
    exact hvw
  have hself := h w
  rw [if_pos rfl] at hself
  -- the task that is told moves on
  have hmove : ∀ s : Stage κ ρ ε, MayOwe (some s) (l.owed w) → Owing (l.move w s) := by
    intro s hs v
    rw [owed_move, stage?_move]
    split
    · rename_i hvw
      subst hvw
      cases hv : l.stage? v with
      | none =>
        rw [hv] at hself
        exact absurd hself (Nat.succ_ne_zero _)
      | some _ => exact hs
    · rename_i hvw
      exact hother v hvw
  unfold count
  split
  · rename_i k left hs
    rw [hs] at hself
    have hle : l.owed w + 1 ≤ left := hself
    split
    · rename_i hlast
      have hzero : l.owed w = 0 := by omega
      exact (hmove (.queued k true false) hzero).tallied (tallied_resume w _)
    · have hless : l.owed w ≤ left - 1 := by omega
      exact hmove (.waiting k (.tasks (left - 1))) hless
  · intro v
    by_cases hvw : v = w
    · exact hvw ▸ mayOwe_of_succ hself
    · exact hother v hvw

/-! ## 4. Turns -/

section Turns

variable {b : Behaviour σ κ ρ ε}

theorem owed_popped {c : Callback} (h : l.ready.head? = some c) (w : TaskId) :
    l.owed w = l.popped.owed w + if c = .counted w then 1 else 0 := by
  obtain ⟨rest, hr⟩ := List.head?_eq_some_iff.mp h
  simp only [owed, popped, hr, List.tail_cons, List.count_cons, beq_iff_eq, Nat.add_assoc]

/-- A callback that tells of no end leaves the books alone. -/
theorem tallied_popped {c : Callback} (h : l.ready.head? = some c) (hc : ∀ w, c ≠ .counted w) :
    Tallied l l.popped := by
  refine .of_tasks_eq rfl fun w => ?_
  obtain ⟨rest, hr⟩ := List.head?_eq_some_iff.mp h
  simp [popped, hr, hc w]

/-- A task goes on after a run: it is owed nothing, or ends. -/
theorem owing_goOn {n : Next κ ρ ε} (h : Owing l) (hlt : t < l.tasks.length)
    (hn : l.owed t = 0 ∨ ∃ e, n = .finish e) : Owing (l.goOn t n) := by
  cases n with
  | finish e => exact owing_finish h t e
  | pause p k =>
    refine owing_pause h hlt (hn.resolve_right ?_) p k
    rintro ⟨e, he⟩
    cases he

/-- **Every turn keeps the books**, if a task that is cancelled under way ends. -/
theorem owing_turned (hb : ∀ facts k x, ∃ e, (b facts k .cancelled x).next = .finish e)
    (h : Owing l) : Owing (l.turned b) := by
  cases hhead : l.ready.head? with
  | none =>
    have he : l.turned b = l := by simp [turned, turn, List.head?_eq_none_iff.mp hhead]
    rw [he]
    exact h
  | some c =>
    by_cases hcounted : ∃ w, c = .counted w
    · obtain ⟨w, rfl⟩ := hcounted
      rw [turned_of_head hhead]
      refine owing_count fun v => ?_
      have hv : MayOwe (l.stage? v) (l.owed v) := h v
      rw [owed_popped hhead] at hv
      simp only [Callback.counted.injEq] at hv
      exact hv
    · have hc : ∀ w, c ≠ .counted w := fun w e => hcounted ⟨w, e⟩
      have hpop : Owing l.popped := h.tallied (tallied_popped hhead hc)
      cases hres : l.resumption? with
      | some r =>
        obtain ⟨t, k, x⟩ := r
        rw [turned_of_resumption? hres]
        cases x with
        | none => exact owing_finish hpop t .cancelled
        | some x =>
          have hord : Tallied l.popped (l.popped.ordered b k x) := tallied_foldl_obey _ _ _
          have hlt : t < (l.popped.ordered b k x).tasks.length :=
            Nat.lt_of_lt_of_le (Resumption.lt hres) (length_le_foldl_obey _
              { l.popped with state := (b l.popped.facts k x l.popped.state).state })
          refine owing_goOn (hpop.tallied hord) hlt ?_
          cases x with
          | cancelled => exact .inr (hb _ _ _)
          | go =>
            -- a task that was not cancelled is owed nothing
            obtain ⟨_, begun, cancelled, hs, hw⟩ := resumption?_eq_some_iff.mp hres
            have hcancelled : cancelled = false := by
              cases cancelled with
              | false => rfl
              | true => cases begun <;> cases hw
            have hzero : MayOwe (l.popped.stage? t) (l.popped.owed t) := hpop t
            rw [show l.popped.stage? t = some (.queued k begun cancelled) from hs,
              hcancelled] at hzero
            exact .inl ((hord.owed t).trans hzero)
      | none =>
        rw [turned_of_head hhead]
        cases c with
        | resume t =>
          rw [show handle b l.popped (.resume t) = l.popped from resume_popped hhead hres]
          exact hpop
        | settled t => exact hpop.tallied (.of_tasks_eq rfl fun _ => rfl)
        | counted w => exact absurd rfl (hc w)
        | expired t rank => exact hpop.tallied (tallied_expire t rank _)

end Turns

/-! ## 5. Who is watched -/

theorem watchersOf_modify (t : TaskId) (f : Task κ ρ ε → Task κ ρ ε) (l : Loop σ κ ρ ε)
    (u : TaskId) : (l.modify t f).watchersOf u =
      if u = t then (l.tasks[u]?.map fun task => (f task).watchers).getD [] else l.watchersOf u := by
  unfold watchersOf modify
  rw [List.getElem?_modify]
  by_cases h : u = t
  · subst h
    cases l.tasks[u]? <;> simp
  · cases l.tasks[u]? <;> simp [h, Ne.symm h]

theorem watches_watch (v : TaskId) (t : TaskId) (h : l.Watches w u) : (l.watch v t).Watches w u := by
  unfold watch
  split
  · exact h
  · rw [Watches, watchersOf_modify]
    split
    · unfold Watches watchersOf at h
      cases hu : l.tasks[u]? with
      | none => rw [hu] at h; exact absurd h List.not_mem_nil
      | some task => rw [hu] at h; exact List.mem_append_left _ h
    · exact h

/-- Who has not ended is watched from then on. -/
theorem watches_watch_self {k : κ} (hu : l.continuation? u = some k) : (l.watch w u).Watches w u := by
  obtain ⟨s, hs, hk⟩ := continuation?_eq_some_iff.mp hu
  unfold watch
  split
  · rename_i e he
    rw [he] at hs
    cases hs
    cases hk
  · rw [Watches, watchersOf_modify, if_pos rfl]
    obtain ⟨task, ht, _⟩ := Option.map_eq_some_iff.mp hs
    rw [ht]
    exact List.mem_append_right _ (List.mem_singleton.mpr rfl)

theorem watches_foldl_watch (v : TaskId) (ids : List TaskId) (h : l.Watches w u) :
    (ids.foldl (watch v) l).Watches w u := by
  induction ids generalizing l with
  | nil => exact h
  | cons t ids ih => exact ih (watches_watch v t h)

theorem watches_foldl_watch_of_mem {k : κ} {ids : List TaskId} (hmem : u ∈ ids)
    (hu : l.continuation? u = some k) : (ids.foldl (watch w) l).Watches w u := by
  induction ids generalizing l with
  | nil => exact absurd hmem List.not_mem_nil
  | cons t ids ih =>
    rcases List.mem_cons.mp hmem with rfl | hmem
    · exact watches_foldl_watch w ids (watches_watch_self hu)
    · refine ih hmem ?_
      rw [continuation?, stage?_watch, ← continuation?]
      exact hu

theorem watches_move (s : Stage κ ρ ε) (h : l.Watches w u) : (l.move t s).Watches w u := by
  rw [Watches, watchersOf_move]
  exact h

theorem watches_pause (p : Pause) (k : κ) (h : l.Watches w u) : (l.pause t p k).Watches w u := by
  unfold pause
  split
  · exact watches_move _ h
  · exact watches_move _ h
  · exact watches_move _ h
  · rename_i ticks _
    exact watches_move (.waiting k (.timer (some (l.now + ticks)) l.armed)) h
  · exact watches_move _ h
  · exact watches_foldl_watch _ _ (watches_move _ h)

/-- A task that ends is watched no more; the watchers of the others stay. -/
theorem watches_finish (e : Ending ρ ε) (hut : u ≠ t) (h : l.Watches w u) :
    (l.finish t e).Watches w u := by
  unfold finish
  split
  · exact h
  · have hsame := watchersOf_modify t (fun task => { task with stage := .ended e, watchers := [] }) l u
    rw [if_neg hut] at hsame
    show w ∈ (l.modify t fun task => { task with stage := .ended e, watchers := [] }).watchersOf u
    rw [hsame]
    exact h

theorem watches_goOn {n : Next κ ρ ε} {k : κ} (h : l.Watches w u)
    (hu : (l.goOn t n).continuation? u = some k) : (l.goOn t n).Watches w u := by
  cases n with
  | pause p k => exact watches_pause p k h
  | finish e =>
    refine watches_finish e ?_ h
    rintro rfl
    obtain ⟨s, hs, hk⟩ := continuation?_eq_some_iff.mp hu
    rw [stage?_goOn, if_pos rfl] at hs
    obtain ⟨_, _, rfl⟩ := Option.map_eq_some_iff.mp hs
    cases hk

section Turns

variable {b : Behaviour σ κ ρ ε} {k : κ}

/-- **A task is watched until it ends.** -/
theorem watches_turned (h : l.Watches w u) (hu : (l.turned b).continuation? u = some k) :
    (l.turned b).Watches w u := by
  have hpop : l.popped.Watches w u := h
  cases hres : l.resumption? with
  | some r =>
    obtain ⟨t, k', x⟩ := r
    rw [turned_of_resumption? hres] at hu ⊢
    cases x with
    | none => exact watches_goOn (n := .finish .cancelled) hpop hu
    | some x =>
      have hord : Tallied l.popped (l.popped.ordered b k' x) := tallied_foldl_obey _ _ _
      exact watches_goOn (hord.watches w u hpop) hu
  | none =>
    cases hhead : l.ready.head? with
    | none =>
      have he : l.turned b = l := by simp [turned, turn, List.head?_eq_none_iff.mp hhead]
      rw [he]
      exact h
    | some c =>
      rw [turned_of_head hhead]
      cases c with
      | resume t =>
        rw [show handle b l.popped (.resume t) = l.popped from resume_popped hhead hres]
        exact hpop
      | settled t => exact hpop
      | counted v =>
        show (l.popped.count v).Watches w u
        unfold count
        split
        · split
          · exact watches_move _ hpop
          · exact watches_move _ hpop
        · exact hpop
      | expired t rank => exact (tallied_expire t rank l.popped).watches w u hpop

/-- **A task that waits for others watches those that have not ended.** -/
theorem watches_of_pause {ids : List TaskId} {k' : κ} {x : Wake}
    (hres : l.resumption? = some ⟨t, k, some x⟩)
    (hn : (b l.facts k x l.state).next = .pause (.tasks ids) k') (hmem : u ∈ ids) {k'' : κ}
    (hu : (l.turned b).continuation? u = some k'') : (l.turned b).Watches t u := by
  rw [turned_of_run hres, runTask_eq, show (b l.popped.facts k x l.popped.state).next = _ from hn] at hu ⊢
  cases ids with
  | nil => exact absurd hmem List.not_mem_nil
  | cons v ids =>
    refine watches_foldl_watch_of_mem (k := k'') hmem ?_
    rw [continuation?, ← stage?_foldl_watch t (v :: ids)]
    exact hu

end Turns

end CodeSession.Loop
