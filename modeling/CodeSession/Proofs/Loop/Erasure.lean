import CodeSession.Proofs.Loop.Apart
import Mathlib.Data.List.Basic

/-!
# A loop without one of its tasks

A task that stands apart may be left out: the others have the same turns without it. The tasks after
it move up by one, so their numbers change wherever they are noted.

* `skip` -- the number of a task among the others;
* `Loop.without` -- a loop without a task, with the state as the others see it;
* `without_cancel`, `without_goOn`, … -- the operations on other tasks carry over;
* `without_turned`, `without_turned_own` -- so do the turns of other tasks, and those of the task itself
  that ask for nothing are not noticed.
-/

namespace CodeSession

variable {σ κ ρ ε : Type}

/-! ## 1. Numbers -/

/-- The number of a task among the others. -/
def skip (t i : Nat) : Nat :=
  if i < t then i else i - 1

/-- The task with a number among the others. -/
def unskip (t j : Nat) : Nat :=
  if j < t then j else j + 1

section Skip

variable {t i j : Nat}

theorem skip_of_lt (h : i < t) : skip t i = i :=
  if_pos h

theorem skip_of_gt (h : t < i) : skip t i = i - 1 :=
  if_neg (Nat.not_lt.mpr (Nat.le_of_lt h))

theorem unskip_ne (t j : Nat) : unskip t j ≠ t := by
  unfold unskip
  split <;> omega

theorem unskip_eq_iff (hi : i ≠ t) : i = unskip t j ↔ skip t i = j := by
  unfold skip unskip
  by_cases hit : i < t <;> by_cases hjt : j < t <;> simp only [hit, hjt, if_true, if_false] <;> omega

theorem skip_unskip (t j : Nat) : skip t (unskip t j) = j :=
  (unskip_eq_iff (unskip_ne t j)).mp rfl

theorem skip_eq_iff (hi : i ≠ t) (hj : j ≠ t) : skip t i = skip t j ↔ i = j := by
  rw [← unskip_eq_iff hi, ← (unskip_eq_iff hj).mpr rfl]

end Skip

/-! ## 2. Renaming -/

/-- A callback with its task renamed. -/
def Callback.rename (r : TaskId → TaskId) : Callback → Callback
  | .resume i => .resume (r i)
  | .settled i => .settled (r i)
  | .counted i => .counted (r i)
  | .expired i rank => .expired (r i) rank

/-- A task with its watchers renamed. -/
def Task.rename (r : TaskId → TaskId) (task : Task κ ρ ε) : Task κ ρ ε :=
  { task with watchers := task.watchers.map r }

/-- An error with its task renamed. -/
def Failed.rename (r : TaskId → TaskId) (f : Failed ε) : Failed ε :=
  { f with task := r f.task }

/-- An order with the task that it names renamed. -/
def Order.rename (r : TaskId → TaskId) : Order κ → Order κ
  | .cancel i => .cancel (r i)
  | o => o

/-- A pause with the tasks that it waits for renamed. -/
def Pause.rename (r : TaskId → TaskId) : Pause → Pause
  | .tasks ids => .tasks (ids.map r)
  | p => p

/-- What a run goes on to, with the tasks that it waits for renamed. -/
def Next.rename (r : TaskId → TaskId) : Next κ ρ ε → Next κ ρ ε
  | .pause p k => .pause (p.rename r) k
  | n => n

/-- A run with the tasks that it names renamed, and its state changed to match. -/
def Burst.rename (g : σ → σ) (r : TaskId → TaskId) (b : Burst σ κ ρ ε) : Burst σ κ ρ ε :=
  ⟨g b.state, b.orders.map (Order.rename r), b.next.rename r⟩

/-- Facts with the tasks renamed. -/
def Facts.rename (r : TaskId → TaskId) (facts : Facts) : Facts :=
  ⟨facts.closed, facts.tracked.map r, r facts.fresh⟩

namespace Loop

/-- A loop without a task, with the state as the others see it. -/
def without (t : TaskId) (g : σ → σ) (l : Loop σ κ ρ ε) : Loop σ κ ρ ε :=
  { l with
    state := g l.state
    tasks := (l.tasks.eraseIdx t).map (Task.rename (skip t))
    ready := (l.ready.filter (· ≠ .resume t)).map (Callback.rename (skip t))
    tracked := l.tracked.map (skip t)
    failures := l.failures.map (Failed.rename (skip t))
    ended := (l.ended.filter (· ≠ t)).map (skip t) }

/-! ## 3. Operations on other tasks -/

section Operations

variable {t i : TaskId} {g : σ → σ} {l : Loop σ κ ρ ε}

theorem getElem?_without (j : TaskId) :
    (l.without t g).tasks[j]? = l.tasks[unskip t j]?.map (Task.rename (skip t)) := by
  simp only [without, List.getElem?_map, List.getElem?_eraseIdx, unskip]
  split <;> rfl

theorem getElem?_without_skip (hi : i ≠ t) :
    (l.without t g).tasks[skip t i]? = l.tasks[i]?.map (Task.rename (skip t)) := by
  rw [getElem?_without, ← (unskip_eq_iff hi).mpr rfl]

theorem stage?_without (hi : i ≠ t) : (l.without t g).stage? (skip t i) = l.stage? i := by
  rw [stage?, getElem?_without_skip hi, Option.map_map]
  rfl

theorem facts_without (ht : t < l.tasks.length) :
    (l.without t g).facts = l.facts.rename (skip t) := by
  have hlength : (l.tasks.eraseIdx t).length = skip t l.tasks.length := by
    rw [List.length_eraseIdx_of_lt ht, skip_of_gt ht]
  simp [facts, without, Facts.rename, hlength]

theorem without_push (cs : List Callback) : (l.push cs).without t g =
    (l.without t g).push ((cs.filter (· ≠ .resume t)).map (Callback.rename (skip t))) := by
  simp [push, without]

theorem without_push_resume (hi : i ≠ t) :
    (l.push [.resume i]).without t g = (l.without t g).push [.resume (skip t i)] := by
  rw [without_push]
  simp [hi, Callback.rename]

theorem without_push_resume_self : (l.push [.resume t]).without t g = l.without t g := by
  rw [without_push]
  simp

theorem without_modify (hi : i ≠ t) {f f' : Task κ ρ ε → Task κ ρ ε}
    (hf : ∀ task, (f task).rename (skip t) = f' (task.rename (skip t))) :
    (l.modify i f).without t g = (l.without t g).modify (skip t i) f' := by
  have htasks : ((l.modify i f).without t g).tasks =
      ((l.without t g).modify (skip t i) f').tasks := by
    refine List.ext_getElem? fun j => ?_
    rw [getElem?_without]
    show ((l.tasks.modify i f)[unskip t j]?).map _ = ((l.without t g).tasks.modify (skip t i) f')[j]?
    rw [List.getElem?_modify, List.getElem?_modify, getElem?_without]
    cases l.tasks[unskip t j]? with
    | none => rfl
    | some task =>
      by_cases hj : i = unskip t j
      · simp [hj, skip_unskip, hf]
      · have hj' : skip t i ≠ j := fun h => hj ((unskip_eq_iff hi).mpr h)
        simp [hj, hj']
  exact congrArg (fun tasks => { l.without t g with tasks := tasks }) htasks

theorem without_modify_self (f : Task κ ρ ε → Task κ ρ ε) :
    (l.modify t f).without t g = l.without t g := by
  have htasks : ((l.modify t f).without t g).tasks = (l.without t g).tasks := by
    refine List.ext_getElem? fun j => ?_
    rw [getElem?_without, getElem?_without]
    show ((l.tasks.modify t f)[unskip t j]?).map _ = _
    rw [List.getElem?_modify]
    simp [(unskip_ne t j).symm]
  exact congrArg (fun tasks => { l.without t g with tasks := tasks }) htasks

theorem without_move (hi : i ≠ t) (s : Stage κ ρ ε) :
    (l.move i s).without t g = (l.without t g).move (skip t i) s :=
  without_modify hi fun _ => rfl

theorem without_move_self (s : Stage κ ρ ε) : (l.move t s).without t g = l.without t g :=
  without_modify_self _

theorem without_wake (hi : i ≠ t) (s : Stage κ ρ ε) :
    ((l.move i s).push [.resume i]).without t g =
      ((l.without t g).move (skip t i) s).push [.resume (skip t i)] := by
  rw [without_push_resume hi, without_move hi]

theorem without_wake_self (s : Stage κ ρ ε) :
    ((l.move t s).push [.resume t]).without t g = l.without t g := by
  rw [without_push_resume_self, without_move_self]

theorem without_add (ht : t < l.tasks.length) (name : String) (isTracked : Bool) (k : κ) :
    (l.add name isTracked k).without t g = (l.without t g).add name isTracked k := by
  have hlength : ((l.tasks.eraseIdx t).map (Task.rename (skip t))).length =
      skip t l.tasks.length := by
    rw [List.length_map, List.length_eraseIdx_of_lt ht, skip_of_gt ht]
  have hne : l.tasks.length ≠ t := (Nat.ne_of_lt ht).symm
  simp only [add, without, hlength, List.eraseIdx_append_of_lt_length ht, List.map_append,
    List.filter_append]
  cases isTracked <;> simp [hne, Callback.rename, Task.rename]

theorem without_cancel (hi : i ≠ t) :
    (l.cancel i).without t g = (l.without t g).cancel (skip t i) := by
  unfold cancel
  rw [stage?_without hi]
  split
  · exact without_move hi _
  · exact without_wake hi _
  · rfl

theorem without_cancel_self : (l.cancel t).without t g = l.without t g := by
  unfold cancel
  split
  · exact without_move_self _
  · exact without_wake_self _
  · rfl

theorem without_signal (hi : i ≠ t) (f : κ → κ) :
    (l.signal i f).without t g = (l.without t g).signal (skip t i) f := by
  unfold signal
  rw [stage?_without hi]
  split
  · exact without_wake hi _
  · rfl

theorem without_signal_self (f : κ → κ) : (l.signal t f).without t g = l.without t g := by
  unfold signal
  split
  · exact without_wake_self _
  · rfl

theorem without_obey (ht : t < l.tasks.length) {o : Order κ} (ho : o ≠ .cancel t) :
    (l.obey o).without t g = (l.without t g).obey (o.rename (skip t)) := by
  cases o with
  | spawn name k =>
    show (if l.closed then l else l.add name true k).without t g =
      if l.closed then l.without t g else (l.without t g).add name true k
    split
    · rfl
    · exact without_add ht name true k
  | cancel i => exact without_cancel fun h => ho (congrArg Order.cancel h)
  | _ => rfl

theorem without_foldl_obey (ht : t < l.tasks.length) {orders : List (Order κ)}
    (ho : .cancel t ∉ orders) : (orders.foldl obey l).without t g =
      (orders.map (Order.rename (skip t))).foldl obey (l.without t g) := by
  induction orders generalizing l with
  | nil => rfl
  | cons o orders ih =>
    obtain ⟨hne, hrest⟩ := List.ne_and_not_mem_of_not_mem_cons ho
    rw [List.foldl_cons, ih (Nat.lt_of_lt_of_le ht (length_le_obey l o)) hrest,
      without_obey ht hne.symm, List.map_cons, List.foldl_cons]

theorem without_watch {w : TaskId} (hi : i ≠ t) :
    (l.watch w i).without t g = (l.without t g).watch (skip t w) (skip t i) := by
  unfold watch
  rw [stage?_without hi]
  split
  · rw [without_push]
    rfl
  · refine without_modify hi fun task => ?_
    simp [Task.rename]

theorem without_foldl_watch {w : TaskId} {ids : List TaskId} (ht : t ∉ ids) :
    (ids.foldl (watch w) l).without t g =
      (ids.map (skip t)).foldl (watch (skip t w)) (l.without t g) := by
  induction ids generalizing l with
  | nil => rfl
  | cons u ids ih =>
    obtain ⟨hne, hrest⟩ := List.ne_and_not_mem_of_not_mem_cons ht
    rw [List.foldl_cons, ih hrest, without_watch hne.symm, List.map_cons, List.foldl_cons]

theorem without_pause (hi : i ≠ t) {p : Pause} (hp : ∀ ids, p = .tasks ids → t ∉ ids) (k : κ) :
    (l.pause i p k).without t g = (l.without t g).pause (skip t i) (p.rename (skip t)) k := by
  match p with
  | .sleep none => exact without_move hi _
  | .sleep (some 0) => exact without_wake hi _
  | .sleep (some (n + 1)) =>
    exact congrArg (fun z : Loop σ κ ρ ε => { z with armed := z.armed + 1 })
      (without_move (g := g) (l := l) hi (.waiting k (.timer (some (l.now + (n + 1))) l.armed)))
  | .signal => exact without_move hi _
  | .tasks [] => exact without_wake hi _
  | .tasks (u :: ids) =>
    have hwatch := without_foldl_watch (g := g) (l := l.move i (.waiting k (.tasks (u :: ids).length)))
      (w := i) (hp _ rfl)
    rw [without_move hi] at hwatch
    simpa only [Pause.rename, List.map_cons, pause, List.length_cons, List.length_map] using hwatch

/-- The end of another task carries over if the task watches none. -/
theorem without_finish (hi : i ≠ t) (e : Ending ρ ε) :
    (l.finish i e).without t g = (l.without t g).finish (skip t i) e := by
  unfold finish
  rw [getElem?_without_skip hi]
  cases l.tasks[i]? with
  | none => rfl
  | some task =>
    dsimp only [Option.map_some]
    have hended : (l.modify i fun task => { task with stage := .ended e, watchers := [] }).without t g =
        (l.without t g).modify (skip t i) fun task =>
          { task with stage := .ended e, watchers := [] } :=
      without_modify hi fun _ => rfl
    have hnotes : (((if task.isTracked then [Callback.settled i] else []) ++
          task.watchers.map Callback.counted).filter (· ≠ .resume t)).map
            (Callback.rename (skip t)) =
        (if task.isTracked then [Callback.settled (skip t i)] else []) ++
          (task.watchers.map (skip t)).map Callback.counted := by
      rw [List.filter_eq_self.mpr]
      · cases task.isTracked <;> simp [Callback.rename]
      · intro c hc
        cases c with
        | resume u => cases htracked : task.isTracked <;> simp [htracked] at hc
        | _ => rfl
    have hpushed := without_push (t := t) (g := g)
      (l := l.modify i fun task => { task with stage := .ended e, watchers := [] })
      ((if task.isTracked then [Callback.settled i] else []) ++ task.watchers.map Callback.counted)
    rw [hnotes, hended] at hpushed
    have hlast : ((l.ended ++ [i]).filter (· ≠ t)).map (skip t) =
        (l.ended.filter (· ≠ t)).map (skip t) ++ [skip t i] := by
      simp [hi]
    exact (congrArg (fun z : Loop σ κ ρ ε =>
      { z with ended := ((l.ended ++ [i]).filter (· ≠ t)).map (skip t) }) hpushed).trans
      (by rw [hlast])

/-- The end of the task itself is not noticed if nothing tells about it. -/
theorem without_finish_self (h : l.bonds? t = some (false, [])) (e : Ending ρ ε) :
    (l.finish t e).without t g = l.without t g := by
  obtain ⟨task, htask, hbonds⟩ := Option.map_eq_some_iff.mp h
  obtain ⟨htracked, hwatchers⟩ := Prod.mk.inj hbonds
  unfold finish
  rw [htask]
  simp only [htracked, hwatchers, Bool.false_eq_true, if_false, List.map_nil, List.append_nil, push_nil]
  have hended : ((l.ended ++ [t]).filter (· ≠ t)).map (skip t) =
      (l.ended.filter (· ≠ t)).map (skip t) := by
    simp
  have hmodified : (l.modify t fun task => { task with stage := .ended e, watchers := [] }).without
      t g = l.without t g := without_modify_self _
  exact (congrArg (fun z : Loop σ κ ρ ε =>
    { z with ended := ((l.ended ++ [t]).filter (· ≠ t)).map (skip t) }) hmodified).trans
    (by rw [hended])

theorem without_goOn (hi : i ≠ t) {n : Next κ ρ ε}
    (hn : ∀ ids k, n = .pause (.tasks ids) k → t ∉ ids) :
    (l.goOn i n).without t g = (l.without t g).goOn (skip t i) (n.rename (skip t)) := by
  cases n with
  | pause p k => exact without_pause hi (fun ids hp => hn ids k (hp ▸ rfl)) k
  | finish e => exact without_finish hi e

theorem without_settleEnd (h : Within (· ≠ t) (fun _ => True) l) (hi : i ≠ t) :
    (l.settleEnd i).without t g = (l.without t g).settleEnd (skip t i) := by
  have htracked : (l.tracked.filter (· != i)).map (skip t) =
      (l.tracked.map (skip t)).filter (· != skip t i) := by
    rw [List.filter_map]
    refine congrArg (List.map (skip t)) (List.filter_congr fun j hj => ?_)
    have hne := h.tracked j hj
    by_cases hji : j = i
    · simp [hji]
    · have hskip : skip t j ≠ skip t i := fun heq => hji ((skip_eq_iff hne hi).mp heq)
      exact (bne_iff_ne.mpr hji).trans (bne_iff_ne.mpr hskip).symm
  have hfailure : ((l.without t g).tasks[skip t i]?.map (failure (skip t i))).getD [] =
      ((l.tasks[i]?.map (failure i)).getD []).map (Failed.rename (skip t)) := by
    rw [getElem?_without_skip hi]
    cases l.tasks[i]? with
    | none => rfl
    | some task =>
      obtain ⟨name, isTracked, stage, watchers⟩ := task
      cases stage with
      | ended e => cases e <;> rfl
      | _ => rfl
  have hfailures : (l.failures ++ (l.tasks[i]?.map (failure i)).getD []).map
      (Failed.rename (skip t)) = (l.without t g).failures ++
        ((l.without t g).tasks[skip t i]?.map (failure (skip t i))).getD [] := by
    rw [hfailure, List.map_append]
    rfl
  exact congrArg₂ (fun tracked failures => { l.without t g with
    tracked := tracked, failures := failures }) htracked hfailures

theorem without_count (hi : i ≠ t) :
    (l.count i).without t g = (l.without t g).count (skip t i) := by
  unfold count
  rw [stage?_without hi]
  split
  · split
    · exact without_wake hi _
    · exact without_move hi _
  · rfl

theorem without_expire (hi : i ≠ t) (rank : TaskId) :
    (l.expire i rank).without t g = (l.without t g).expire (skip t i) rank := by
  unfold expire
  rw [stage?_without hi]
  split
  · split
    · exact without_wake hi _
    · rfl
  · rfl

end Operations

/-! ## 4. Turns -/

section Turns

variable {t i : TaskId} {g : σ → σ} {l : Loop σ κ ρ ε} {b : Behaviour σ κ ρ ε} {k : κ} {w : Wake}

theorem popped_without (h : l.ready.head? ≠ some (.resume t)) :
    (l.without t g).popped = l.popped.without t g := by
  have htail : ((l.ready.filter (· ≠ .resume t)).map (Callback.rename (skip t))).tail =
      (l.ready.tail.filter (· ≠ .resume t)).map (Callback.rename (skip t)) := by
    cases hready : l.ready with
    | nil => rfl
    | cons c rest =>
      have hc : c ≠ .resume t := fun hc => h (by rw [hready, hc]; rfl)
      simp [hc]
  exact congrArg (fun ready => { l.without t g with ready := ready }) htail

theorem popped_without_self (h : l.ready.head? = some (.resume t)) :
    l.popped.without t g = l.without t g := by
  obtain ⟨rest, hready⟩ := List.head?_eq_some_iff.mp h
  simp [popped, without, hready]

theorem head?_without {c : Callback} (h : l.ready.head? = some c) (hc : c ≠ .resume t) :
    (l.without t g).ready.head? = some (c.rename (skip t)) := by
  obtain ⟨rest, hready⟩ := List.head?_eq_some_iff.mp h
  simp [without, hready, hc]

/-- What another turn resumes it resumes without the task. -/
theorem resumption?_without (h : l.ready.head? ≠ some (.resume t)) :
    (l.without t g).resumption? =
      l.resumption?.map fun r => ⟨skip t r.task, r.continuation, r.wake⟩ := by
  cases hready : l.ready.head? with
  | none =>
    have hnil : l.ready = [] := List.head?_eq_none_iff.mp hready
    simp [resumption?, without, hnil]
  | some c =>
    have hc : c ≠ .resume t := fun hc => h (hc ▸ hready)
    unfold resumption?
    rw [hready, head?_without hready hc]
    cases c with
    | resume i =>
      have hi : i ≠ t := fun hi => hc (congrArg Callback.resume hi)
      dsimp only [Callback.rename]
      rw [stage?_without hi]
      split <;> rfl
    | _ => rfl

/-- A run goes the same way without a task: it does the same with the other numbers, and is not
    concerned with the task. -/
structure Carries (b : Behaviour σ κ ρ ε) (t : TaskId) (g : σ → σ) (l : Loop σ κ ρ ε) (k : κ)
    (w : Wake) : Prop where
  same : b (l.facts.rename (skip t)) k w (g l.state) = (b l.facts k w l.state).rename g (skip t)
  cancel : .cancel t ∉ (b l.facts k w l.state).orders
  watch : ∀ ids k', (b l.facts k w l.state).next = .pause (.tasks ids) k' → t ∉ ids

theorem without_runTask (ht : t < l.tasks.length) (hi : i ≠ t) (h : Carries b t g l k w) :
    (l.runTask b i k w).without t g = (l.without t g).runTask b (skip t i) k w := by
  have hsame : b (l.without t g).facts k w (l.without t g).state =
      (b l.facts k w l.state).rename g (skip t) := by
    rw [facts_without ht]
    exact h.same
  rw [runTask_eq, without_goOn hi h.watch, runTask_eq, ordered, ordered, hsame,
    without_foldl_obey (l := { l with state := (b l.facts k w l.state).state }) ht h.cancel]
  rfl

/-- **A turn of another task is one without the task.** -/
theorem without_turned (h : Apart t l) (hhead : l.ready.head? ≠ some (.resume t))
    (hb : ∀ i k w, l.resumption? = some ⟨i, k, some w⟩ → Carries b t g l k w) :
    (l.turned b).without t g = (l.without t g).turned b := by
  cases hready : l.ready.head? with
  | none =>
    have hnil : l.ready = [] := List.head?_eq_none_iff.mp hready
    have hnil' : (l.without t g).ready = [] := by simp [without, hnil]
    rw [turned_of_nil hnil, turned_of_nil hnil']
  | some c =>
    have hc : c ≠ .resume t := fun hc => hhead (hc ▸ hready)
    have hknown := h.within.ready c (List.mem_of_mem_head? hready)
    rw [turned_of_head hready, turned_of_head (head?_without hready hc), popped_without hhead]
    cases c with
    | resume i =>
      have hi : i ≠ t := fun hi => hc (congrArg Callback.resume hi)
      show (l.popped.resume b i).without t g = (l.popped.without t g).resume b (skip t i)
      unfold resume
      rw [stage?_without hi]
      split
      · rename_i k begun cancelled hs
        have hres : l.resumption? = some ⟨i, k, wakeOf begun cancelled⟩ :=
          resumption?_eq_some_iff.mpr ⟨hready, begun, cancelled, hs, rfl⟩
        have hrun : ∀ w, wakeOf begun cancelled = some w → (l.popped.runTask b i k w).without t g =
            (l.popped.without t g).runTask b (skip t i) k w := fun w hw => by
          have hcarries := hb i k w (hw ▸ hres)
          exact without_runTask (l := l.popped) h.lt hi
            ⟨hcarries.same, hcarries.cancel, hcarries.watch⟩
        cases cancelled with
        | false => exact hrun .go rfl
        | true =>
          cases begun with
          | false => exact without_finish hi _
          | true => exact hrun .cancelled rfl
      · rfl
    | settled i => exact without_settleEnd h.within.popped hknown
    | counted i => exact without_count hknown
    | expired i rank => exact without_expire hknown rank

/-- **A run of the task that asks for nothing is not noticed.** -/
theorem without_turned_own (h : Apart t l) (hhead : l.ready.head? = some (.resume t))
    (hquiet : ∀ k w, l.resumption? = some ⟨t, k, some w⟩ →
      (b l.facts k w l.state).state = l.state ∧ (b l.facts k w l.state).orders = [] ∧
      ∀ p k', (b l.facts k w l.state).next = .pause p k' → p = .signal) :
    (l.turned b).without t g = l.without t g := by
  cases hr : l.resumption? with
  | none =>
    rw [turned_of_head hhead,
      show handle b l.popped (.resume t) = l.popped from resume_popped hhead hr,
      popped_without_self hhead]
  | some r =>
    obtain rfl : r.task = t := by
      have hfront := (resumption?_eq_some_iff.mp hr).1
      exact Callback.resume.inj (Option.some.inj (hfront.symm.trans hhead))
    obtain ⟨t, k, _ | w⟩ := r
    · rw [turned_of_drop hr, without_finish_self (l := l.popped) h.bonds, popped_without_self hhead]
    · obtain ⟨hstate, horders, hpause⟩ := hquiet k w hr
      have hordered : l.popped.ordered b k w = l.popped := by
        show (b l.facts k w l.state).orders.foldl obey
          { l.popped with state := (b l.facts k w l.state).state } = l.popped
        rw [horders, hstate]
        rfl
      rw [turned_of_run hr, runTask_eq, hordered]
      show (l.popped.goOn t (b l.facts k w l.state).next).without t g = _
      cases hnext : (b l.facts k w l.state).next with
      | pause p k' =>
        obtain rfl := hpause p k' hnext
        exact without_move_self (l := l.popped) _ |>.trans (popped_without_self hhead)
      | finish e =>
        exact (without_finish_self (l := l.popped) h.bonds e).trans (popped_without_self hhead)

end Turns

/-! ## 5. The clock, and the beginning -/

section Clock

variable {t : TaskId} {g : σ → σ} {l : Loop σ κ ρ ε}

/-- A timer with its task renamed. -/
def Timer.rename (r : TaskId → TaskId) (timer : Timer) : Timer :=
  { timer with task := r timer.task }

theorem timerOf_rename (r : TaskId → TaskId) (i j : TaskId) (task : Task κ ρ ε) (hj : r i = j) :
    timerOf j (task.rename r) = (timerOf i task).map (Timer.rename r) := by
  subst hj
  obtain ⟨name, isTracked, stage, watchers⟩ := task
  cases stage with
  | waiting k v => rcases v with ⟨_ | _, _⟩ | _ | _ <;> rfl
  | _ => rfl

/-- The timers without a task that has none. -/
theorem timers_without (h : Apart t l) :
    (l.without t g).timers = l.timers.map (Timer.rename (skip t)) := by
  obtain ⟨task, htask⟩ : ∃ task, l.tasks[t]? = some task :=
    ⟨_, List.getElem?_eq_some_iff.mpr ⟨h.lt, rfl⟩⟩
  have hnone : timerOf t task = none := by
    unfold timerOf
    split
    · rename_i k due rank hs
      have hstage : l.stage? t = some (.waiting k (.timer (some due) rank)) := by
        rw [stage?, htask]
        exact congrArg some hs
      cases h.stage k _ hstage
    · rfl
  have hsplit : l.tasks.take t ++ task :: l.tasks.drop (t + 1) = l.tasks := by
    rw [← (List.getElem?_eq_some_iff.mp htask).2, ← List.drop_eq_getElem_cons h.lt,
      List.take_append_drop]
  have hlength : (l.tasks.take t).length = t := by
    rw [List.length_take, Nat.min_eq_left (Nat.le_of_lt h.lt)]
  have hold : l.timers = ((l.tasks.take t).zipIdx.filterMap fun p => timerOf p.2 p.1) ++
      ((l.tasks.drop (t + 1)).zipIdx (t + 1)).filterMap fun p => timerOf p.2 p.1 := by
    have htimers : l.timers = (l.tasks.take t ++ task :: l.tasks.drop (t + 1)).zipIdx.filterMap
        fun p => timerOf p.2 p.1 := by
      rw [hsplit]
      rfl
    rw [htimers, List.zipIdx_append, List.zipIdx_cons, List.filterMap_append, hlength, Nat.zero_add]
    exact congrArg _ (List.filterMap_cons_none hnone)
  have hnew : (l.without t g).timers =
      ((l.tasks.take t).zipIdx.filterMap fun p => timerOf p.2 (p.1.rename (skip t))) ++
      ((l.tasks.drop (t + 1)).zipIdx t).filterMap fun p => timerOf p.2 (p.1.rename (skip t)) := by
    show ((l.tasks.eraseIdx t).map (Task.rename (skip t))).zipIdx.filterMap _ = _
    rw [List.eraseIdx_eq_take_drop_succ, List.zipIdx_map, List.filterMap_map, List.zipIdx_append,
      List.filterMap_append, hlength, Nat.zero_add]
    rfl
  rw [hold, hnew, List.map_append, List.map_filterMap, List.map_filterMap]
  congr 1
  · refine List.filterMap_congr fun p hp => ?_
    have hlt : p.2 < t := by
      have := (List.mem_zipIdx hp).2.1
      omega
    exact timerOf_rename (skip t) p.2 p.2 p.1 (skip_of_lt hlt)
  · rw [List.zipIdx_succ, List.filterMap_map]
    refine List.filterMap_congr fun p hp => ?_
    have hle : t ≤ p.2 := (List.mem_zipIdx hp).1
    exact timerOf_rename (skip t) (p.2 + 1) p.2 p.1
      ((skip_of_gt (Nat.lt_succ_of_le hle)).trans (Nat.succ_sub_one p.2))

/-- **The clock moves on in the same way without a task that sleeps not.** -/
theorem without_fireAt (h : Apart t l) (time : Nat) :
    (l.fireAt time).without t g = (l.without t g).fireAt time := by
  unfold fireAt
  rw [timers_without h]
  dsimp only
  have hdue : ((l.timers.map (Timer.rename (skip t))).filter (·.due ≤ time)) =
      (l.timers.filter (·.due ≤ time)).map (Timer.rename (skip t)) := by
    rw [List.filter_map]
    rfl
  rw [hdue, ← List.map_mergeSort (f := Timer.rename (skip t)) (fun a _ b _ => rfl), without_push,
    List.filter_eq_self.mpr]
  · rw [List.map_map, List.map_map]
    rfl
  · intro c hc
    obtain ⟨timer, _, rfl⟩ := List.mem_map.mp hc
    rfl

/-- **A loop in which a task is launched is as it was without it.** -/
theorem without_launch (h : Scoped l) (k : κ) :
    (l.launch k).without l.tasks.length g = { l with state := g l.state } := by
  have hskip : ∀ ids : List TaskId, (∀ i ∈ ids, i < l.tasks.length) →
      ids.map (skip l.tasks.length) = ids := fun ids hids =>
    (List.map_congr_left fun i hi => skip_of_lt (hids i hi)).trans (List.map_id ids)
  have htasks : ((l.launch k).tasks.eraseIdx l.tasks.length).map
      (Task.rename (skip l.tasks.length)) = l.tasks := by
    show ((l.tasks ++ [_]).eraseIdx _).map _ = _
    rw [List.eraseIdx_append_of_length_le (Nat.le_refl _)]
    simp only [Nat.sub_self, List.eraseIdx_cons_zero, List.append_nil]
    refine (List.map_congr_left fun task htask => ?_).trans (List.map_id _)
    unfold Task.rename
    rw [hskip task.watchers (h.watchers task htask)]
    rfl
  have hready : ((l.launch k).ready.filter (· ≠ .resume l.tasks.length)).map
      (Callback.rename (skip l.tasks.length)) = l.ready := by
    show ((l.ready ++ [_]).filter _).map _ = _
    rw [List.filter_append, List.filter_eq_self.mpr]
    · simp only [ne_eq, not_true, decide_false, Bool.false_eq_true, not_false_eq_true,
        List.filter_cons_of_neg, List.filter_nil, List.append_nil]
      refine (List.map_congr_left fun c hc => ?_).trans (List.map_id _)
      have hknown := h.ready c hc
      cases c with
      | expired i rank => exact congrArg (Callback.expired · rank) (skip_of_lt hknown)
      | _ => exact congrArg _ (skip_of_lt hknown)
    · intro c hc
      have hknown := h.ready c hc
      cases c with
      | resume i =>
        have hne : i ≠ l.tasks.length := Nat.ne_of_lt hknown
        simp [hne]
      | _ => rfl
  have hended : (l.ended.filter (· ≠ l.tasks.length)).map (skip l.tasks.length) = l.ended := by
    rw [List.filter_eq_self.mpr fun i hi => by simpa using Nat.ne_of_lt (h.ended i hi),
      hskip l.ended h.ended]
  have hfailures : l.failures.map (Failed.rename (skip l.tasks.length)) = l.failures := by
    refine (List.map_congr_left fun f hf => ?_).trans (List.map_id _)
    exact congrArg (fun i => { f with task := i }) (skip_of_lt (h.failed f hf))
  unfold without
  rw [htasks, hready]
  show { l with state := _, tasks := _, ready := _, tracked := l.tracked.map _,
                failures := l.failures.map _, ended := _ } = _
  rw [hskip l.tracked h.tracked, hfailures]
  exact congrArg (fun ended => { l with state := g l.state, ended := ended }) hended

end Clock

end Loop

end CodeSession
