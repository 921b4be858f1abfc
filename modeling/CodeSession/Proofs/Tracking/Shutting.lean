import CodeSession.Proofs.Tracking.Books

/-!
# Closing a tracked set

A call that closes the set waits for what was tracked then. It hears of each end only after the end is
settled, so that the set is empty when the call goes on, and the order to empty it does nothing.

* `Told`, `Minds` -- a call hears last of those that are tracked: it watches whoever has not ended, and
  whatever stands in the queue to be settled is followed by a word to the call;
* `Shutting` -- a call that waits minds the set, which is closed; one that goes on finds it empty;
* `Books`, `books_step`, `books_play` -- every step keeps the books, so they hold after every run.
-/

namespace CodeSession.Tracking

open Loop

variable {σ κ ρ ε : Type} {free : Prop} {duty : κ → Duty} {l l' : Loop σ κ ρ ε} {t u w : TaskId}
  {done es : List TaskId}

/-! ## 1. Hearing last -/

/-- Whatever stands in a queue to be settled is followed by a word to a task. -/
def Told (w : TaskId) : List Callback → Prop
  | [] => True
  | c :: rest => ((∃ u, c = .settled u) → .counted w ∈ rest) ∧ Told w rest

theorem Told.tail {cs : List Callback} (h : Told w cs) : Told w cs.tail := by
  cases cs with
  | nil => exact h
  | cons c rest => exact h.2

theorem Told.mem {cs : List Callback} (h : Told w cs) (hu : .settled u ∈ cs) : .counted w ∈ cs := by
  induction cs with
  | nil => cases hu
  | cons c rest ih =>
    rcases List.mem_cons.mp hu with rfl | hu
    · exact List.mem_cons_of_mem _ (h.1 ⟨u, rfl⟩)
    · exact List.mem_cons_of_mem c (ih h.2 hu)

theorem told_of_notMem {cs : List Callback} (h : ∀ u, .settled u ∉ cs) : Told w cs := by
  induction cs with
  | nil => trivial
  | cons c rest ih =>
    refine ⟨?_, ih fun u hu => h u (List.mem_cons_of_mem c hu)⟩
    rintro ⟨u, rfl⟩
    exact absurd List.mem_cons_self (h u)

/-- What is put at the end of the queue and settles nothing changes nothing. -/
theorem Told.append {cs ds : List Callback} (h : Told w cs) (hds : ∀ u, .settled u ∉ ds) :
    Told w (cs ++ ds) := by
  induction cs with
  | nil => exact told_of_notMem hds
  | cons c rest ih => exact ⟨fun hc => List.mem_append_left ds (h.1 hc), ih h.2⟩

/-- A word to the task at the end of the queue follows everything in front of it. -/
theorem Told.append_of_mem {cs ds : List Callback} (h : Told w ds) (hmem : .counted w ∈ ds) :
    Told w (cs ++ ds) := by
  induction cs with
  | nil => exact h
  | cons c rest ih => exact ⟨fun _ => List.mem_append_right rest hmem, ih⟩

/-- A task hears last of those that are tracked. -/
structure Minds (l : Loop σ κ ρ ε) (w : TaskId) : Prop where
  watches : ∀ u ∈ l.tracked, l.ending? u = none → l.Watches w u
  told : Told w l.ready

namespace Minds

/-- An operation that leaves the entries alone and puts callbacks at the end of the queue. -/
theorem aligned (h : Minds l w) (ha : Aligned l l') (hgrows : l.ready <+: l'.ready)
    (hwatches : ∀ u, l.Watches w u → l'.Watches w u) : Minds l' w := by
  refine ⟨fun u hu hend => ?_, ?_⟩
  · rw [ha.tracked] at hu
    rw [ha.ending?] at hend
    exact hwatches u (h.watches u hu hend)
  · obtain ⟨cs, hcs⟩ := hgrows
    rw [← hcs]
    refine h.told.append fun u hu => ?_
    -- the notes of ends are no more than before
    have hnotes := ha.notes u
    rw [← hcs, List.count_append] at hnotes
    exact Nat.ne_of_gt (List.count_pos_iff.mpr hu) (by omega)

theorem popped (h : Minds l w) : Minds l.popped w :=
  ⟨h.watches, h.told.tail⟩

/-- **A task that is owed nothing finds the set empty.** -/
theorem tracked_eq_nil (h : Minds l w) (haccounts : Accounts l done) (howed : l.owed w = 0) :
    l.tracked = [] := by
  refine List.eq_nil_iff_forall_not_mem.mpr fun u hu => ?_
  cases hend : l.ending? u with
  | none => exact Nat.ne_of_gt (owed_pos_of_watches (h.watches u hu hend)) howed
  | some e =>
    have hnote := haccounts.note_of_tracked hu (by rw [hend]; rfl)
    have hpos := List.count_pos_iff.mpr (h.told.mem hnote)
    unfold owed at howed
    omega

end Minds

/-! ## 2. Calls that close the set -/

/-- What a call that closes the set can rely on: while it waits it minds the set, and when it goes on
    the set is empty. -/
def Relies (l : Loop σ κ ρ ε) (t : TaskId) : Stage κ ρ ε → Prop
  | .waiting _ _ => Minds l t
  | _ => l.tracked = []

/-- A call that closes the set can rely on it, and the set is closed. -/
def Shutting (duty : κ → Duty) (l : Loop σ κ ρ ε) : Prop :=
  ∀ (t : TaskId) (s : Stage κ ρ ε) (k : κ), l.stage? t = some s → s.continuation? = some k →
    duty k = .closing → l.closed = true ∧ Relies l t s

/-- A call that stands where it stood can rely on what it could. -/
theorem Shutting.frame (h : Shutting duty l)
    (hstage : ∀ t s k, l'.stage? t = some s → s.continuation? = some k → duty k = .closing →
      l.stage? t = some s ∨ l'.closed = true ∧ Relies l' t s)
    (hclosed : l.closed = true → l'.closed = true)
    (htracked : l.closed = true → l.tracked = [] → l'.tracked = [])
    (hminds : ∀ w, l.closed = true → Minds l w → Minds l' w) : Shutting duty l' := by
  intro t s k hs hk hduty
  rcases hstage t s k hs hk hduty with hs | hnew
  · obtain ⟨hc, hrelies⟩ := h t s k hs hk hduty
    refine ⟨hclosed hc, ?_⟩
    cases s with
    | queued k begun cancelled => exact htracked hc hrelies
    | waiting k v => exact hminds t hc hrelies
    | ended e => cases hk
  · exact hnew

/-- An act that brings a task to a stage of something else moves none of these calls there. -/
theorem stage?_of_ne {i : TaskId} {s s' : Stage κ ρ ε} {k : κ}
    (hstage : ∀ i, l'.stage? i = if i = t then (l.stage? i).map fun _ => s' else l.stage? i)
    (hk' : ∀ k, s'.continuation? = some k → duty k ≠ .closing) (hs : l'.stage? i = some s)
    (hk : s.continuation? = some k) (hduty : duty k = .closing) : l.stage? i = some s := by
  rw [hstage] at hs
  split at hs
  · obtain ⟨_, _, rfl⟩ := Option.map_eq_some_iff.mp hs
    exact absurd hduty (hk' k hk)
  · exact hs

/-! ## 3. Acts that concern such a call -/

theorem exists_continuation?_of_ending? (hu : l.Spawned u) (hend : l.ending? u = none) :
    ∃ k, l.continuation? u = some k := by
  obtain ⟨task, ht, _⟩ := spawned_iff.mp hu
  have hs : l.stage? u = some task.stage := by rw [stage?, ht]; rfl
  rw [ending?_of_stage? hs] at hend
  rw [continuation?_of_stage? hs]
  cases hstage : task.stage with
  | queued k begun cancelled => exact ⟨k, rfl⟩
  | waiting k v => exact ⟨k, rfl⟩
  | ended e => rw [hstage] at hend; cases hend

/-- Who watches a task that has ended is told at once. -/
theorem counted_mem_foldl_watch {ids : List TaskId} (hu : u ∈ ids)
    (hend : (l.ending? u).isSome = true) : .counted w ∈ (ids.foldl (watch w) l).ready := by
  induction ids generalizing l with
  | nil => cases hu
  | cons v ids ih =>
    rcases List.mem_cons.mp hu with rfl | hu
    · obtain ⟨cs, hcs, _⟩ := grows_foldl_watch w ids (l.watch w u)
      rw [List.foldl_cons, hcs]
      refine List.mem_append_left cs ?_
      obtain ⟨e, he⟩ := Option.isSome_iff_exists.mp hend
      rw [watch, ending?_eq_some_iff.mp he]
      exact List.mem_append_right _ (List.mem_singleton.mpr rfl)
    · refine ih hu ?_
      rw [(aligned_watch w l v).ending?]
      exact hend

/-- **A call that waits for all that is tracked hears last of them.** -/
theorem minds_await {ids : List TaskId} {k k₀ : κ} {begun cancelled : Bool}
    (haccounts : Accounts l done) (heven : Even l)
    (hs : l.stage? t = some (.queued k₀ begun cancelled)) (hids : ids.Perm l.tracked)
    (hne : ids ≠ []) : Minds (l.pause t (.tasks ids) k) t := by
  have hmoved := aligned_move (.waiting k (.tasks ids.length)) hs rfl rfl
  have hwatched := aligned_foldl_watch t ids (l.move t (.waiting k (.tasks ids.length)))
  rw [pause_tasks hne]
  refine ⟨fun u hu hend => ?_, ?_⟩
  · rw [hwatched.tracked, hmoved.tracked] at hu
    rw [hwatched.ending?] at hend
    obtain ⟨k', hk'⟩ := exists_continuation?_of_ending?
      ((hmoved.spawned u).mpr ((haccounts.tracked u).mp hu).1) hend
    exact watches_foldl_watch_of_mem (hids.mem_iff.mpr hu) hk'
  · obtain ⟨cs, hcs, hcounted⟩ := grows_foldl_watch t ids (l.move t (.waiting k (.tasks ids.length)))
    have hsettled : ∀ u, .settled u ∉ cs := fun u hu => by cases hcounted _ hu
    rw [hcs]
    by_cases htold : .counted t ∈ cs
    · exact (told_of_notMem hsettled).append_of_mem htold
    · refine (told_of_notMem fun u hu => htold ?_).append hsettled
      -- an end that is yet to be settled is told at once, and nothing was told before
      obtain ⟨htracked, hend⟩ := haccounts.of_note hu
      have hmem := counted_mem_foldl_watch (w := t) (hids.mem_iff.mpr htracked)
        (l := l.move t (.waiting k (.tasks ids.length))) (by rw [hmoved.ending?]; exact hend)
      rw [hcs] at hmem
      refine (List.mem_append.mp hmem).resolve_left fun hold => ?_
      have hpos : 0 < l.ready.count (.counted t) := List.count_pos_iff.mpr hold
      have hzero : l.owed t = 0 := by rw [heven t, hs]; rfl
      unfold owed at hzero
      omega

/-- The end of a task is settled before those that watched it are told. -/
theorem minds_finish {k : κ} {begun cancelled : Bool} (h : Minds l w) (haccounts : Accounts l done)
    (hs : l.stage? t = some (.queued k begun cancelled)) (e : Ending ρ ε) :
    Minds (l.finish t e) w := by
  refine ⟨fun u hu hend => ?_, ?_⟩
  · rw [(keeps_finish t e l).tracked] at hu
    rw [ending?_eq_bind, stage?_finish] at hend
    by_cases hut : u = t
    · rw [if_pos hut, hut, hs] at hend
      cases hend
    · rw [if_neg hut, ← ending?_eq_bind] at hend
      exact watches_finish e hut (h.watches u hu hend)
  · obtain ⟨task, ht, hstage⟩ := exists_task_of_stage? hs
    have hopen : l.ending? t = none := ending?_of_stage? hs
    unfold finish
    rw [ht]
    show Told w (l.ready ++ _)
    have hcounted : ∀ u, .settled u ∉ task.watchers.map Callback.counted := fun u hu => by
      obtain ⟨_, _, he⟩ := List.mem_map.mp hu
      cases he
    cases hwork : task.isTracked with
    | false => exact h.told.append hcounted
    | true =>
      have htracked : t ∈ l.tracked := by
        refine (haccounts.tracked t).mpr ⟨spawned_iff.mpr ⟨task, ht, hwork⟩, fun hmem => ?_⟩
        have hend := (haccounts.spawned_of_mem hmem).2
        rw [hopen] at hend
        cases hend
      have hwatch : w ∈ task.watchers := by
        have hw := h.watches t htracked hopen
        unfold Watches watchersOf at hw
        rw [ht] at hw
        exact hw
      have hmem : .counted w ∈ task.watchers.map Callback.counted := List.mem_map_of_mem hwatch
      have hnotes : Told w (.settled t :: task.watchers.map Callback.counted) :=
        ⟨fun _ => hmem, told_of_notMem hcounted⟩
      exact hnotes.append_of_mem (List.mem_cons_of_mem _ hmem)

theorem watches_count (v : TaskId) (h : l.Watches w u) : (l.count v).Watches w u := by
  unfold count
  split
  · split
    · exact watches_move _ h
    · exact watches_move _ h
  · exact h

/-- An end is counted for a call that closes the set: with the last one it finds the set empty. -/
theorem shutting_count (h : Shutting duty l) (haccounts : Accounts l done) (heven : Even l)
    (hhead : l.ready.head? = some (.counted w)) : Shutting duty (l.popped.count w) := by
  have hpopped := aligned_popped hhead fun i e => by cases e
  have hcount := aligned_count w l.popped
  have hkeeps : ∀ v, Minds l v → Minds (l.popped.count w) v := fun v hv =>
    hv.popped.aligned hcount (orderly_count w l.popped).grows fun u hu => watches_count w hu
  have hclosed : (l.popped.count w).closed = l.closed := (rests_count w l.popped).closed
  refine h.frame (fun i s k hs hk hduty => ?_) (fun hc => hclosed.trans hc)
    (fun _ hnil => hcount.tracked.trans hnil) fun v _ => hkeeps v
  -- the call that is told is the only one that moves
  by_cases hiw : i = w
  · subst hiw
    have hself := h i
    have hzero := even_count heven hhead i
    rw [hs] at hzero
    obtain ⟨s₀, hs₀, hstirs⟩ := (rests_count i l.popped).stage_before hs
    obtain ⟨hc, hrelies⟩ := h i s₀ k hs₀ (hstirs.continuation? ▸ hk) hduty
    cases hstirs with
    | same => exact .inl hs₀
    | woken k' v _ =>
      refine .inr ⟨hclosed.trans hc, ?_⟩
      exact (hkeeps i hrelies).tracked_eq_nil ((haccounts.aligned hpopped).aligned hcount) hzero
    | counted k' m n => exact .inr ⟨hclosed.trans hc, hkeeps i hrelies⟩
  · refine .inl ?_
    unfold count at hs
    split at hs
    · split at hs
      · rwa [stage?_push, stage?_move, if_neg hiw] at hs
      · rwa [stage?_move, if_neg hiw] at hs
    · exact hs

/-- A task is added that is no such call, and none to a closed set but a call. -/
theorem shutting_add (h : Shutting duty l) (haccounts : Accounts l done) (name : String)
    {isTracked : Bool} {k : κ} (hk : duty k ≠ .closing)
    (hopen : isTracked = true → l.closed = false) : Shutting duty (l.add name isTracked k) := by
  have hcall : l.closed = true → isTracked = false := fun hc =>
    Bool.eq_false_iff.mpr fun htrue => by rw [hopen htrue] at hc; cases hc
  refine h.frame (fun i s k' hs hk' hduty => ?_) id (fun hc hnil => ?_) fun v hc hv => ?_
  · rw [stage?_add] at hs
    split at hs
    · cases hs
      cases hk'
      exact absurd hduty hk
    · exact .inl hs
  · show (if isTracked then l.tracked ++ [l.tasks.length] else l.tracked) = []
    rw [hcall hc]
    exact hnil
  · obtain rfl := hcall hc
    refine ⟨fun u hu hend => ?_, hv.told.append fun u hu => by cases List.mem_singleton.mp hu⟩
    have hlt : u < l.tasks.length := lt_of_spawned ((haccounts.tracked u).mp hu).1
    rw [ending?_eq_entryOf?, entryOf?_add, if_neg (Nat.ne_of_lt hlt), ← ending?_eq_entryOf?] at hend
    exact (tallied_add name false k l).watches v u (hv.watches u hu hend)

/-- What has been spawned is no such call. -/
theorem not_closing_of_spawned (hposted : Posted duty l) {s : Stage κ ρ ε} {k : κ}
    (hs : l.stage? t = some s) (hk : s.continuation? = some k) (ht : l.Spawned t) :
    duty k ≠ .closing := by
  intro hduty
  have hwork := (hposted.work_iff ((continuation?_of_stage? hs).trans hk)).mpr ht
  rw [hduty] at hwork
  cases hwork

theorem shutting_cancel (h : Shutting duty l) (hposted : Posted duty l) (ht : l.Spawned t) :
    Shutting duty (l.cancel t) := by
  refine h.frame (fun i s k hs hk hduty => .inl ?_) (fun hc => (keeps_cancel t l).closed.trans hc)
    (fun _ hnil => (keeps_cancel t l).tracked.trans hnil) fun v _ hv =>
      hv.aligned (aligned_cancel t l) (orderly_cancel t l).grows ((tallied_cancel t l).watches v)
  rw [stage?_cancel] at hs
  split at hs
  · rename_i hit
    subst hit
    obtain ⟨s₀, hs₀, rfl⟩ := Option.map_eq_some_iff.mp hs
    rw [Stage.continuation?_cancel] at hk
    exact absurd hduty (not_closing_of_spawned hposted hs₀ hk ht)
  · exact hs

/-- Work that waits for a time or a signal goes on. -/
theorem shutting_wake (h : Shutting duty l) (hposted : Posted duty l) {k : κ} {v : Wait}
    (hs : l.stage? t = some (.waiting k v)) (hv : ∀ n, v ≠ .tasks n) :
    Shutting duty ((l.move t (.queued k true false)).push [.resume t]) := by
  have hspawned : l.Spawned t := by
    obtain ⟨isTracked, hpost, hspawned⟩ := hposted.post hs
    cases hpost with
    | workWaiting => exact hspawned.mp rfl
    | callWaiting => exact absurd rfl (hv _)
  refine h.frame (fun i s k' hs' hk' hduty => .inl ?_) id (fun _ hnil => hnil) fun w _ hw =>
    hw.aligned ((aligned_move _ hs rfl rfl).trans (aligned_resume t _)) (List.prefix_append _ _)
      fun u hu => watches_move _ hu
  exact stage?_of_ne (fun i => stage?_move t (.queued k true false) l i)
    (fun k' hk' => by cases hk'; exact not_closing_of_spawned hposted hs rfl hspawned) hs' hk' hduty

/-- A task pauses: one that closes the set then minds it. -/
theorem shutting_pause (h : Shutting duty l) {k₀ k : κ} {begun cancelled : Bool}
    (hs : l.stage? t = some (.queued k₀ begun cancelled)) (p : Pause)
    (hnew : duty k = .closing → l.closed = true ∧ Relies (l.pause t p k) t (l.paused p k)) :
    Shutting duty (l.pause t p k) := by
  refine h.frame (fun i s k' hs' hk' hduty => ?_) (fun hc => (keeps_pause t p k l).closed.trans hc)
    (fun _ hnil => (keeps_pause t p k l).tracked.trans hnil) fun v _ hv => ?_
  · rw [stage?_pause] at hs'
    split at hs'
    · rename_i hit
      subst hit
      rw [hs] at hs'
      cases hs'
      rw [continuation?_paused] at hk'
      cases hk'
      obtain ⟨hc, hrelies⟩ := hnew hduty
      exact .inr ⟨(keeps_pause i p k l).closed.trans hc, hrelies⟩
    · exact .inl hs'
  · obtain ⟨cs, hcs, _⟩ := grows_pause t p k l
    exact hv.aligned (aligned_pause hs p k) ⟨cs, hcs.symm⟩ fun u hu => watches_pause p k hu

/-- **Every act leaves the calls that close the set what they rely on.** -/
theorem shutting_act (h : Shutting duty l) (hposted : Posted duty l) (haccounts : Accounts l done)
    (heven : Even l) (hact : Act free duty l es l') : Shutting duty l' := by
  have hspawned : ∀ u ∈ l.tracked, l.Spawned u := fun u hu => ((haccounts.tracked u).mp hu).1
  cases hact with
  | aside htasks hready htracked hfailures hclosed =>
    have hsame : Aligned l l' := ⟨htracked, hfailures, fun i => by rw [entryOf?, htasks, entryOf?],
      fun i => by rw [hready]⟩
    refine h.frame (fun i s k hs _ _ => .inl ?_) hclosed (fun _ hnil => htracked.trans hnil)
      fun v _ hv => hv.aligned hsame (hready ▸ List.prefix_rfl) fun u hu => ?_
    · rwa [stage?, htasks] at hs
    · rwa [Watches, watchersOf, htasks]
  | spawn name k _ hopen hk =>
    exact shutting_add h haccounts name (by rw [hk]; exact fun e => by cases e) fun _ => hopen
  | call name k hk =>
    refine shutting_add h haccounts name (fun hduty => ?_) fun e => by cases e
    rw [hduty] at hk
    rcases hk with hk | hk <;> cases hk
  | cancel t ht => exact shutting_cancel h hposted (hspawned t ht)
  | wake hs hw => exact shutting_wake h hposted hs hw
  | expired cs hcs =>
    have hsettled : ∀ u, .settled u ∉ cs := fun u hu => by
      obtain ⟨_, _, he⟩ := hcs _ hu
      cases he
    exact h.frame (fun i s k hs _ _ => .inl hs) id (fun _ hnil => hnil) fun v _ hv =>
      ⟨hv.watches, hv.told.append hsettled⟩
  | pop => exact h.frame (fun i s k hs _ _ => .inl hs) id (fun _ hnil => hnil) fun v _ hv => hv.popped
  | settle t hhead =>
    refine h.frame (fun i s k hs _ _ => .inl hs) id (fun _ hnil => ?_) fun v _ hv =>
      ⟨fun u hu hend => hv.watches u (List.mem_of_mem_filter hu) hend, hv.told.tail⟩
    show l.tracked.filter _ = []
    rw [hnil]
    rfl
  | count w hhead => exact shutting_count h haccounts heven hhead
  | rest hs _ _ p k hk =>
    exact shutting_pause h hs p fun hduty => by rw [hk] at hduty; cases hduty
  | await hs ids k hids hne hk =>
    refine shutting_pause h hs (.tasks ids) fun hduty => ⟨?_, ?_⟩
    · rcases hk with ⟨_, hidle⟩ | ⟨_, _, hc⟩
      · rw [hidle] at hduty
        cases hduty
      · exact hc
    · rw [paused_tasks hne]
      exact minds_await haccounts heven hs hids hne
  | @finish t k begun cancelled hs e =>
    refine h.frame (fun i s k' hs' hk' hduty => .inl ?_)
      (fun hc => (keeps_finish t e l).closed.trans hc)
      (fun _ hnil => (keeps_finish t e l).tracked.trans hnil) fun v _ hv =>
        minds_finish hv haccounts hs e
    exact stage?_of_ne (fun i => stage?_finish t e l i) (fun k' hk' => by cases hk') hs' hk' hduty

/-! ## 4. Every step keeps the books -/

/-- The books of a loop with a tracked set, after the ends of some tasks have been settled. -/
structure Books (duty : κ → Duty) (l : Loop σ κ ρ ε) (done : List TaskId) : Prop where
  posted : Posted duty l
  accounts : Accounts l done
  even : Even l
  shutting : Shutting duty l

namespace Books

theorem act (h : Books duty l done) (hact : Act free duty l es l') : Books duty l' (done ++ es) where
  posted := posted_act h.posted (fun u hu => ((h.accounts.tracked u).mp hu).1) hact
  accounts := accounts_act h.accounts hact
  even := even_act h.even h.posted h.accounts hact
  shutting := shutting_act h.shutting h.posted h.accounts h.even hact

/-- What every act preserves while the books are in order, a sequence preserves. -/
theorem invariant {P : Loop σ κ ρ ε → Prop} (h : Books duty l done)
    (hacts : Acts free duty l es l')
    (hact : ∀ {z z' : Loop σ κ ρ ε} {done es : List TaskId}, Books duty z done → P z →
      Act free duty z es z' → P z') (hl : P l) : P l' :=
  (hacts.preserves (P := fun z done => Books duty z done ∧ P z)
    (fun _ _ _ _ hz h' => ⟨hz.1.act h', hact hz.1 hz.2 h'⟩) ⟨h, hl⟩).2

theorem fit (h : Books duty l done) : Fit duty l := by
  intro t k begun cancelled hs hk
  obtain ⟨isTracked, hpost, _⟩ := h.posted.post hs
  refine ⟨?_, fun hduty => (h.shutting t _ k hs rfl hduty).2⟩
  cases hpost with
  | workQueued hwork => exact absurd hwork hk
  | callQueued => rfl

end Books

theorem books_start (x : σ) : Books duty (Loop.start x : Loop σ κ ρ ε) [] where
  posted i task hi := by cases hi
  accounts :=
    ⟨fun i => by simp [Loop.start, Spawned, entryOf?], List.nodup_nil,
      fun i => by simp [Loop.start, Spawned, entryOf?], rfl⟩
  even _ := rfl
  shutting i s k hs := by cases hs

section Steps

variable {b : Behaviour σ κ ρ ε}

/-- **Every step keeps the books.** -/
theorem books_step (hb : Staffed b duty) (h : Books duty l done) (m : Move σ κ) :
    Books duty (step b duty l m) (done ++ (settled? l m).toList) :=
  (acts_step hb h.fit m).preserves (fun _ _ _ _ hbooks hact => hbooks.act hact) h

/-- **The books hold after every run.** -/
theorem books_play (hb : Staffed b duty) (x : σ) (ms : List (Move σ κ)) :
    Books duty (play b duty (Loop.start x) ms) (log b duty settled? (Loop.start x) ms) :=
  play_log_induction (books_start x) (fun _ _ m h => books_step hb h m) ms

end Steps

end CodeSession.Tracking
