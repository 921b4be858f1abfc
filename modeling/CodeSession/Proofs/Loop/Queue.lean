import CodeSession.Proofs.Loop.Turns
import Mathlib.Logic.Function.Iterate

/-!
# The queue of a loop

The queue agrees with the tasks, and it is served from its front.

* `Lined` -- each queued task has its next run in the queue, and a task whose end is yet to be
  settled has ended;
* `Orderly` -- the operations that put the tasks they queue at the end of the queue; `Lined` holds
  after each of them (`Lined.orderly`) and after each turn (`Lined.turned`);
* `exists_resumption` -- a queued task that the other turns leave alone is resumed as it stands.
-/

namespace CodeSession.Loop

variable {σ κ ρ ε : Type} {l l' l'' : Loop σ κ ρ ε} {t : TaskId}

/-! ## 1. Operations that queue tasks -/

/-- The queue agrees with the tasks. -/
structure Lined (l : Loop σ κ ρ ε) : Prop where
  queued : ∀ t k begun cancelled, l.stage? t = some (.queued k begun cancelled) →
    .resume t ∈ l.ready
  settled : ∀ t, .settled t ∈ l.ready → ∃ e, l.stage? t = some (.ended e)

/-- The queue grows at its end, by the runs of the tasks that are newly queued among others, and an
    ended task stays ended. -/
structure Orderly (l l' : Loop σ κ ρ ε) : Prop where
  grows : l.ready <+: l'.ready
  queued : ∀ t k begun cancelled, l'.stage? t = some (.queued k begun cancelled) →
    (∃ k begun cancelled, l.stage? t = some (.queued k begun cancelled)) ∨ .resume t ∈ l'.ready
  settled : ∀ t, .settled t ∈ l'.ready → .settled t ∈ l.ready
  ended : ∀ t e, l.stage? t = some (.ended e) → l'.stage? t = some (.ended e)

theorem Orderly.of_tasks_eq (htasks : l'.tasks = l.tasks) (hready : l'.ready = l.ready) :
    Orderly l l' := by
  have hstage : ∀ t, l'.stage? t = l.stage? t := fun t => by rw [stage?, stage?, htasks]
  refine ⟨hready ▸ List.prefix_rfl, fun t k b c h => ?_, fun t h => hready ▸ h, fun t e h => ?_⟩
  · rw [hstage] at h
    exact .inl ⟨k, b, c, h⟩
  · rw [hstage]
    exact h

theorem Orderly.refl (l : Loop σ κ ρ ε) : Orderly l l := .of_tasks_eq rfl rfl

theorem Orderly.trans (h : Orderly l l') (h' : Orderly l' l'') : Orderly l l'' where
  grows := h.grows.trans h'.grows
  queued t k b c hs := by
    rcases h'.queued t k b c hs with ⟨k', b', c', hs'⟩ | hmem
    · rcases h.queued t k' b' c' hs' with hold | hmem
      · exact .inl hold
      · exact .inr (h'.grows.subset hmem)
    · exact .inr hmem
  settled t hmem := h.settled t (h'.settled t hmem)
  ended t e hs := h'.ended t e (h.ended t e hs)

/-- **Orderly operations keep the queue in line.** -/
theorem Lined.orderly (hl : Lined l) (h : Orderly l l') : Lined l' where
  queued t k b c hs := by
    rcases h.queued t k b c hs with ⟨k', b', c', hs'⟩ | hmem
    · exact h.grows.subset (hl.queued t k' b' c' hs')
    · exact hmem
  settled t hmem := by
    obtain ⟨e, he⟩ := hl.settled t (h.settled t hmem)
    exact ⟨e, h.ended t e he⟩

/-- A waiting task is queued. -/
theorem orderly_wake {k k' : κ} {v : Wait} (begun cancelled : Bool)
    (h : l.stage? t = some (.waiting k v)) :
    Orderly l ((l.move t (.queued k' begun cancelled)).push [.resume t]) := by
  refine ⟨List.prefix_append _ _, fun i k b c hs => ?_, fun i hmem => ?_, fun i e hs => ?_⟩
  · by_cases hi : i = t
    · exact .inr (by simp [push, hi])
    · rw [stage?_push, stage?_move, if_neg hi] at hs
      exact .inl ⟨k, b, c, hs⟩
  · simpa [push, move, modify] using hmem
  · have hi : i ≠ t := by
      rintro rfl
      rw [h] at hs
      cases hs
    rw [stage?_push, stage?_move, if_neg hi]
    exact hs

/-- Callbacks that settle no end are put into the queue. -/
theorem orderly_push {cs : List Callback} (l : Loop σ κ ρ ε) (h : ∀ t, .settled t ∉ cs) :
    Orderly l (l.push cs) := by
  refine ⟨List.prefix_append _ _, fun t k b c hs => .inl ⟨k, b, c, hs⟩, fun t hmem => ?_,
    fun t e hs => hs⟩
  exact (List.mem_append.mp hmem).resolve_right (h t)

theorem orderly_add (name : String) (isTracked : Bool) (k : κ) (l : Loop σ κ ρ ε) :
    Orderly l (l.add name isTracked k) := by
  refine ⟨List.prefix_append _ _, fun t k b c hs => ?_, fun t hmem => ?_, fun t e hs => ?_⟩
  · by_cases ht : t = l.tasks.length
    · exact .inr (by simp [add, ht])
    · rw [stage?_add, if_neg ht] at hs
      exact .inl ⟨k, b, c, hs⟩
  · simpa [add] using hmem
  · rw [stage?_add, if_neg (Nat.ne_of_lt (lt_of_stage? hs))]
    exact hs

theorem orderly_cancel (t : TaskId) (l : Loop σ κ ρ ε) : Orderly l (l.cancel t) := by
  unfold cancel
  split
  · rename_i k begun cancelled h
    refine ⟨List.prefix_rfl, fun i k' b c hs => ?_, fun i hmem => hmem, fun i e hs => ?_⟩
    · by_cases hi : i = t
      · exact .inl ⟨k, begun, cancelled, hi ▸ h⟩
      · rw [stage?_move, if_neg hi] at hs
        exact .inl ⟨k', b, c, hs⟩
    · have hi : i ≠ t := by
        rintro rfl
        rw [h] at hs
        cases hs
      rw [stage?_move, if_neg hi]
      exact hs
  · rename_i h
    exact orderly_wake true true h
  · exact .refl l

theorem orderly_signal (t : TaskId) (f : κ → κ) (l : Loop σ κ ρ ε) : Orderly l (l.signal t f) := by
  unfold signal
  split
  · rename_i h
    exact orderly_wake true false h
  · exact .refl l

theorem orderly_obey (l : Loop σ κ ρ ε) (o : Order κ) : Orderly l (l.obey o) := by
  cases o with
  | spawn name k =>
    unfold obey
    dsimp only
    split
    · exact .refl l
    · exact orderly_add name true k l
  | cancel t => exact orderly_cancel t l
  | _ => exact .of_tasks_eq rfl rfl

theorem orderly_foldl_obey (orders : List (Order κ)) (l : Loop σ κ ρ ε) :
    Orderly l (orders.foldl obey l) := by
  induction orders generalizing l with
  | nil => exact .refl l
  | cons o orders ih => exact (orderly_obey l o).trans (ih _)

theorem orderly_foldl_obey_state (x : σ) (orders : List (Order κ)) (l : Loop σ κ ρ ε) :
    Orderly l (orders.foldl obey { l with state := x }) :=
  have h : Orderly l { l with state := x } := .of_tasks_eq rfl rfl
  h.trans (orderly_foldl_obey orders _)

theorem orderly_perform (f : Facts → σ → σ × List (Order κ)) (l : Loop σ κ ρ ε) :
    Orderly l (l.perform f) :=
  orderly_foldl_obey_state _ _ l

theorem orderly_fireAt (time : Nat) (l : Loop σ κ ρ ε) : Orderly l (l.fireAt time) := by
  have htime : Orderly l { l with now := time } := .of_tasks_eq rfl rfl
  refine htime.trans (orderly_push _ fun t h => ?_)
  obtain ⟨_, _, e⟩ := List.mem_map.mp h
  cases e

theorem orderly_count (w : TaskId) (l : Loop σ κ ρ ε) : Orderly l (l.count w) := by
  unfold count
  split
  · rename_i k left h
    split
    · exact orderly_wake true false h
    · refine ⟨List.prefix_rfl, fun i k' b c hs => ?_, fun i hmem => hmem, fun i e hs => ?_⟩
      · by_cases hi : i = w
        · simp [hi, h] at hs
        · rw [stage?_move, if_neg hi] at hs
          exact .inl ⟨k', b, c, hs⟩
      · have hi : i ≠ w := by
          rintro rfl
          rw [h] at hs
          cases hs
        rw [stage?_move, if_neg hi]
        exact hs
  · exact .refl l

theorem orderly_expire (t rank : TaskId) (l : Loop σ κ ρ ε) : Orderly l (l.expire t rank) := by
  unfold expire
  split
  · rename_i h
    split
    · exact orderly_wake true false h
    · exact .refl l
  · exact .refl l

/-! ## 2. Pauses and ends -/

theorem grows_watch (w : TaskId) (l : Loop σ κ ρ ε) (t : TaskId) :
    ∃ cs, (l.watch w t).ready = l.ready ++ cs ∧ ∀ c ∈ cs, c = .counted w := by
  unfold watch
  split
  · exact ⟨[.counted w], rfl, by simp⟩
  · exact ⟨[], (List.append_nil _).symm, by simp⟩

theorem grows_foldl_watch (w : TaskId) (ids : List TaskId) (l : Loop σ κ ρ ε) :
    ∃ cs, (ids.foldl (watch w) l).ready = l.ready ++ cs ∧ ∀ c ∈ cs, c = .counted w := by
  induction ids generalizing l with
  | nil => exact ⟨[], (List.append_nil _).symm, by simp⟩
  | cons t ids ih =>
    obtain ⟨cs, hcs, hw⟩ := grows_watch w l t
    obtain ⟨ds, hds, hw'⟩ := ih (l.watch w t)
    refine ⟨cs ++ ds, by rw [List.foldl_cons, hds, hcs, List.append_assoc], fun c hc => ?_⟩
    exact (List.mem_append.mp hc).elim (hw c) (hw' c)

/-- What a pause puts into the queue: the next run of the task, or ends that are counted for it. -/
theorem grows_pause (t : TaskId) (p : Pause) (k : κ) (l : Loop σ κ ρ ε) :
    ∃ cs, (l.pause t p k).ready = l.ready ++ cs ∧
      ∀ c ∈ cs, c = .resume t ∨ c = .counted t := by
  unfold pause
  split
  · exact ⟨[.resume t], rfl, by simp⟩
  · exact ⟨[.resume t], rfl, by simp⟩
  · exact ⟨[], (List.append_nil _).symm, by simp⟩
  · exact ⟨[], (List.append_nil _).symm, by simp⟩
  · exact ⟨[], (List.append_nil _).symm, by simp⟩
  · rename_i ids _
    obtain ⟨cs, hcs, hw⟩ := grows_foldl_watch t ids (l.move t (.waiting k (.tasks ids.length)))
    exact ⟨cs, hcs, fun c hc => .inr (hw c hc)⟩

/-- What an end puts into the queue: that it is settled, and counted for the watchers. -/
theorem grows_finish (t : TaskId) (e : Ending ρ ε) (l : Loop σ κ ρ ε) :
    ∃ cs, (l.finish t e).ready = l.ready ++ cs ∧
      ∀ c ∈ cs, c = .settled t ∨ ∃ w, c = .counted w := by
  unfold finish
  split
  · exact ⟨[], (List.append_nil _).symm, by simp⟩
  · rename_i task _
    refine ⟨_, rfl, fun c hc => ?_⟩
    rcases List.mem_append.mp hc with hc | hc
    · exact .inl (by split at hc <;> simp_all)
    · obtain ⟨w, _, rfl⟩ := List.mem_map.mp hc
      exact .inr ⟨w, rfl⟩

theorem grows_goOn (t : TaskId) (n : Next κ ρ ε) (l : Loop σ κ ρ ε) :
    l.ready <+: (l.goOn t n).ready := by
  cases n with
  | pause p k =>
    obtain ⟨cs, hcs, _⟩ := grows_pause t p k l
    exact ⟨cs, hcs.symm⟩
  | finish e =>
    obtain ⟨cs, hcs, _⟩ := grows_finish t e l
    exact ⟨cs, hcs.symm⟩

/-- Only an end puts a settlement into the queue, that of the task. -/
theorem settled_goOn {n : Next κ ρ ε} {i : TaskId} (h : .settled i ∈ (l.goOn t n).ready) :
    .settled i ∈ l.ready ∨ i = t ∧ ∃ e, n = .finish e := by
  cases n with
  | pause p k =>
    obtain ⟨cs, hcs, hc⟩ := grows_pause t p k l
    rw [goOn, hcs, List.mem_append] at h
    rcases h with h | h
    · exact .inl h
    · rcases hc _ h with e | e <;> cases e
  | finish e =>
    obtain ⟨cs, hcs, hc⟩ := grows_finish t e l
    rw [goOn, hcs, List.mem_append] at h
    rcases h with h | h
    · exact .inl h
    · rcases hc _ h with e' | ⟨w, e'⟩
      · cases e'
        exact .inr ⟨rfl, e, rfl⟩
      · cases e'

/-- A task that is queued after a run has its next run in the queue. -/
theorem resume_mem_goOn {n : Next κ ρ ε} {k : κ} {begun cancelled : Bool}
    (h : (l.goOn t n).stage? t = some (.queued k begun cancelled)) :
    .resume t ∈ (l.goOn t n).ready := by
  rw [stage?_goOn, if_pos rfl, Option.map_eq_some_iff] at h
  obtain ⟨_, _, h⟩ := h
  cases n with
  | finish e => cases h
  | pause p k' =>
    show Callback.resume t ∈ (l.pause t p k').ready
    have h' : l.paused p k' = .queued k begun cancelled := h
    unfold paused at h'
    unfold pause
    split at h' <;> first | exact List.mem_append_right _ (List.mem_singleton.mpr rfl) | cases h'

/-! ## 3. Turns -/

theorem mem_popped {c d : Callback} (hhead : l.ready.head? = some c) (hd : d ∈ l.ready)
    (hne : d ≠ c) : d ∈ l.popped.ready := by
  obtain ⟨rest, hr⟩ := List.head?_eq_some_iff.mp hhead
  rw [hr] at hd
  have hmem : d ∈ rest := (List.mem_cons.mp hd).resolve_left hne
  simpa [popped, hr] using hmem

theorem ready_of_mem_popped {d : Callback} (hd : d ∈ l.popped.ready) : d ∈ l.ready :=
  List.mem_of_mem_tail hd

/-- A queue whose first callback resumes no queued task stays in line without it. -/
theorem Lined.popped {c : Callback} (hl : Lined l) (hhead : l.ready.head? = some c)
    (hc : ∀ t k begun cancelled, l.stage? t = some (.queued k begun cancelled) → c ≠ .resume t) :
    Lined l.popped where
  queued t k b x hs := mem_popped hhead (hl.queued t k b x hs) (hc t k b x hs).symm
  settled t hmem := hl.settled t (ready_of_mem_popped hmem)

/-- The queue is in line after the task in front went on. -/
theorem Lined.goOn {k : κ} {begun cancelled : Bool} (hl : Lined l)
    (hhead : l.ready.head? = some (.resume t))
    (hs : l.stage? t = some (.queued k begun cancelled)) (h : Orderly l.popped l')
    (hlt : t < l'.tasks.length) (n : Next κ ρ ε) : Lined (l'.goOn t n) where
  queued i k' b c hi := by
    by_cases hit : i = t
    · subst hit
      exact resume_mem_goOn hi
    · rw [stage?_goOn, if_neg hit] at hi
      refine (grows_goOn t n l').subset ?_
      rcases h.queued i k' b c hi with ⟨k'', b', c', hi'⟩ | hmem
      · have hne : Callback.resume i ≠ .resume t := fun e => hit (Callback.resume.inj e)
        exact h.grows.subset (mem_popped hhead (hl.queued i k'' b' c' hi') hne)
      · exact hmem
  settled i hmem := by
    rcases settled_goOn hmem with hold | ⟨rfl, e, rfl⟩
    · obtain ⟨e, he⟩ := hl.settled i (ready_of_mem_popped (h.settled i hold))
      have hit : i ≠ t := by
        rintro rfl
        rw [hs] at he
        cases he
      refine ⟨e, ?_⟩
      rw [stage?_goOn, if_neg hit]
      exact h.ended i e he
    · refine ⟨e, ?_⟩
      rw [stage?_goOn, if_pos rfl]
      cases hi : l'.stage? i with
      | none => exact absurd (stage?_eq_none_iff.mp hi) (Nat.not_le.mpr hlt)
      | some s => rfl

/-- **Every turn keeps the queue in line.** -/
theorem Lined.turned (hl : Lined l) (b : Behaviour σ κ ρ ε) : Lined (l.turned b) := by
  cases hhead : l.ready.head? with
  | none =>
    have hr : l.ready = [] := List.head?_eq_none_iff.mp hhead
    have he : l.turned b = l := by simp [Loop.turned, turn, hr]
    rw [he]
    exact hl
  | some c =>
    cases hres : l.resumption? with
    | some r =>
      obtain ⟨t, k, w⟩ := r
      obtain ⟨hhead', begun, cancelled, hs, hw⟩ := resumption?_eq_some_iff.mp hres
      rw [turned_of_resumption? hres]
      have hlt : t < l.popped.tasks.length := lt_of_stage? hs
      cases w with
      | none => exact hl.goOn hhead' hs (.refl _) hlt (.finish .cancelled)
      | some w =>
        have hord : Orderly l.popped (l.popped.ordered b k w) :=
          orderly_foldl_obey_state _ _ l.popped
        have hle := length_le_foldl_obey (b l.popped.facts k w l.popped.state).orders
          { l.popped with state := (b l.popped.facts k w l.popped.state).state }
        exact hl.goOn hhead' hs hord (Nat.lt_of_lt_of_le hlt hle) _
    | none =>
      rw [turned_of_head hhead]
      have hpop : Lined l.popped := hl.popped hhead fun t k b x hs e => by
        subst e
        simp [resumption?, hhead, hs] at hres
      cases c with
      | resume t =>
        rw [show handle b l.popped (.resume t) = l.popped from resume_popped hhead hres]
        exact hpop
      | settled t => exact hpop.orderly (.of_tasks_eq rfl rfl)
      | counted w => exact hpop.orderly (orderly_count w _)
      | expired t rank => exact hpop.orderly (orderly_expire t rank _)

/-- A turn takes the first callback from the queue and puts others at its end. -/
theorem tail_prefix_turned (b : Behaviour σ κ ρ ε) (l : Loop σ κ ρ ε) :
    l.ready.tail <+: (l.turned b).ready := by
  cases hhead : l.ready.head? with
  | none =>
    have hr : l.ready = [] := List.head?_eq_none_iff.mp hhead
    rw [hr]
    exact List.nil_prefix
  | some c =>
    have hrun : ∀ t k w, l.popped.ready <+: (l.popped.runTask b t k w).ready := fun t k w =>
      (orderly_foldl_obey _ { l.popped with
        state := (b l.popped.facts k w l.popped.state).state }).grows.trans (grows_goOn t _ _)
    rw [turned_of_head hhead]
    cases c with
    | resume t =>
      show l.popped.ready <+: (l.popped.resume b t).ready
      unfold resume
      split
      · split
        · split
          · exact hrun _ _ _
          · exact grows_goOn t (.finish .cancelled) l.popped
        · exact hrun _ _ _
      · exact List.prefix_rfl
    | settled t => exact List.prefix_rfl
    | counted w => exact (orderly_count w l.popped).grows
    | expired t rank => exact (orderly_expire t rank l.popped).grows

/-! ## 4. Every queued task gets its turn -/

/-- **A queued task that no other turn touches is resumed as it stands.** What holds of the loop
    and of every loop after it says that other turns leave the task alone. -/
theorem exists_resumption {b : Behaviour σ κ ρ ε} {P : Loop σ κ ρ ε → Prop} {k : κ}
    {begun cancelled : Bool} (hP : ∀ l, P l → P (l.turned b))
    (hstill : ∀ l, P l → l.stage? t = some (.queued k begun cancelled) →
      (∀ r, l.resumption? = some r → r.task ≠ t) → (l.turned b).stage? t = l.stage? t)
    (hl : P l) (hs : l.stage? t = some (.queued k begun cancelled)) (hmem : .resume t ∈ l.ready) :
    ∃ n, ((turned b)^[n] l).resumption? = some ⟨t, k, wakeOf begun cancelled⟩ := by
  obtain ⟨front, back, hready⟩ := List.append_of_mem hmem
  clear hmem
  -- the callbacks in front of the task are handled one by one
  induction front generalizing l back with
  | nil => exact ⟨0, resumption?_eq_some_iff.mpr ⟨by simp [hready], begun, cancelled, hs, rfl⟩⟩
  | cons c front ih =>
    by_cases hc : c = .resume t
    · exact ⟨0, resumption?_eq_some_iff.mpr ⟨by simp [hready, hc], begun, cancelled, hs, rfl⟩⟩
    · have hother : ∀ r, l.resumption? = some r → r.task ≠ t := by
        rintro r hr rfl
        obtain ⟨hhead, _⟩ := resumption?_eq_some_iff.mp hr
        rw [hready] at hhead
        exact hc (Option.some.inj hhead)
      obtain ⟨cs, hcs⟩ := tail_prefix_turned b l
      have hnext : (l.turned b).ready = front ++ .resume t :: (back ++ cs) := by
        rw [← hcs, hready]
        simp
      obtain ⟨n, hn⟩ := ih (hP l hl) ((hstill l hl hs hother).trans hs) _ hnext
      exact ⟨n + 1, hn⟩

end CodeSession.Loop
