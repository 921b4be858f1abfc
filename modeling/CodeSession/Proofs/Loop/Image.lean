import CodeSession.Proofs.Loop.Turns

/-!
# Images of a loop

A loop seen through a map of its state and a map of its continuations. How its tasks have ended is
left out, so loops whose tasks return different things may have the same image.

* `Loop.image` -- the image of a loop; `Burst.image` that of a run;
* `image_add`, `image_cancel`, `image_goOn`, … -- the operations of a loop carry over to its image;
* `image_turned` -- loops with one image, whose behaviours agree on what is resumed, have one image
  after a turn.
-/

namespace CodeSession

variable {σ σ' σ'' κ κ' κ'' ρ ρ' ε ε' : Type}

/-! ## 1. Images -/

/-- The image of a stage. -/
def Stage.image (g : κ → κ') : Stage κ ρ ε → Stage κ' Unit Unit
  | .queued k begun cancelled => .queued (g k) begun cancelled
  | .waiting k w => .waiting (g k) w
  | .ended _ => .ended (.returned ())

/-- The image of a task. -/
def Task.image (g : κ → κ') (t : Task κ ρ ε) : Task κ' Unit Unit :=
  ⟨t.name, t.isTracked, t.stage.image g, t.watchers⟩

/-- The image of an order. -/
def Order.image (g : κ → κ') : Order κ → Order κ'
  | .spawn name k => .spawn name (g k)
  | .cancel t => .cancel t
  | .seal => .seal
  | .forget => .forget

/-- The image of what a run goes on to. -/
def Next.image (g : κ → κ') : Next κ ρ ε → Next κ' Unit Unit
  | .pause p k => .pause p (g k)
  | .finish _ => .finish (.returned ())

/-- The image of a run. -/
def Burst.image (f : σ → σ') (g : κ → κ') (b : Burst σ κ ρ ε) : Burst σ' κ' Unit Unit :=
  ⟨f b.state, b.orders.map (Order.image g), b.next.image g⟩

namespace Loop

/-- The image of a loop. -/
def image (f : σ → σ') (g : κ → κ') (l : Loop σ κ ρ ε) : Loop σ' κ' Unit Unit :=
  { state := f l.state
    tasks := l.tasks.map (Task.image g)
    ready := l.ready
    tracked := l.tracked
    closed := l.closed
    now := l.now
    armed := l.armed
    failures := []
    ended := l.ended }

/-! ## 2. Operations -/

section Operations

variable (f : σ → σ') (g : κ → κ') (l : Loop σ κ ρ ε)

@[simp] theorem facts_image : (l.image f g).facts = l.facts := by
  simp [facts, image]

@[simp] theorem stage?_image (t : TaskId) :
    (l.image f g).stage? t = (l.stage? t).map (Stage.image g) := by
  simp only [stage?, image, List.getElem?_map, Option.map_map]
  rfl

theorem continuation?_image (t : TaskId) :
    (l.image f g).continuation? t = (l.continuation? t).map g := by
  rw [continuation?, stage?_image, continuation?]
  cases l.stage? t with
  | none => rfl
  | some s => cases s <;> rfl

theorem shown?_image {α : Type} (show? : κ' → Option α) (t : TaskId) :
    (l.image f g).shown? show? t = l.shown? (fun k => show? (g k)) t := by
  rw [shown?, continuation?_image, shown?]
  cases l.continuation? t <;> rfl

@[simp] theorem image_push (cs : List Callback) :
    (l.push cs).image f g = (l.image f g).push cs := rfl

theorem map_modify {α β : Type} {F : α → β} {h : α → α} {h' : β → β}
    (hc : ∀ a, F (h a) = h' (F a)) (i : Nat) (as : List α) :
    (as.modify i h).map F = (as.map F).modify i h' := by
  refine List.ext_getElem? fun j => ?_
  simp only [List.getElem?_map, List.getElem?_modify]
  cases as[j]? with
  | none => rfl
  | some a => by_cases hij : i = j <;> simp [hij, hc]

theorem image_modify {h : Task κ ρ ε → Task κ ρ ε} {h' : Task κ' Unit Unit → Task κ' Unit Unit}
    (hc : ∀ task, (h task).image g = h' (task.image g)) (t : TaskId) :
    (l.modify t h).image f g = (l.image f g).modify t h' := by
  simp only [image, modify, map_modify hc]

@[simp] theorem image_move (t : TaskId) (s : Stage κ ρ ε) :
    (l.move t s).image f g = (l.image f g).move t (s.image g) :=
  image_modify f g l (fun _ => rfl) t

@[simp] theorem image_add (name : String) (isTracked : Bool) (k : κ) :
    (l.add name isTracked k).image f g = (l.image f g).add name isTracked (g k) := by
  simp [image, add, Task.image, Stage.image]

@[simp] theorem image_cancel (t : TaskId) : (l.cancel t).image f g = (l.image f g).cancel t := by
  unfold cancel
  rw [stage?_image]
  cases l.stage? t with
  | none => rfl
  | some s => cases s <;> simp [Stage.image]

theorem image_obey (o : Order κ) : (l.obey o).image f g = (l.image f g).obey (o.image g) := by
  cases o with
  | spawn name k =>
    show (if l.closed then l else l.add name true k).image f g =
      if l.closed then l.image f g else (l.image f g).add name true (g k)
    split
    · rfl
    · exact image_add f g l name true k
  | cancel t => exact image_cancel f g l t
  | _ => rfl

theorem image_foldl_obey (orders : List (Order κ)) : (orders.foldl obey l).image f g =
    (orders.map (Order.image g)).foldl obey (l.image f g) := by
  induction orders generalizing l with
  | nil => rfl
  | cons o orders ih => rw [List.foldl_cons, ih, image_obey, List.map_cons, List.foldl_cons]

theorem image_watch (w t : TaskId) : (l.watch w t).image f g = (l.image f g).watch w t := by
  unfold watch
  rw [stage?_image]
  cases l.stage? t with
  | none => exact image_modify f g l (fun _ => rfl) t
  | some s => cases s <;> first | rfl | exact image_modify f g l (fun _ => rfl) t

theorem image_foldl_watch (w : TaskId) (ids : List TaskId) :
    (ids.foldl (watch w) l).image f g = ids.foldl (watch w) (l.image f g) := by
  induction ids generalizing l with
  | nil => rfl
  | cons t ids ih => rw [List.foldl_cons, ih, image_watch, List.foldl_cons]

theorem image_pause (t : TaskId) (p : Pause) (k : κ) :
    (l.pause t p k).image f g = (l.image f g).pause t p (g k) := by
  match p with
  | .sleep none => exact image_move f g l t _
  | .sleep (some 0) => exact congrArg (push [.resume t]) (image_move f g l t _)
  | .sleep (some (n + 1)) =>
    exact congrArg (fun z => { z with armed := z.armed + 1 })
      (image_move f g l t (.waiting k (.timer (some (l.now + (n + 1))) l.armed)))
  | .signal => exact image_move f g l t _
  | .tasks [] => exact congrArg (push [.resume t]) (image_move f g l t _)
  | .tasks (u :: ids) =>
    have hwatch := image_foldl_watch f g (l.move t (.waiting k (.tasks (u :: ids).length))) t (u :: ids)
    rw [image_move] at hwatch
    exact hwatch

theorem image_finish (t : TaskId) (e : Ending ρ ε) :
    (l.finish t e).image f g = (l.image f g).finish t (.returned ()) := by
  have htask : (l.image f g).tasks[t]? = l.tasks[t]?.map (Task.image g) := by simp [image]
  unfold finish
  rw [htask]
  cases l.tasks[t]? with
  | none => rfl
  | some task =>
    have hmodify : (l.modify t fun task => { task with stage := .ended e, watchers := [] }).image f g =
        (l.image f g).modify t fun task =>
          { task with stage := .ended (.returned ()), watchers := [] } :=
      image_modify f g l (fun _ => rfl) t
    exact congrArg (fun z : Loop σ' κ' Unit Unit =>
      { z.push ((if task.isTracked then [Callback.settled t] else []) ++
          task.watchers.map Callback.counted) with ended := z.ended ++ [t] }) hmodify

theorem image_goOn (t : TaskId) (n : Next κ ρ ε) :
    (l.goOn t n).image f g = (l.image f g).goOn t (n.image g) := by
  cases n with
  | pause p k => exact image_pause f g l t p k
  | finish e => exact image_finish f g l t e

theorem image_settleEnd (t : TaskId) :
    (l.settleEnd t).image f g = (l.image f g).settleEnd t := by
  have hnone : ∀ task : Task κ ρ ε, failure t (task.image g) = [] := by
    intro task
    unfold failure Task.image
    cases task.stage <;> rfl
  simp only [settleEnd, image, List.getElem?_map, Option.map_map]
  cases l.tasks[t]? <;> simp [hnone]

theorem image_count (w : TaskId) : (l.count w).image f g = (l.image f g).count w := by
  unfold count
  rw [stage?_image]
  cases l.stage? w with
  | none => rfl
  | some s =>
    cases s with
    | waiting k v =>
      cases v with
      | tasks left =>
        simp only [Option.map_some, Stage.image]
        split <;> simp [Stage.image]
      | _ => rfl
    | _ => rfl

theorem image_expire (t rank : TaskId) :
    (l.expire t rank).image f g = (l.image f g).expire t rank := by
  unfold expire
  rw [stage?_image]
  cases l.stage? t with
  | none => rfl
  | some s =>
    cases s with
    | waiting k v =>
      cases v with
      | timer due r =>
        simp only [Option.map_some, Stage.image]
        split <;> simp [Stage.image]
      | _ => rfl
    | _ => rfl

/-- A signal carries over if what it makes of the continuation does. -/
theorem image_signal {t : TaskId} {h : κ → κ} {h' : κ' → κ'}
    (hc : ∀ k, l.stage? t = some (.waiting k .signal) → g (h k) = h' (g k)) :
    (l.signal t h).image f g = (l.image f g).signal t h' := by
  unfold signal
  rw [stage?_image]
  cases hs : l.stage? t with
  | none => rfl
  | some s =>
    cases s with
    | waiting k v =>
      cases v with
      | signal => simp [Stage.image, hc k hs]
      | _ => rfl
    | _ => rfl

theorem timerOf_image (t : TaskId) (task : Task κ ρ ε) :
    timerOf t (task.image g) = timerOf t task := by
  unfold timerOf Task.image
  cases task.stage with
  | waiting k v => rcases v with ⟨_ | _, _⟩ | _ | _ <;> rfl
  | _ => rfl

theorem timers_image : (l.image f g).timers = l.timers := by
  simp only [timers, image, List.zipIdx_map, List.filterMap_map]
  congr 1
  funext p
  exact timerOf_image g p.2 p.1

theorem image_fireAt (time : Nat) : (l.fireAt time).image f g = (l.image f g).fireAt time := by
  unfold fireAt
  rw [timers_image]
  rfl

end Operations

/-! ## 3. Turns -/

section Turns

variable {f : σ → σ''} {g : κ → κ''} {f' : σ' → σ''} {g' : κ' → κ''} {l : Loop σ κ ρ ε}
  {l' : Loop σ' κ' ρ' ε'} {b : Behaviour σ κ ρ ε} {b' : Behaviour σ' κ' ρ' ε'}

/-- What is resumed in the image. -/
theorem resumption?_image : (l.image f g).resumption? =
    l.resumption?.map fun r => ⟨r.task, g r.continuation, r.wake⟩ := by
  have hready : (l.image f g).ready = l.ready := rfl
  unfold resumption?
  rw [hready]
  cases l.ready.head? with
  | none => rfl
  | some c =>
    cases c with
    | resume t =>
      simp only [stage?_image]
      cases l.stage? t with
      | none => rfl
      | some s => cases s <;> rfl
    | _ => rfl

/-- The run of a task carries over as its orders and what it goes on to. -/
theorem image_runTask (b : Behaviour σ κ ρ ε) (t : TaskId) (k : κ) (w : Wake) :
    (l.runTask b t k w).image f g =
      let burst := (b l.facts k w l.state).image f g
      (burst.orders.foldl obey { l.image f g with state := burst.state }).goOn t burst.next := by
  show (((b l.facts k w l.state).orders.foldl obey { l with
    state := (b l.facts k w l.state).state }).goOn t (b l.facts k w l.state).next).image f g = _
  rw [image_goOn, image_foldl_obey]
  rfl

/-- **Loops with one image have one image after a turn**, if the runs of the task that is resumed have
    one. -/
theorem image_turned (h : l.image f g = l'.image f' g')
    (hb : ∀ t k k' w, l.resumption? = some ⟨t, k, some w⟩ → l'.resumption? = some ⟨t, k', some w⟩ →
      (b l.facts k w l.state).image f g = (b' l'.facts k' w l'.state).image f' g') :
    (l.turned b).image f g = (l'.turned b').image f' g' := by
  have hready : l'.ready = l.ready := (congrArg Loop.ready h).symm
  have hpopped : l.popped.image f g = l'.popped.image f' g' := congrArg popped h
  have hres : l.resumption?.map (fun r => (⟨r.task, g r.continuation, r.wake⟩ : Resumption κ'')) =
      l'.resumption?.map fun r => ⟨r.task, g' r.continuation, r.wake⟩ := by
    rw [← resumption?_image (f := f), h, resumption?_image]
  cases hr : l.resumption? with
  | some r =>
    obtain ⟨t, k, w⟩ := r
    rw [hr, Option.map_some, eq_comm, Option.map_eq_some_iff] at hres
    obtain ⟨⟨t', k', w'⟩, hr', he⟩ := hres
    obtain ⟨rfl, _, rfl⟩ := Resumption.mk.inj he
    rw [turned_of_resumption? hr, turned_of_resumption? hr']
    cases w' with
    | none => exact (image_finish f g _ _ _).trans ((congrArg _ hpopped).trans
        (image_finish f' g' _ _ _).symm)
    | some w =>
      have hrun : (b l.popped.facts k w l.popped.state).image f g =
          (b' l'.popped.facts k' w l'.popped.state).image f' g' := hb t' k k' w hr hr'
      show (l.popped.runTask b t' k w).image f g = (l'.popped.runTask b' t' k' w).image f' g'
      rw [image_runTask, image_runTask, hrun, hpopped]
  | none =>
    have hr' : l'.resumption? = none := by
      rw [hr, Option.map_none, eq_comm, Option.map_eq_none_iff] at hres
      exact hres
    cases hhead : l.ready.head? with
    | none =>
      have hnone : l.ready = [] := List.head?_eq_none_iff.mp hhead
      have hsame : l.turned b = l := by simp [turned, turn, hnone]
      have hsame' : l'.turned b' = l' := by simp [turned, turn, hready, hnone]
      rw [hsame, hsame']
      exact h
    | some c =>
      have hhead' : l'.ready.head? = some c := hready ▸ hhead
      rw [turned_of_head hhead, turned_of_head hhead']
      cases c with
      | resume t =>
        rw [show handle b l.popped (.resume t) = l.popped from resume_popped hhead hr,
          show handle b' l'.popped (.resume t) = l'.popped from resume_popped hhead' hr']
        exact hpopped
      | settled t =>
        show (l.popped.settleEnd t).image f g = (l'.popped.settleEnd t).image f' g'
        rw [image_settleEnd, image_settleEnd, hpopped]
      | counted w =>
        show (l.popped.count w).image f g = (l'.popped.count w).image f' g'
        rw [image_count, image_count, hpopped]
      | expired t rank =>
        show (l.popped.expire t rank).image f g = (l'.popped.expire t rank).image f' g'
        rw [image_expire, image_expire, hpopped]

end Turns

end Loop

end CodeSession
