import CodeSession.Proofs.Tracking.Moves

/-!
# What a step is made of

Every step of a loop with a tracked set is a sequence of single acts. What holds of the set is shown
for each act.

* `Act`, `Acts` -- what may be done to the loop at once, with the tasks whose ends are settled, and a
  sequence of such acts;
* `Fit` -- the calls that are queued are not cancelled, and one that is to empty the set finds it
  empty;
* `acts_step` -- every step of a loop that is fit is a sequence of acts; only one that spawns work, or
  runs work, adds to the set.
-/

namespace CodeSession.Tracking

variable {σ κ ρ ε : Type} {free : Prop} {duty : κ → Duty} {l l' l'' : Loop σ κ ρ ε}

/-! ## 1. Acts -/

/-- What may be done to a loop at once. Work is only spawned if it is free to be; a task rests if it is
    work and has not been cancelled before it began, awaits others if it is a call, and a call ends by
    returning. -/
inductive Act (free : Prop) (duty : κ → Duty) :
    Loop σ κ ρ ε → List TaskId → Loop σ κ ρ ε → Prop
  | aside {l l' : Loop σ κ ρ ε} (htasks : l'.tasks = l.tasks) (hready : l'.ready = l.ready)
      (htracked : l'.tracked = l.tracked) (hfailures : l'.failures = l.failures)
      (hclosed : l.closed = true → l'.closed = true) : Act free duty l [] l'
  | spawn {l : Loop σ κ ρ ε} (name : String) (k : κ) (hfree : free) (hopen : l.closed = false)
      (hk : duty k = .work) : Act free duty l [] (l.add name true k)
  | call {l : Loop σ κ ρ ε} (name : String) (k : κ) (hk : duty k = .idle ∨ duty k = .close) :
      Act free duty l [] (l.add name false k)
  | cancel {l : Loop σ κ ρ ε} (t : TaskId) (ht : t ∈ l.tracked) : Act free duty l [] (l.cancel t)
  | wake {l : Loop σ κ ρ ε} {t : TaskId} {k : κ} {w : Wait}
      (hs : l.stage? t = some (.waiting k w)) (hw : ∀ n, w ≠ .tasks n) :
      Act free duty l [] ((l.move t (.queued k true false)).push [.resume t])
  | expired {l : Loop σ κ ρ ε} (cs : List Callback) (h : ∀ c ∈ cs, ∃ t rank, c = .expired t rank) :
      Act free duty l [] (l.push cs)
  | pop {l : Loop σ κ ρ ε} (c : Callback) (h : l.ready.head? = some c)
      (hsettled : ∀ t, c ≠ .settled t) (hcounted : ∀ w, c ≠ .counted w) :
      Act free duty l [] l.popped
  | settle {l : Loop σ κ ρ ε} (t : TaskId) (h : l.ready.head? = some (.settled t)) :
      Act free duty l [t] (l.popped.settleEnd t)
  | count {l : Loop σ κ ρ ε} (w : TaskId) (h : l.ready.head? = some (.counted w)) :
      Act free duty l [] (l.popped.count w)
  | rest {l : Loop σ κ ρ ε} {t : TaskId} {k₀ : κ} {begun cancelled : Bool}
      (hs : l.stage? t = some (.queued k₀ begun cancelled))
      (hrun : begun = true ∨ cancelled = false) (hk₀ : duty k₀ = .work) (p : Pause) (k : κ)
      (hk : duty k = .work) (hp : ∀ ids, p ≠ .tasks ids) : Act free duty l [] (l.pause t p k)
  | await {l : Loop σ κ ρ ε} {t : TaskId} {k₀ : κ} {begun cancelled : Bool}
      (hs : l.stage? t = some (.queued k₀ begun cancelled)) (ids : List TaskId) (k : κ)
      (hids : ids.Perm l.tracked) (hne : ids ≠ [])
      (hk : duty k₀ = .idle ∧ duty k = .idle ∨
        duty k₀ = .close ∧ duty k = .closing ∧ l.closed = true) :
      Act free duty l [] (l.pause t (.tasks ids) k)
  | finish {l : Loop σ κ ρ ε} {t : TaskId} {k : κ} {begun cancelled : Bool}
      (hs : l.stage? t = some (.queued k begun cancelled)) (e : Ending ρ ε)
      (he : duty k ≠ .work → ∃ r, e = .returned r) : Act free duty l [] (l.finish t e)

/-- A sequence of acts, with the tasks whose ends are settled, in order. -/
inductive Acts (free : Prop) (duty : κ → Duty) :
    Loop σ κ ρ ε → List TaskId → Loop σ κ ρ ε → Prop
  | refl (l : Loop σ κ ρ ε) : Acts free duty l [] l
  | tail {l l' l'' : Loop σ κ ρ ε} {es es' : List TaskId} (h : Acts free duty l es l')
      (h' : Act free duty l' es' l'') : Acts free duty l (es ++ es') l''

namespace Acts

theorem single {es : List TaskId} (h : Act free duty l es l') : Acts free duty l es l' :=
  List.nil_append es ▸ (refl l).tail h

/-- An act that settles nothing comes last. -/
theorem next {es : List TaskId} (h : Acts free duty l es l') (h' : Act free duty l' [] l'') :
    Acts free duty l es l'' :=
  List.append_nil es ▸ h.tail h'

theorem trans {es es' : List TaskId} (h : Acts free duty l es l') (h' : Acts free duty l' es' l'') :
    Acts free duty l (es ++ es') l'' := by
  induction h' with
  | refl => exact (List.append_nil es).symm ▸ h
  | tail _ hact ih => exact List.append_assoc es _ _ ▸ ih.tail hact

/-- What every act preserves of a loop and the tasks whose ends are settled, a sequence preserves. -/
theorem preserves {P : Loop σ κ ρ ε → List TaskId → Prop}
    (hact : ∀ l done es l', P l done → Act free duty l es l' → P l' (done ++ es))
    {es done : List TaskId} (h : Acts free duty l es l') (hp : P l done) : P l' (done ++ es) := by
  induction h with
  | refl => exact (List.append_nil done).symm ▸ hp
  | tail _ h' ih => exact List.append_assoc done _ _ ▸ hact _ _ _ _ ih h'

/-- What every act preserves of a loop, a sequence preserves. -/
theorem invariant {P : Loop σ κ ρ ε → Prop}
    (hact : ∀ l es l', P l → Act free duty l es l' → P l') {es : List TaskId}
    (h : Acts free duty l es l') (hp : P l) : P l' := by
  induction h with
  | refl => exact hp
  | tail _ h' ih => exact hact _ _ _ ih h'

end Acts

/-! ## 2. Orders -/

/-- Orders to spawn work are carried out, or dropped by a closed set. -/
theorem acts_spawns {orders : List (Order κ)} (hfree : free)
    (horders : ∀ o ∈ orders, ∃ name k, o = .spawn name k ∧ duty k = .work) (l : Loop σ κ ρ ε) :
    Acts free duty l [] (orders.foldl Loop.obey l) := by
  induction orders generalizing l with
  | nil => exact .refl l
  | cons o orders ih =>
    have hrest := ih (fun o ho => horders o (List.mem_cons_of_mem _ ho)) (l.obey o)
    obtain ⟨name, k, rfl, hk⟩ := horders o List.mem_cons_self
    rw [List.foldl_cons]
    cases hclosed : l.closed with
    | true =>
      rw [Loop.obey_spawn_closed hclosed] at hrest ⊢
      exact hrest
    | false =>
      rw [Loop.obey_spawn_open hclosed] at hrest ⊢
      exact (Acts.single (.spawn name k hfree hclosed hk)).trans hrest

/-- Tracked tasks are cancelled, which changes neither the set nor whether it is closed. -/
theorem acts_cancels {ids : List TaskId} {l : Loop σ κ ρ ε} (hids : ∀ t ∈ ids, t ∈ l.tracked) :
    Acts free duty l [] ((ids.map Order.cancel).foldl Loop.obey l) ∧
      Loop.Keeps l ((ids.map Order.cancel).foldl Loop.obey l) := by
  induction ids generalizing l with
  | nil => exact ⟨.refl l, .refl l⟩
  | cons t ids ih =>
    have hkeeps := Loop.keeps_cancel t l
    obtain ⟨hacts, hrest⟩ := ih (l := l.cancel t) fun u hu =>
      hkeeps.tracked ▸ hids u (List.mem_cons_of_mem t hu)
    exact ⟨(Acts.single (.cancel t (hids t List.mem_cons_self))).trans hacts, hkeeps.trans hrest⟩

/-- The set is closed and what is tracked is cancelled. -/
theorem acts_closeOrders {l : Loop σ κ ρ ε} (facts : Facts)
    (hids : facts.tracked.Perm l.tracked) :
    Acts free duty l [] ((closeOrders facts).foldl Loop.obey l) ∧
      ((closeOrders facts).foldl Loop.obey l).tracked = l.tracked ∧
      ((closeOrders facts).foldl Loop.obey l).closed = true := by
  have hmem : ∀ t ∈ facts.tracked, t ∈ (l.obey .seal).tracked := fun t ht => hids.mem_iff.mp ht
  obtain ⟨hacts, hkeeps⟩ : Acts free duty _ [] _ ∧ _ := acts_cancels hmem
  have hseal : Act free duty l [] (l.obey .seal) := .aside rfl rfl rfl rfl fun _ => rfl
  exact ⟨(Acts.single hseal).trans hacts, hkeeps.tracked, hkeeps.closed⟩

/-! ## 3. Runs of tasks -/

/-- A queued task stays queued while orders are carried out. -/
theorem queued_foldl_obey {t : TaskId} {k : κ} {begun cancelled : Bool} (orders : List (Order κ))
    (hs : l.stage? t = some (.queued k begun cancelled)) :
    ∃ cancelled', (orders.foldl Loop.obey l).stage? t = some (.queued k begun cancelled') := by
  by_cases h : .cancel t ∈ orders
  · refine ⟨true, ?_⟩
    rw [Loop.stage?_foldl_obey_of_mem (Loop.lt_of_stage? hs) h, hs]
    rfl
  · refine ⟨cancelled, ?_⟩
    rw [Loop.stage?_foldl_obey_of_notMem (Loop.lt_of_stage? hs) h, hs]

section Runs

variable {b : Behaviour σ κ ρ ε} {t : TaskId} {k : κ} {begun cancelled : Bool} {wake : Wake}

/-- A run of work. -/
theorem acts_work (h : Works duty (b l.facts k wake l.state)) (hfree : free) (hk : duty k = .work)
    (hs : l.stage? t = some (.queued k begun cancelled))
    (hrun : begun = true ∨ cancelled = false) :
    Acts free duty l [] (l.runTask b t k wake) := by
  have hstate : Act free duty l [] { l with state := (b l.facts k wake l.state).state } :=
    .aside rfl rfl rfl rfl id
  have hspawns := (Acts.single hstate).trans (acts_spawns hfree h.orders _)
  have hkeep : .cancel t ∉ (b l.facts k wake l.state).orders := fun hmem => by
    obtain ⟨_, _, he, _⟩ := h.orders _ hmem
    cases he
  have hs' := (Loop.stage?_foldl_obey_of_notMem
    (l := { l with state := (b l.facts k wake l.state).state }) (Loop.lt_of_stage? hs) hkeep).trans hs
  have hpause := h.pause
  unfold Loop.runTask Loop.goOn
  dsimp only
  cases hn : (b l.facts k wake l.state).next with
  | pause p k' =>
    obtain ⟨hk', hp⟩ := hpause p k' hn
    exact hspawns.next (.rest hs' hrun hk p k' hk' hp)
  | finish e => exact hspawns.next (.finish hs' e fun hne => absurd hk hne)

/-- A run of a call that waits until nothing is tracked. -/
theorem acts_idle (hb : Staffed b duty) (hk : duty k = .idle)
    (hs : l.stage? t = some (.queued k begun cancelled)) :
    Acts free duty l [] (l.runTask b t k .go) := by
  obtain ⟨horders, ids, again, done, hids, hagain, hnext⟩ := hb.idle l.facts k l.state hk
  have hstate : Act free duty l [] { l with state := (b l.facts k .go l.state).state } :=
    .aside rfl rfl rfl rfl id
  unfold Loop.runTask
  dsimp only
  rw [horders, hnext, List.foldl_nil]
  refine (Acts.single hstate).trans ?_
  have hs' : ({ l with state := (b l.facts k .go l.state).state } : Loop σ κ ρ ε).stage? t =
      some (.queued k begun cancelled) := hs
  cases ids with
  | nil => exact .single (.finish hs' (.returned done) fun _ => ⟨done, rfl⟩)
  | cons u ids =>
    exact .single (.await hs' (u :: ids) again hids (List.cons_ne_nil u ids) (.inl ⟨hk, hagain⟩))

/-- An order to empty the set is none when it is empty. -/
theorem obey_forget (h : l.tracked = []) : l.obey .forget = l := by
  show { l with tracked := [] } = l
  rw [← h]

/-- The first run of a call that closes the set. -/
theorem acts_close (hb : Staffed b duty) (hk : duty k = .close)
    (hs : l.stage? t = some (.queued k begun cancelled)) :
    Acts free duty l [] (l.runTask b t k .go) := by
  obtain ⟨ids, hids, hcases⟩ := hb.close l.facts k l.state hk
  have hstate : Act free duty l [] { l with state := (b l.facts k .go l.state).state } :=
    .aside rfl rfl rfl rfl id
  obtain ⟨hacts, htracked, hclosed⟩ : Acts free duty _ [] _ ∧ _ := acts_closeOrders
    (l := { l with state := (b l.facts k .go l.state).state }) { l.facts with tracked := ids } hids
  obtain ⟨c, hs'⟩ := queued_foldl_obey (l := { l with state := (b l.facts k .go l.state).state })
    (closeOrders { l.facts with tracked := ids }) hs
  have hsealed := (Acts.single hstate).trans hacts
  unfold Loop.runTask
  dsimp only
  split at hcases
  · rename_i hempty
    obtain ⟨horders, done, hnext⟩ := hcases
    rw [horders, hnext, List.foldl_append, List.foldl_cons, List.foldl_nil,
      obey_forget (htracked.trans hempty)]
    exact hsealed.next (.finish hs' (.returned done) fun _ => ⟨done, rfl⟩)
  · rename_i hne
    obtain ⟨horders, rest, hrest, hnext⟩ := hcases
    rw [horders, hnext]
    refine hsealed.next (.await hs' ids rest ?_ (fun hnil => hne ?_) (.inr ⟨hk, hrest, hclosed⟩))
    · rw [htracked]
      exact hids
    · exact List.perm_nil.mp (hnil ▸ hids.symm)

/-- The last run of a call that closes the set. -/
theorem acts_closing (hb : Staffed b duty) (hk : duty k = .closing) (hempty : l.tracked = [])
    (hs : l.stage? t = some (.queued k begun cancelled)) :
    Acts free duty l [] (l.runTask b t k .go) := by
  obtain ⟨horders, done, hnext⟩ := hb.closing l.facts k l.state hk
  have hstate : Act free duty l [] { l with state := (b l.facts k .go l.state).state } :=
    .aside rfl rfl rfl rfl id
  have hs' : ({ l with state := (b l.facts k .go l.state).state } : Loop σ κ ρ ε).stage? t =
      some (.queued k begun cancelled) := hs
  unfold Loop.runTask
  dsimp only
  rw [horders, hnext, List.foldl_cons, List.foldl_nil, obey_forget (by exact hempty)]
  exact (Acts.single hstate).next (.finish hs' (.returned done) fun _ => ⟨done, rfl⟩)

end Runs

/-! ## 4. Steps -/

/-- The calls that are queued are not cancelled, and one that is to empty the set finds it empty. -/
def Fit (duty : κ → Duty) (l : Loop σ κ ρ ε) : Prop :=
  ∀ t k begun cancelled, l.stage? t = some (.queued k begun cancelled) → duty k ≠ .work →
    cancelled = false ∧ (duty k = .closing → l.tracked = [])

/-- A call that is resumed goes on. -/
theorem Fit.resumed (h : Fit duty l) {t : TaskId} {k : κ} {wake : Option Wake} (hk : duty k ≠ .work)
    (hres : l.resumption? = some ⟨t, k, wake⟩) :
    wake = some .go ∧ (duty k = .closing → l.tracked = []) := by
  obtain ⟨_, begun, cancelled, hs, hwake⟩ := Loop.resumption?_eq_some_iff.mp hres
  obtain ⟨rfl, hempty⟩ := h t k begun cancelled hs hk
  exact ⟨hwake, hempty⟩

/-- Whether a move may spawn work: by itself, or by a turn that runs work. -/
def MaySpawn (duty : κ → Duty) (l : Loop σ κ ρ ε) (m : Move σ κ) : Prop :=
  m.isSpawn = true ∨
    m.isTurn = true ∧ ∃ t k wake, l.resumption? = some ⟨t, k, some wake⟩ ∧ duty k = .work

section Steps

variable {b : Behaviour σ κ ρ ε}

/-- A turn that resumes a task is a sequence of acts. -/
theorem acts_resumption (hb : Staffed b duty) (hfit : Fit duty l) {r : Loop.Resumption κ}
    (hres : l.resumption? = some r) :
    Acts (MaySpawn duty l (.turn : Move σ κ)) duty l [] (l.turned b) := by
  obtain ⟨t, k, wake⟩ := r
  obtain ⟨hhead, begun, cancelled, hs, hwake⟩ := Loop.resumption?_eq_some_iff.mp hres
  have hpop : Acts (MaySpawn duty l (.turn : Move σ κ)) duty l [] l.popped :=
    .single (.pop _ hhead (fun u e => by cases e) fun u e => by cases e)
  have hs' : l.popped.stage? t = some (.queued k begun cancelled) := hs
  rw [Loop.turned_of_resumption? hres]
  cases wake with
  | none =>
    refine hpop.next (.finish hs' .cancelled fun hk => ?_)
    cases (hfit.resumed hk hres).1
  | some wake =>
    by_cases hk : duty k = .work
    · have hfree : MaySpawn duty l (.turn : Move σ κ) := .inr ⟨rfl, t, k, wake, hres, hk⟩
      have hrun : begun = true ∨ cancelled = false := by
        cases begun with
        | true => exact .inl rfl
        | false =>
          cases cancelled with
          | true => cases hwake
          | false => exact .inr rfl
      exact hpop.trans (acts_work (hb.work _ _ _ _ hk) hfree hk hs' hrun)
    · obtain ⟨hgo, hempty⟩ := hfit.resumed hk hres
      cases hgo
      cases hduty : duty k with
      | work => exact absurd hduty hk
      | idle => exact hpop.trans (acts_idle hb hduty hs')
      | close => exact hpop.trans (acts_close hb hduty hs')
      | closing => exact hpop.trans (acts_closing hb hduty (hempty hduty) hs')

/-- A timer that expires wakes the work that waits for it. -/
theorem acts_expire {t : TaskId} {rank : Nat} (hhead : l.ready.head? = some (.expired t rank)) :
    Acts free duty l [] (l.popped.expire t rank) := by
  have hpop : Acts free duty l [] l.popped :=
    .single (.pop _ hhead (fun u e => by cases e) fun u e => by cases e)
  unfold Loop.expire
  split
  · rename_i k due r hs
    split
    · exact hpop.next (.wake hs fun n e => by cases e)
    · exact hpop
  · exact hpop

/-- A turn of a fit loop is a sequence of acts. -/
theorem acts_turn (hb : Staffed b duty) (hfit : Fit duty l) :
    Acts (MaySpawn duty l (.turn : Move σ κ)) duty l (settled? l (.turn : Move σ κ)).toList
      (l.turned b) := by
  cases hhead : l.ready.head? with
  | none =>
    have hsame : l.turned b = l := by
      simp [Loop.turned, Loop.turn, List.head?_eq_none_iff.mp hhead]
    rw [hsame, show settled? l (.turn : Move σ κ) = none by simp [settled?, hhead]]
    exact .refl l
  | some c =>
    unfold settled?
    rw [hhead]
    cases c with
    | settled t =>
      rw [Loop.turned_of_head hhead]
      exact .single (.settle t hhead)
    | counted w =>
      rw [Loop.turned_of_head hhead]
      exact .single (.count w hhead)
    | expired t rank =>
      rw [Loop.turned_of_head hhead]
      exact acts_expire hhead
    | resume t =>
      cases hres : l.resumption? with
      | some r => exact acts_resumption hb hfit hres
      | none =>
        rw [Loop.turned_of_head hhead,
          show Loop.handle b l.popped (.resume t) = l.popped from Loop.resume_popped hhead hres]
        exact .single (.pop _ hhead (fun u e => by cases e) fun u e => by cases e)

/-- **Every step of a fit loop is a sequence of acts.** -/
theorem acts_step (hb : Staffed b duty) (hfit : Fit duty l) (m : Move σ κ) :
    Acts (MaySpawn duty l m) duty l (settled? l m).toList (step b duty l m) := by
  cases m with
  | turn => exact acts_turn hb hfit
  | spawn name k =>
    show Acts _ duty l [] (if duty k = .work then l.obey (.spawn name k) else l)
    split
    · rename_i hk
      have horder : ∀ o ∈ [Order.spawn name k], ∃ name k, o = .spawn name k ∧ duty k = .work :=
        fun o ho => ⟨name, k, List.mem_singleton.mp ho, hk⟩
      exact acts_spawns (.inl rfl) horder l
    · exact .refl l
  | call k =>
    show Acts _ duty l [] (if duty k = .idle ∨ duty k = .close then l.launch k else l)
    split
    · rename_i hk
      exact .single (.call "" k hk)
    · exact .refl l
  | signal t =>
    show Acts _ duty l [] (l.signal t id)
    unfold Loop.signal
    split
    · rename_i k hs
      exact .single (.wake hs fun n e => by cases e)
    · exact .refl l
  | cancel t =>
    show Acts _ duty l [] (if t ∈ l.tracked then l.cancel t else l)
    split
    · rename_i ht
      exact .single (.cancel t ht)
    · exact .refl l
  | change x =>
    exact .single (.aside rfl rfl rfl rfl id)
  | wait ticks =>
    have hclock : Act (MaySpawn duty l (.wait ticks : Move σ κ)) duty l []
        { l with now := l.now + ticks } := .aside rfl rfl rfl rfl id
    refine (Acts.single hclock).next (.expired _ fun c hc => ?_)
    obtain ⟨timer, _, rfl⟩ := List.mem_map.mp hc
    exact ⟨timer.task, timer.rank, rfl⟩

end Steps

end CodeSession.Tracking
