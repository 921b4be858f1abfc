import CodeSession.Proofs.Session.Calls
import CodeSession.Proofs.Session.Moves
import CodeSession.Proofs.Tabs.Notices
import CodeSession.Proofs.Tabs.Rounds

/-!
# Listeners that switch

A switch of listeners that switch themselves, as a run of switches within switches.

* `Listener.Does` -- what a listener does that does not raise;
* `Unfolds` -- what a part of a switch yields is what a run does, whatever other switches have not
  returned;
* `unfolds_notify`, `unfolds_notifyAll`, `follows_switchWithin` -- so it is for the listeners in
  order and for a switch, by induction on how deep switches may be nested;
* `ToldFirst`, `Headed` -- the first listener is told by a name of its own, so that its notices are
  told apart;
* `fetches_heedAll`, `tasks_switched` -- an open session issues a fetch for each notice of its viewer
  that shows the inspection;
* `activations_of_switch` -- a switch that returns has lost no activation, and no fetch.
-/

namespace CodeSession

/-- What a listener does when it is told of a tab, unless it raises. -/
inductive Listener.Does (l : Listener) (tab : Tab) : List Tabs.Deed → Prop where
  | record (h : l.action = .record) : Does l tab []
  | subscribe {name : String} (h : l.action = .subscribe name) :
      Does l tab [.subscribe ⟨name, .record⟩]
  | stay (h : l.action = .switch (.string tab.name)) : Does l tab []
  | switch {target : Tab} (h : l.action = .switch (.string target.name)) (hne : target ≠ tab) :
      Does l tab [.switch target]

namespace Tabs

variable {nested : Json.Value → Tabs → Switching} {tab : Tab} {l : Listener} {t t' t'' : Tabs}

/-! ## 1. A switch as a run -/

/-- The listeners after a while: those that were subscribed meanwhile stand at the end, and only
    take note. -/
def Grown (t t' : Tabs) : Prop :=
  ∃ late, t'.listeners = t.listeners ++ late ∧ ∀ l ∈ late, l.action = .record

theorem Grown.refl (t : Tabs) : Grown t t :=
  ⟨[], (List.append_nil _).symm, fun _ h => absurd h List.not_mem_nil⟩

theorem Grown.trans (h : Grown t t') (h' : Grown t' t'') : Grown t t'' := by
  obtain ⟨late, hlate, hrecord⟩ := h
  obtain ⟨late', hlate', hrecord'⟩ := h'
  refine ⟨late ++ late', by rw [hlate', hlate, List.append_assoc], fun l hl => ?_⟩
  exact (List.mem_append.mp hl).elim (hrecord l) (hrecord' l)

theorem Grown.subscribe (name : String) (t : Tabs) : Grown t (t.subscribe ⟨name, .record⟩) :=
  ⟨[⟨name, .record⟩], rfl, fun _ hl => by rw [List.mem_singleton.mp hl]⟩

/-- A part of a switch is a run: it takes some switches, the innermost ones, from where they stood
    to where they stand, and gives notices. -/
def Unfolds (t : Tabs) (before after : List Round) (t' : Tabs) (ns : List Notice) : Prop :=
  Grown t t' ∧ ∃ es, notices es = ns ∧
    ∀ rounds, Runs Listener.Does ⟨t, before ++ rounds⟩ es ⟨t', after ++ rounds⟩

variable {before between after : List Round} {ns ns' : List Notice}

theorem Unfolds.stop (t : Tabs) (rounds : List Round) : Unfolds t rounds rounds t [] :=
  ⟨.refl t, [], rfl, fun _ => .nil _⟩

theorem Unfolds.trans (h : Unfolds t before between t' ns) (h' : Unfolds t' between after t'' ns') :
    Unfolds t before after t'' (ns ++ ns') := by
  obtain ⟨hgrown, es, hes, hruns⟩ := h
  obtain ⟨hgrown', es', hes', hruns'⟩ := h'
  refine ⟨hgrown.trans hgrown', es ++ es', ?_, fun rounds => (hruns rounds).append (hruns' rounds)⟩
  rw [notices_append, hes, hes']

/-- A listener is told. -/
theorem unfolds_tell {next : Nat} {ds : List Deed} (hnext : t.listeners[next]? = some l)
    (hdoes : l.Does tab ds) :
    Unfolds t [⟨tab, next, []⟩] [⟨tab, next + 1, ds⟩] t [⟨l.name, tab, t.active⟩] :=
  ⟨.refl t, [.told next ⟨l.name, tab, t.active⟩], rfl, fun _ => .single (.tell hnext hdoes)⟩

/-- No listener is left. -/
theorem unfolds_finish {next : Nat} (hend : t.listeners.length ≤ next) :
    Unfolds t [⟨tab, next, []⟩] [] t [] :=
  ⟨.refl t, [], rfl, fun _ => .single (.finish hend)⟩

/-- What a switch from within has to do: if it ends well, its target is a tab, and it is a run of
    its own that returns. -/
def Follows (nested : Json.Value → Tabs → Switching) : Prop :=
  ∀ target t, (nested target t).trouble = none →
    ∃ tab : Tab, target = .string tab.name ∧
      Unfolds { t with active := tab } [⟨tab, 0, []⟩] [] (nested target t).tabs
        (nested target t).notices

/-- What a listener does is a run of its deeds. -/
theorem unfolds_act (hnested : Follows nested) (h : (act nested tab l t).trouble = none) :
    ∃ ds, l.Does tab ds ∧
      ∀ next, Unfolds t [⟨tab, next, ds⟩] [⟨tab, next, []⟩] (act nested tab l t).tabs
        (act nested tab l t).notices := by
  obtain ⟨name, action⟩ := l
  cases action with
  | record => exact ⟨[], .record rfl, fun next => .stop t _⟩
  | raise => cases h
  | subscribe name' =>
    exact ⟨[.subscribe ⟨name', .record⟩], .subscribe rfl, fun next =>
      ⟨.subscribe name' t, [], rfl, fun _ => .single .subscribe⟩⟩
  | switch target =>
    by_cases hstay : target = .string tab.name
    · subst hstay
      have hact : act nested tab ⟨name, .switch (.string tab.name)⟩ t = ⟨t, [], none⟩ :=
        if_pos (beq_self_eq_true _)
      rw [hact]
      exact ⟨[], .stay rfl, fun next => .stop t _⟩
    · have hact : act nested tab ⟨name, .switch target⟩ t = nested target t := by
        cases target with
        | string s => exact if_neg fun hs => hstay (congrArg Json.Value.string (eq_of_beq hs).symm)
        | _ => rfl
      rw [hact] at h ⊢
      obtain ⟨tab', rfl, hgrown, es, hes, hruns⟩ := hnested target t h
      have hne : tab' ≠ tab := fun e => hstay (e ▸ rfl)
      refine ⟨[.switch tab'], .switch rfl hne, fun next =>
        ⟨hgrown, .assigned tab' :: es, hes, fun rounds => ?_⟩⟩
      exact (Runs.single .switch).append (hruns (⟨tab, next, []⟩ :: rounds))

/-- If listeners end well, so does the first of them, and the others do after it. -/
theorem notify_cons_of_none {ls : List Listener}
    (h : (notify nested tab (l :: ls) t).trouble = none) :
    (act nested tab l t).trouble = none ∧
    let others := notify nested tab ls (act nested tab l t).tabs
    others.trouble = none ∧
    notify nested tab (l :: ls) t =
      ⟨others.tabs, ⟨l.name, tab, t.active⟩ :: ((act nested tab l t).notices ++ others.notices),
        others.trouble⟩ := by
  rw [notify] at h ⊢
  cases hact : (act nested tab l t).trouble with
  | some trouble =>
    rw [hact] at h
    cases h
  | none =>
    rw [hact] at h
    exact ⟨rfl, h, rfl⟩

/-- **Listeners in order are a run**, if they end well: the switch goes from the first of them past
    the last. -/
theorem unfolds_notify (hnested : Follows nested) {done ls : List Listener}
    (hls : done ++ ls <+: t.listeners) (h : (notify nested tab ls t).trouble = none) :
    Unfolds t [⟨tab, done.length, []⟩] [⟨tab, done.length + ls.length, []⟩]
      (notify nested tab ls t).tabs (notify nested tab ls t).notices := by
  induction ls generalizing done t with
  | nil => exact .stop t _
  | cons l ls ih =>
    obtain ⟨hact, hothers, heq⟩ := notify_cons_of_none h
    obtain ⟨ds, hdoes, hdone⟩ := unfolds_act hnested hact
    have hnext : t.listeners[done.length]? = some l := by
      obtain ⟨rest, hrest⟩ := hls
      rw [← hrest, List.append_assoc]
      simp
    have hls' : (done ++ [l]) ++ ls <+: (act nested tab l t).tabs.listeners := by
      obtain ⟨late, hlate, -⟩ := (hdone 0).1
      rw [List.append_assoc, hlate]
      exact hls.trans (List.prefix_append _ _)
    have hrest := ih hls' hothers
    rw [List.length_append, List.length_singleton] at hrest
    rw [heq, List.length_cons, Nat.add_comm ls.length, ← Nat.add_assoc]
    exact (unfolds_tell hnext hdoes).trans ((hdone _).trans hrest)

/-- Listeners that only take note are told one after another. -/
theorem notify_of_records {ls : List Listener} (h : ∀ l ∈ ls, l.action = .record) (t : Tabs) :
    notify nested tab ls t = ⟨t, ls.map fun l => ⟨l.name, tab, t.active⟩, none⟩ := by
  have hplain : ∀ l ∈ ls, l.isPlain = true := fun l hl => by rw [Listener.isPlain, h l hl]
  have hcalm : ∀ l ∈ ls, l.raises = false := fun l hl => by rw [Listener.raises, h l hl]
  have hnone : newcomers ls = [] := List.filterMap_eq_nil_iff.mpr fun l hl => by
    rw [Listener.newcomer?, h l hl]
  have hall := notify_of_calm nested tab hplain hcalm t []
  rw [List.append_nil, hnone, List.append_nil] at hall
  exact hall.trans (congrArg (fun ns => Switching.mk t ns none) (List.append_nil _))

/-- **All listeners are a run** that returns, those that are subscribed meanwhile at the end. -/
theorem unfolds_notifyAll (hnested : Follows nested) (h : (notifyAll nested tab t).trouble = none) :
    Unfolds t [⟨tab, 0, []⟩] [] (notifyAll nested tab t).tabs (notifyAll nested tab t).notices := by
  unfold notifyAll at h ⊢
  cases hfirst : (notify nested tab t.listeners t).trouble with
  | some trouble =>
    simp only [hfirst, reduceCtorEq] at h
  | none =>
    have hself : [] ++ t.listeners <+: t.listeners := List.prefix_refl _
    have hall := unfolds_notify hnested hself hfirst
    rw [List.length_nil, Nat.zero_add] at hall
    generalize notify nested tab t.listeners t = first at hfirst hall ⊢
    obtain ⟨late, hlate, hrecord⟩ := hall.1
    have hlisteners : t.listeners ++ late <+: first.tabs.listeners := hlate ▸ List.prefix_refl _
    have hcalm : (notify nested tab late first.tabs).trouble = none :=
      congrArg Switching.trouble (notify_of_records hrecord _)
    have hlast := unfolds_notify hnested hlisteners hcalm
    rw [notify_of_records hrecord] at hlast
    have hend : Unfolds first.tabs [⟨tab, t.listeners.length + late.length, []⟩] [] first.tabs [] :=
      unfolds_finish (Nat.le_of_eq (hlate ▸ List.length_append))
    have hreturn := hall.trans (hlast.trans hend)
    simpa only [hfirst, hlate, List.drop_left, List.append_nil] using hreturn

/-- **A switch within any depth is a run that returns**, if it ends well. -/
theorem follows_switchWithin (depth : Nat) : Follows (switchWithin depth) := by
  induction depth with
  | zero => exact fun target t h => by cases h
  | succ depth ih =>
    intro target t h
    rw [switchWithin] at h ⊢
    cases htab : (Choice.ofValue? target : Option Tab) with
    | none =>
      rw [htab] at h
      cases h
    | some tab =>
      rw [htab] at h
      exact ⟨tab, Tab.ofValue?_eq_some_iff.mp htab, unfolds_notifyAll ih h⟩

/-! ## 2. The first listener -/

/-- The tabs that a listener is told of in notices, in order. -/
def toldTo (name : String) (ns : List Notice) : List Tab :=
  ns.filterMap fun n => if n.listener = name then some n.tab else none

theorem toldTo_append (name : String) (ns ns' : List Notice) :
    toldTo name (ns ++ ns') = toldTo name ns ++ toldTo name ns' :=
  List.filterMap_append

theorem toldTo_cons (name : String) (n : Notice) (ns : List Notice) :
    toldTo name (n :: ns) = (if n.listener = name then [n.tab] else []) ++ toldTo name ns := by
  by_cases h : n.listener = name <;> simp [toldTo, h]

/-- The listener at the first place is told by a name, and no other one is. -/
def ToldFirst (name : String) (es : List Event) : Prop :=
  ∀ place n, .told place n ∈ es → (n.listener = name ↔ place = 0)

/-- What is told at the first place is what is told by its name. -/
theorem tellings_zero_of_toldFirst {name : String} {es : List Event} (h : ToldFirst name es) :
    tellings 0 es = toldTo name (notices es) := by
  induction es with
  | nil => rfl
  | cons e es ih =>
    have hrest := ih fun place n hn => h place n (List.mem_cons_of_mem _ hn)
    rw [← List.singleton_append, tellings_append, notices_append, toldTo_append, hrest]
    cases e with
    | assigned tab => rfl
    | told place n =>
      have hname := h place n List.mem_cons_self
      by_cases hzero : place = 0
      · simp [toldTo, notices, Event.notice?, hzero, hname.mpr hzero]
      · simp [toldTo, notices, Event.notice?, hzero, mt hname.mp hzero]

/-- A listener stands first, and no other one goes by its name or subscribes one that does. -/
def Headed (v : Listener) (t : Tabs) : Prop :=
  v.action = .record ∧ ∃ others, t.listeners = v :: others ∧
    ∀ l ∈ others, l.name ≠ v.name ∧ l.action ≠ .subscribe v.name

theorem Headed.subscribe {v : Listener} (h : Headed v t) (hname : l.name ≠ v.name)
    (hrecord : l.action = .record) : Headed v (t.subscribe l) := by
  obtain ⟨hv, others, hothers, hother⟩ := h
  refine ⟨hv, others ++ [l], by rw [listeners_subscribe, hothers, List.cons_append], fun k hk => ?_⟩
  rcases List.mem_append.mp hk with hk | hk
  · exact hother k hk
  · rw [List.mem_singleton.mp hk, hrecord]
    exact ⟨hname, fun h => by cases h⟩

/-- It is told at its own place, and no other one is told by its name. -/
theorem Headed.name_eq_iff {v : Listener} (h : Headed v t) {place : Nat}
    (hl : t.listeners[place]? = some l) : l.name = v.name ↔ place = 0 := by
  obtain ⟨-, others, hothers, hother⟩ := h
  rw [hothers] at hl
  cases place with
  | zero =>
    cases hl
    exact iff_of_true rfl rfl
  | succ place =>
    exact iff_of_false (hother l (List.mem_of_getElem? hl)).1 (Nat.succ_ne_zero place)

/-- What the listeners subscribe goes by other names. -/
theorem Headed.deeds {v : Listener} (h : Headed v t) (hl : l ∈ t.listeners) {ds : List Deed}
    (hdoes : l.Does tab ds) (k : Listener) (hk : .subscribe k ∈ ds) :
    k.name ≠ v.name ∧ k.action = .record := by
  obtain ⟨hv, others, hothers, hother⟩ := h
  have hne : l.action ≠ .subscribe v.name := by
    rcases List.mem_cons.mp (hothers ▸ hl) with rfl | hl
    · rw [hv]
      exact fun h => by cases h
    · exact (hother l hl).2
  cases hdoes with
  | record => cases hk
  | stay => cases hk
  | subscribe hname =>
    cases List.mem_singleton.mp hk
    exact ⟨fun h => hne (hname.trans (congrArg ListenerAction.subscribe h)), rfl⟩
  | switch => cases List.mem_singleton.mp hk

/-- The listeners are headed, and the deeds that are still to be done leave them so. -/
structure Scene.Headed (v : Listener) (x : Scene) : Prop where
  tabs : Tabs.Headed v x.tabs
  deeds : ∀ r ∈ x.rounds, ∀ k, .subscribe k ∈ r.deeds → k.name ≠ v.name ∧ k.action = .record

theorem headed_begun {v : Listener} (h : Headed v t) (tab : Tab) : (begun tab t []).Headed v where
  tabs := h
  deeds r hr k hk := by
    rw [List.mem_singleton.mp hr] at hk
    cases hk

/-- **Every step keeps the first listener apart**: no other one is told by its name. -/
theorem headed_step {v : Listener} {x y : Scene} {es : List Event} (h : x.Headed v)
    (hs : Step Listener.Does x es y) : y.Headed v ∧ ToldFirst v.name es := by
  obtain ⟨htabs, hdeeds⟩ := h
  have hnone : ∀ es : List Event, (∀ e ∈ es, e.notice? = none) → ToldFirst v.name es :=
    fun es hes place n hn => by cases hes _ hn
  cases hs with
  | @tell t tab next rounds l ds hnext hdoes =>
    refine ⟨⟨htabs, List.forall_mem_cons.mpr ⟨?_, (List.forall_mem_cons.mp hdeeds).2⟩⟩, ?_⟩
    · exact htabs.deeds (List.mem_of_getElem? hnext) hdoes
    · intro place n hn
      cases List.mem_singleton.mp hn
      exact htabs.name_eq_iff hnext
  | @subscribe t tab next rounds l ds =>
    obtain ⟨hhead, hrest⟩ := List.forall_mem_cons.mp hdeeds
    obtain ⟨hname, hrecord⟩ := hhead l List.mem_cons_self
    refine ⟨⟨htabs.subscribe hname hrecord, ?_⟩, hnone _ fun e he => by cases he⟩
    exact List.forall_mem_cons.mpr ⟨fun k hk => hhead k (List.mem_cons_of_mem _ hk), hrest⟩
  | @switch t tab target next rounds ds =>
    obtain ⟨hhead, hrest⟩ := List.forall_mem_cons.mp hdeeds
    have hrounds : ∀ r ∈ (⟨tab, next, ds⟩ :: rounds : List Round), ∀ k, .subscribe k ∈ r.deeds →
        k.name ≠ v.name ∧ k.action = .record :=
      List.forall_mem_cons.mpr ⟨fun k hk => hhead k (List.mem_cons_of_mem _ hk), hrest⟩
    refine ⟨⟨htabs, List.forall_mem_cons.mpr ⟨fun k hk => (List.not_mem_nil hk).elim, hrounds⟩⟩,
      hnone _ fun e he => ?_⟩
    rw [List.mem_singleton.mp he]
    rfl
  | finish =>
    exact ⟨⟨htabs, (List.forall_mem_cons.mp hdeeds).2⟩, hnone _ fun e he => by cases he⟩

/-- **In every run the first listener is told by a name of its own.** -/
theorem toldFirst_of_runs {v : Listener} {x y : Scene} {es : List Event} (h : x.Headed v)
    (hs : Runs Listener.Does x es y) : ToldFirst v.name es := by
  induction hs with
  | nil x => exact fun place n hn => by cases hn
  | cons hstep _ ih =>
    obtain ⟨hy, hfirst⟩ := headed_step h hstep
    intro place n hn
    exact (List.mem_append.mp hn).elim (hfirst place n) (ih hy place n)

end Tabs

namespace Session

open Tabs

/-! ## 3. Fetches -/

/-- An open session takes up every task that is spawned. -/
theorem tasks_foldl_spawn {s : Session} (hopen : s.closed = false) (name : String)
    (cs : List Call) :
    ((cs.map (Order.spawn name)).foldl Loop.obey s).tasks =
      s.tasks ++ cs.map fun c => ⟨name, true, .queued c false false, []⟩ := by
  induction cs generalizing s with
  | nil => exact (List.append_nil _).symm
  | cons c cs ih =>
    have hadd := Loop.obey_spawn_open hopen name c
    rw [List.map_cons, List.foldl_cons, hadd, ih (s := s.add name true c) hopen]
    exact List.append_assoc _ _ _

/-- **The viewer issues a fetch each time it is told of the inspection**, and they are numbered in
    order. -/
theorem fetches_heedAll (ns : List Notice) (w : World) :
    let shown := (toldTo viewer.name ns).count .inspect
    (heedAll w ns).2 = (List.range' (w.inspection.issued + 1) shown).map
        (fun n => .spawn "inspection-refresh" (.fetch n)) ∧
      (heedAll w ns).1.inspection.issued = w.inspection.issued + shown ∧
      (heedAll w ns).1.tabs = w.tabs := by
  induction ns generalizing w with
  | nil => exact ⟨rfl, rfl, rfl⟩
  | cons n ns ih =>
    rw [heedAll]
    by_cases hshown : n.listener = viewer.name ∧ n.tab = .inspect
    · obtain ⟨hviewer, hinspect⟩ := hshown
      have hheed : heed w n = ({ w with inspection := w.inspection.issue },
          [.spawn "inspection-refresh" (.fetch (w.inspection.issued + 1))]) := by
        simp [heed, hviewer, hinspect, Inspection.issue]
      have hcount : (toldTo viewer.name (n :: ns)).count .inspect =
          (toldTo viewer.name ns).count .inspect + 1 := by
        rw [toldTo_cons, if_pos hviewer, hinspect, List.singleton_append, List.count_cons_self]
      obtain ⟨horders, hissued, htabs⟩ := ih { w with inspection := w.inspection.issue }
      rw [hheed, hcount]
      refine ⟨?_, ?_, htabs⟩
      · rw [horders]
        rfl
      · rw [hissued]
        show w.inspection.issued + 1 + _ = _
        omega
    · have hheed : heed w n = (w, []) := by simpa [heed] using hshown
      have hcount : (toldTo viewer.name (n :: ns)).count .inspect =
          (toldTo viewer.name ns).count .inspect := by
        rw [toldTo_cons, List.count_append]
        by_cases hviewer : n.listener = viewer.name
        · have hother : n.tab ≠ .inspect := fun h => hshown ⟨hviewer, h⟩
          simp [hviewer, hother]
        · simp [hviewer]
      rw [hheed, hcount]
      exact ih w

/-- The session once its tabs have been switched, with the notices that this gave: the viewer has
    heeded them. -/
def switched (s : Session) (t : Tabs) (ns : List Notice) : Session :=
  let heeded := heedAll { s.state with tabs := t } ns
  heeded.2.foldl Loop.obey { s with state := heeded.1 }

/-- **The fetches of a switch** in an open session: one for each notice of the viewer that shows the
    inspection. -/
theorem tasks_switched {s : Session} (hopen : s.closed = false) (t : Tabs) (ns : List Notice) :
    let s' := s.switched t ns
    let shown := (toldTo viewer.name ns).count .inspect
    s'.state.tabs = t ∧
    s'.tasks = s.tasks ++ (List.range' (s.state.inspection.issued + 1) shown).map
      (fun n => ⟨"inspection-refresh", true, .queued (.fetch n) false false, []⟩) ∧
    s'.state.inspection.issued = s.state.inspection.issued + shown := by
  intro s' shown
  let w : World := { s.state with tabs := t }
  obtain ⟨horders, hissued, htabs⟩ := fetches_heedAll ns w
  have hswitched : s' = (heedAll w ns).2.foldl Loop.obey { s with state := (heedAll w ns).1 } := rfl
  rw [hswitched, Loop.state_foldl_obey, horders]
  refine ⟨htabs, ?_, hissued⟩
  have hspawn := tasks_foldl_spawn (s := { s with state := (heedAll w ns).1 }) hopen
    "inspection-refresh" ((List.range' (w.inspection.issued + 1) shown).map Call.fetch)
  rw [List.map_map, List.map_map] at hspawn
  exact hspawn

/-- The switch of an open session. -/
theorem step_switch_of_open {s : Session} (hopen : s.closed = false) (target : Json.Value) :
    s.step (.switch target) =
      s.switched (s.state.tabs.switch target).tabs (s.state.tabs.switch target).notices := by
  simp only [step, activate, Loop.perform, Loop.facts, switchTab, switched, hopen,
    Bool.false_eq_true, if_false]

/-! ## 4. No activation is lost -/

/-- **No switch within a switch loses an activation.** When they are told of a tab, listeners may
    take note, subscribe others and switch, any number of times and to any depth; one that raises,
    or that catches what a switch of its own raises, is none of them. Once the outermost switch has
    returned, each listener that was subscribed before it was told of every tab that was assigned
    meanwhile, once for each assignment, the first of them in the order of the assignments, the last
    of which is active. If the viewer of an open session is the first of them, it has issued a fetch
    for each assignment of the inspection. The switch of the tabs is such a run if nothing ends it
    early, and the step of a session that switches has its notices. -/
theorem activations_of_switch :
    (∀ (Does : Listener → Tab → List Deed → Prop) (tab : Tab) (t t' : Tabs) (es : List Event),
      Runs Does (begun tab t []) es ⟨t', []⟩ →
      Balanced t.listeners.length (.assigned tab :: es) t' ∧
      (0 < t.listeners.length → ToldFirst viewer.name es →
        ∀ s : Session, s.closed = false →
          let s' := s.switched t' (notices es)
          let shown := (assignments (.assigned tab :: es)).count .inspect
          s'.state.tabs = t' ∧
          s'.tasks = s.tasks ++ (List.range' (s.state.inspection.issued + 1) shown).map
            (fun n => ⟨"inspection-refresh", true, .queued (.fetch n) false false, []⟩) ∧
          s'.state.inspection.issued = s.state.inspection.issued + shown)) ∧
    ∀ (target : Json.Value) (t : Tabs), (t.switch target).trouble = none →
      ∃ (tab : Tab) (es : List Event), target = .string tab.name ∧
        Runs Listener.Does (begun tab t []) es ⟨(t.switch target).tabs, []⟩ ∧
        notices es = (t.switch target).notices ∧
        Balanced t.listeners.length (.assigned tab :: es) (t.switch target).tabs ∧
        (Headed viewer t →
          toldTo viewer.name (t.switch target).notices = assignments (.assigned tab :: es) ∧
          ∀ s : Session, s.closed = false → s.state.tabs = t →
            let s' := s.step (.switch target)
            let shown := (assignments (.assigned tab :: es)).count .inspect
            s'.state.tabs = (t.switch target).tabs ∧
            s'.tasks = s.tasks ++ (List.range' (s.state.inspection.issued + 1) shown).map
              (fun n => ⟨"inspection-refresh", true, .queued (.fetch n) false false, []⟩) ∧
            s'.state.inspection.issued = s.state.inspection.issued + shown) := by
  have htold : ∀ {Does : Listener → Tab → List Deed → Prop} {tab : Tab} {t t' : Tabs}
      {es : List Event}, Runs Does (begun tab t []) es ⟨t', []⟩ → 0 < t.listeners.length →
      ToldFirst viewer.name es →
      toldTo viewer.name (notices es) = assignments (.assigned tab :: es) :=
    fun hruns hlength hfirst =>
      (tellings_zero_of_toldFirst hfirst).symm.trans ((balanced_of_runs hruns).first hlength)
  refine ⟨fun Does tab t t' es hruns => ⟨balanced_of_runs hruns, fun hlength hfirst s hopen => ?_⟩,
    fun target t hwell => ?_⟩
  · have hfetches := tasks_switched hopen t' (notices es)
    rw [htold hruns hlength hfirst] at hfetches
    exact hfetches
  · obtain ⟨tab, htarget, -, es, hnotices, hruns⟩ := follows_switchWithin depthLimit target t hwell
    have hrun : Runs Listener.Does (begun tab t []) es ⟨(t.switch target).tabs, []⟩ := hruns []
    refine ⟨tab, es, htarget, hrun, hnotices, balanced_of_runs hrun, fun hheaded => ?_⟩
    have hlength : 0 < t.listeners.length := by
      obtain ⟨-, others, hothers, -⟩ := hheaded
      rw [hothers]
      exact Nat.succ_pos _
    have hfirst : toldTo viewer.name (t.switch target).notices =
        assignments (.assigned tab :: es) := by
      rw [← htold hrun hlength (toldFirst_of_runs (headed_begun hheaded tab) hrun), hnotices]
      rfl
    refine ⟨hfirst, fun s hopen htabs => ?_⟩
    have hfetches := tasks_switched hopen (t.switch target).tabs (t.switch target).notices
    rw [hfirst] at hfetches
    rw [step_switch_of_open hopen, htabs]
    exact hfetches

/-- A listener that leads back to the chat, between the viewer and one that takes note. -/
def withRouter : Tabs :=
  ⟨.chat, [viewer, ⟨"router", .switch (.string "chat")⟩, ⟨"log", .record⟩]⟩

/-- A session with these listeners. -/
def routed : Session :=
  { sample with state := { sample.state with tabs := withRouter } }

/-- The inspection is shown and left again at once: each listener is told of both tabs, and one
    fetch is issued. -/
theorem activations_of_router :
    (withRouter.switch (.string "inspect")).notices =
      [⟨"inspection", .inspect, .inspect⟩, ⟨"router", .inspect, .inspect⟩,
        ⟨"inspection", .chat, .chat⟩, ⟨"router", .chat, .chat⟩, ⟨"log", .chat, .chat⟩,
        ⟨"log", .inspect, .chat⟩] ∧
    (∃ es, Runs Listener.Does (begun .inspect withRouter []) es
        ⟨(withRouter.switch (.string "inspect")).tabs, []⟩ ∧
      assignments (.assigned .inspect :: es) = [.inspect, .chat] ∧
      Balanced 3 (.assigned .inspect :: es) ⟨.chat, withRouter.listeners⟩) ∧
    (routed.step (.switch (.string "inspect"))).tasks =
      [⟨"inspection-refresh", true, .queued (.fetch 1) false false, []⟩] := by
  obtain ⟨hall, hswitch⟩ := activations_of_switch
  obtain ⟨tab, es, htarget, hrun, -, hbalanced, hviewer⟩ :=
    hswitch (.string "inspect") withRouter rfl
  have hinspect : some Tab.inspect = some tab := Tab.ofValue?_eq_some_iff.mpr htarget
  obtain rfl : Tab.inspect = tab := Option.some.inj hinspect
  have hheaded : Headed viewer withRouter := ⟨rfl, _, rfl, by simp [viewer]⟩
  obtain ⟨hassigned, hsession⟩ := hviewer hheaded
  have htwo : assignments (.assigned .inspect :: es) = [.inspect, .chat] :=
    hassigned.symm.trans (by decide)
  obtain ⟨-, htasks, -⟩ := hsession routed rfl rfl
  rw [htwo] at htasks
  exact ⟨by decide, ⟨es, hrun, htwo, (hall _ _ _ _ _ hrun).1⟩, htasks⟩

end Session

end CodeSession
