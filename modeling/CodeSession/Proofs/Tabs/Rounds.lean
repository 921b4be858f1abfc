import CodeSession.Tabs

/-!
# Switches within switches

Switches told step by step, whatever the listeners do that raise nothing. One that is told of a tab
may subscribe others and switch any number of times before it returns; each switch goes once along
the list of the listeners, which grows under way, and the switches that have not returned stand on
one another.

* `Deed`, `Event` -- what a listener may do when it is told of a tab, and what happens;
* `Round`, `Scene`, `Step`, `Runs` -- a switch that has not returned, the tabs with all such
  switches, a step of them and a run;
* `owed`, `Accounted` -- each switch that has not returned owes a notice to the listeners that it
  has yet to reach, and to each listener what was assigned was told or is owed;
* `accounted_step`, `accounted_runs` -- every step keeps the account, and so does every run;
* `balanced_of_runs` -- once all have returned, each listener was told of every assignment once, and
  the first one in the order of the assignments.
-/

namespace CodeSession.Tabs

/-! ## 1. Steps -/

/-- A thing that a listener does when it is told of a tab. -/
inductive Deed where
  | subscribe (l : Listener)
  | switch (target : Tab)

/-- What happens: a switch begins and assigns its tab, or the listener at a place is told. -/
inductive Event where
  | assigned (tab : Tab)
  | told (place : Nat) (notice : Notice)

/-- A switch that has not returned: its tab, the place of the listener that it tells next, and what
    the one that it told last has still to do. -/
structure Round where
  tab : Tab
  next : Nat
  deeds : List Deed

/-- The tabs with the switches that have not returned, the innermost first. -/
structure Scene where
  tabs : Tabs
  rounds : List Round

/-- The scene in which a switch has just begun. -/
def begun (tab : Tab) (t : Tabs) (rounds : List Round) : Scene :=
  ⟨{ t with active := tab }, ⟨tab, 0, []⟩ :: rounds⟩

/-- A step, given what listeners may do when they are told of a tab. The innermost switch goes on:
    its listener does the next of its deeds, or the next listener is told, or there is none left. -/
inductive Step (Does : Listener → Tab → List Deed → Prop) : Scene → List Event → Scene → Prop where
  | tell {t : Tabs} {tab : Tab} {next : Nat} {rounds : List Round} {l : Listener} {ds : List Deed}
      (hnext : t.listeners[next]? = some l) (hdoes : Does l tab ds) :
      Step Does ⟨t, ⟨tab, next, []⟩ :: rounds⟩ [.told next ⟨l.name, tab, t.active⟩]
        ⟨t, ⟨tab, next + 1, ds⟩ :: rounds⟩
  | subscribe {t : Tabs} {tab : Tab} {next : Nat} {rounds : List Round} {l : Listener}
      {ds : List Deed} :
      Step Does ⟨t, ⟨tab, next, .subscribe l :: ds⟩ :: rounds⟩ []
        ⟨t.subscribe l, ⟨tab, next, ds⟩ :: rounds⟩
  | switch {t : Tabs} {tab target : Tab} {next : Nat} {rounds : List Round} {ds : List Deed} :
      Step Does ⟨t, ⟨tab, next, .switch target :: ds⟩ :: rounds⟩ [.assigned target]
        (begun target t (⟨tab, next, ds⟩ :: rounds))
  | finish {t : Tabs} {tab : Tab} {next : Nat} {rounds : List Round}
      (hend : t.listeners.length ≤ next) :
      Step Does ⟨t, ⟨tab, next, []⟩ :: rounds⟩ [] ⟨t, rounds⟩

/-- A run, with what happens in it. -/
inductive Runs (Does : Listener → Tab → List Deed → Prop) : Scene → List Event → Scene → Prop where
  | nil (x : Scene) : Runs Does x [] x
  | cons {x y z : Scene} {es es' : List Event} (h : Step Does x es y) (hs : Runs Does y es' z) :
      Runs Does x (es ++ es') z

variable {Does : Listener → Tab → List Deed → Prop} {x y z : Scene} {es es' : List Event}

theorem Runs.single (h : Step Does x es y) : Runs Does x es y :=
  List.append_nil es ▸ .cons h (.nil y)

theorem Runs.append (h : Runs Does x es y) (h' : Runs Does y es' z) :
    Runs Does x (es ++ es') z := by
  induction h with
  | nil x => exact h'
  | cons hs _ ih => exact List.append_assoc _ _ es' ▸ .cons hs (ih h')

/-! ## 2. What happens -/

/-- The tab that is assigned. -/
def Event.assigned? : Event → Option Tab
  | .assigned tab => some tab
  | _ => none

/-- The tab that the listener at a place is told of. -/
def Event.told? (place : Nat) : Event → Option Tab
  | .told p notice => if p = place then some notice.tab else none
  | _ => none

/-- The notice that is given. -/
def Event.notice? : Event → Option Notice
  | .told _ notice => some notice
  | _ => none

/-- The tabs that are assigned, in order: one for each switch that begins. -/
def assignments (es : List Event) : List Tab :=
  es.filterMap Event.assigned?

/-- The tabs that the listener at a place is told of, in order. -/
def tellings (place : Nat) (es : List Event) : List Tab :=
  es.filterMap (Event.told? place)

/-- The notices that are given, in order. -/
def notices (es : List Event) : List Notice :=
  es.filterMap Event.notice?

@[simp] theorem assignments_append (es es' : List Event) :
    assignments (es ++ es') = assignments es ++ assignments es' :=
  List.filterMap_append

@[simp] theorem tellings_append (place : Nat) (es es' : List Event) :
    tellings place (es ++ es') = tellings place es ++ tellings place es' :=
  List.filterMap_append

@[simp] theorem notices_append (es es' : List Event) :
    notices (es ++ es') = notices es ++ notices es' :=
  List.filterMap_append

@[simp] theorem tellings_told (place next : Nat) (n : Notice) :
    tellings place [.told next n] = if next = place then [n.tab] else [] := by
  by_cases h : next = place <;> simp [tellings, Event.told?, h]

/-! ## 3. The account -/

/-- The tabs that the switches which have not returned owe to the listener at a place: they have yet
    to reach it. -/
def owed (place : Nat) (rounds : List Round) : List Tab :=
  (rounds.filter fun r => r.next ≤ place).map Round.tab

theorem owed_cons (place : Nat) (r : Round) (rounds : List Round) :
    owed place (r :: rounds) =
      (if r.next ≤ place then [r.tab] else []) ++ owed place rounds := by
  by_cases h : r.next ≤ place <;> simp [owed, h]

/-- A listener that is told is owed one notice less. -/
theorem tellings_append_owed (place : Nat) (es : List Event) (l : Listener) (t : Tabs) (tab : Tab)
    (next : Nat) (ds : List Deed) (rounds : List Round) :
    tellings place (es ++ [.told next ⟨l.name, tab, t.active⟩]) ++
        owed place (⟨tab, next + 1, ds⟩ :: rounds) =
      tellings place es ++ owed place (⟨tab, next, []⟩ :: rounds) := by
  rw [tellings_append, tellings_told, owed_cons, owed_cons, List.append_assoc]
  by_cases h : next = place
  · simp [h]
  · have hreach : next + 1 ≤ place ↔ next ≤ place := by omega
    simp [h, hreach]

/-- Nothing is owed to the first listener if all switches have gone past it. -/
theorem owed_zero {rounds : List Round} (h : ∀ r ∈ rounds, r.next ≠ 0) : owed 0 rounds = [] := by
  have hnone : (rounds.filter fun r => r.next ≤ 0) = [] :=
    List.filter_eq_nil_iff.mpr fun r hr => by simpa using h r hr
  rw [owed, hnone, List.map_nil]

/-- The account of what happened since the first of the switches began, with so many listeners. What
    was assigned was told to a listener or is owed to it. A switch begins only when another has told
    a listener, so at most the innermost one owes a notice to the first. -/
structure Accounted (n : Nat) (es : List Event) (x : Scene) : Prop where
  known : n ≤ x.tabs.listeners.length
  told : ∀ place < n, (assignments es).Perm (tellings place es ++ owed place x.rounds)
  first : 0 < n → assignments es = tellings 0 es ++ owed 0 x.rounds
  idle : ∀ r ∈ x.rounds, r.next = 0 → r.deeds = []
  outer : ∀ r ∈ x.rounds.tail, r.next ≠ 0
  active : (assignments es).getLast? = some x.tabs.active

theorem accounted_begun (tab : Tab) (t : Tabs) :
    Accounted t.listeners.length [.assigned tab] (begun tab t []) where
  known := Nat.le_refl _
  told _ _ := .refl _
  first _ := rfl
  idle r hr _ := by
    rw [List.mem_singleton.mp hr]
  outer r hr := by cases hr
  active := rfl

/-- **Every step keeps the account.** -/
theorem accounted_step {n : Nat} (h : Accounted n es x) (hs : Step Does x es' y) :
    Accounted n (es ++ es') y := by
  obtain ⟨hknown, htold, hfirst, hidle, houter, hactive⟩ := h
  cases hs with
  | @tell t tab next rounds l ds hnext hdoes =>
    have hsame := fun place => tellings_append_owed place es l t tab next ds rounds
    have hassigned : assignments (es ++ [.told next ⟨l.name, tab, t.active⟩]) = assignments es := by
      rw [assignments_append]
      exact List.append_nil _
    constructor
    case known => exact hknown
    case told =>
      intro place hplace
      rw [hassigned, hsame]
      exact htold place hplace
    case first =>
      intro hn
      rw [hassigned, hsame]
      exact hfirst hn
    case idle =>
      intro r hr hzero
      rcases List.mem_cons.mp hr with rfl | hr
      · cases hzero
      · exact hidle r (List.mem_cons_of_mem _ hr) hzero
    case outer => exact houter
    case active =>
      rw [hassigned]
      exact hactive
  | @subscribe t tab next rounds l ds =>
    rw [List.append_nil]
    constructor
    case known => exact Nat.le_trans hknown (List.sublist_append_left _ [l]).length_le
    case told => simpa only [owed_cons] using htold
    case first => simpa only [owed_cons] using hfirst
    case idle =>
      intro r hr hzero
      rcases List.mem_cons.mp hr with rfl | hr
      · cases hidle _ List.mem_cons_self hzero
      · exact hidle r (List.mem_cons_of_mem _ hr) hzero
    case outer => exact houter
    case active => exact hactive
  | @switch t tab target next rounds ds =>
    have hassigned : assignments (es ++ [.assigned target]) = assignments es ++ [target] :=
      assignments_append _ _
    have htellings : ∀ place, tellings place (es ++ [.assigned target]) = tellings place es :=
      fun place => (tellings_append _ _ _).trans (List.append_nil _)
    have howed : ∀ place, owed place (⟨tab, next, .switch target :: ds⟩ :: rounds) =
        owed place (⟨tab, next, ds⟩ :: rounds) := fun place => by rw [owed_cons, owed_cons]
    -- the listener that switches has been told
    have hpast : ∀ r ∈ (⟨tab, next, ds⟩ :: rounds : List Round), r.next ≠ 0 := by
      intro r hr
      rcases List.mem_cons.mp hr with rfl | hr
      · exact fun hzero => by cases hidle _ List.mem_cons_self hzero
      · exact houter r hr
    constructor
    case known => exact hknown
    case told =>
      intro place hplace
      have hperm := (htold place hplace).append_right [target]
      rw [howed, List.append_assoc] at hperm
      rw [hassigned, htellings]
      exact hperm.trans (List.Perm.append_left _ (List.perm_append_singleton _ _))
    case first =>
      intro hn
      have hequal := hfirst hn
      rw [howed, owed_zero hpast, List.append_nil] at hequal
      show _ = _ ++ owed 0 (⟨target, 0, []⟩ :: ⟨tab, next, ds⟩ :: rounds)
      rw [hassigned, htellings, owed_cons, owed_zero hpast, hequal]
      rfl
    case idle =>
      intro r hr hzero
      rcases List.mem_cons.mp hr with rfl | hr
      · rfl
      · exact absurd hzero (hpast r hr)
    case outer => exact hpast
    case active => rw [hassigned, List.getLast?_concat]; rfl
  | @finish t tab next rounds hend =>
    rw [List.append_nil]
    have howed : ∀ place < n, owed place (⟨tab, next, []⟩ :: rounds) = owed place rounds := by
      intro place hplace
      have hpast : ¬next ≤ place :=
        Nat.not_le.mpr (Nat.lt_of_lt_of_le hplace (Nat.le_trans hknown hend))
      rw [owed_cons, if_neg hpast, List.nil_append]
    constructor
    case known => exact hknown
    case told =>
      intro place hplace
      rw [← howed place hplace]
      exact htold place hplace
    case first =>
      intro hn
      rw [← howed 0 hn]
      exact hfirst hn
    case idle => exact fun r hr => hidle r (List.mem_cons_of_mem _ hr)
    case outer => exact fun r hr => houter r (List.mem_of_mem_tail hr)
    case active => exact hactive

/-- **Every run keeps the account.** -/
theorem accounted_runs {n : Nat} (h : Accounted n es x) (hs : Runs Does x es' y) :
    Accounted n (es ++ es') y := by
  induction hs generalizing es with
  | nil x =>
    rw [List.append_nil]
    exact h
  | cons hstep _ ih =>
    rw [← List.append_assoc]
    exact ih (accounted_step h hstep)

/-! ## 4. Switches that have returned -/

/-- What happened, settled with so many listeners: each was told of every tab that was assigned,
    once for each assignment, the first of them in the order of the assignments, of which the last
    is active. -/
structure Balanced (n : Nat) (es : List Event) (t : Tabs) : Prop where
  told : ∀ place < n, (tellings place es).Perm (assignments es)
  first : 0 < n → tellings 0 es = assignments es
  active : (assignments es).getLast? = some t.active

/-- **A switch that has returned has settled its account**, with all that were begun in it. -/
theorem balanced_of_runs {tab : Tab} {t t' : Tabs} (h : Runs Does (begun tab t []) es ⟨t', []⟩) :
    Balanced t.listeners.length (.assigned tab :: es) t' := by
  obtain ⟨-, htold, hfirst, -, -, hactive⟩ := accounted_runs (accounted_begun tab t) h
  have hnone : ∀ place, owed place [] = [] := fun _ => rfl
  simp only [hnone, List.append_nil] at htold hfirst
  exact ⟨fun place hplace => (htold place hplace).symm, fun hn => (hfirst hn).symm, hactive⟩

end CodeSession.Tabs
