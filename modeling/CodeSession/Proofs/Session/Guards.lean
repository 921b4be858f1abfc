import CodeSession.Proofs.Session.Tidy
import Mathlib.Logic.ExistsUnique

/-!
# Requests that exclude one another

Of the messages one at most is under way, and of the uploads. A flag in the state is raised when one
begins, and a call that finds it raised begins none.

* `Guard` -- such a kind of requests: which calls have one under way, the flag, how a run of a call
  may end one, and which ends leave the flag raised;
* `GuardRun` -- what a run of a call does to the request and the flag;
* `Guarded`, `guarded_play` -- the flag is raised while a request is under way, which is then the
  only one, and after an end that left it raised.
-/

namespace CodeSession.Session

open Backend Folder

/-! ## 1. Guards -/

section Run

variable (ticket? : Call → Option Nat) (flag : World → Prop) (lingers : Fate String → Bool)

/-- What a run of a call does to the requests: nothing, or one is under way after it, or one has
    ended. A request that is not the call's own is begun only while the flag is not raised. -/
inductive GuardRun (c : Call) (w : World) (r : Run) : Option (Fate String) → Prop where
  | apart (hc : ticket? c = none) (hn : r.next.continuation?.bind ticket? = none)
    (hp : flag r.state ↔ flag w) : GuardRun c w r none
  | underWay (hc : ticket? c = none → ¬flag w)
    (hn : (r.next.continuation?.bind ticket?).isSome = true) (hp : flag r.state) :
    GuardRun c w r none
  | ended (f : Fate String) (hc : ticket? c = none → ¬flag w)
    (hn : r.next.continuation?.bind ticket? = none) (hp : flag r.state ↔ lingers f = true) :
    GuardRun c w r (some f)

/-- A run of a call that is about something else. -/
theorem guardRun_of_kind {k : Kind} {c : Call} {w : World} {r : Run}
    (hticket : ∀ c n, ticket? c = some n → c.kind = k) (hk : c.kind ≠ k)
    (htame : ∀ p c', r.next = .pause p c' → c'.kind = c.kind ∧ c'.mayPause p = true)
    (hp : flag r.state ↔ flag w) : GuardRun ticket? flag lingers c w r none := by
  refine .apart ?_ ?_ hp
  · cases ht : ticket? c with
    | none => rfl
    | some n => exact absurd (hticket c n ht) hk
  · cases hn : r.next with
    | finish e => rfl
    | pause p c' =>
      cases ht : ticket? c' with
      | none => exact ht
      | some n => exact absurd ((htame p c' hn).1 ▸ hticket c' n ht) hk

end Run

/-- A kind of requests that exclude one another: the ticket of a call that has one under way, the
    flag, the end of a request in a run of a call, and the ends that leave the flag raised. -/
structure Guard where
  ticket? : Call → Option Nat
  flag : World → Prop
  fate? : Facts → Call → Wake → World → Option (Fate String)
  lingers : Fate String → Bool
  steady : Steady ticket?
  fresh : ∀ c, c.isFresh = true → ticket? c = none
  calm : ∀ s m s', Calm s m s' → (flag s'.state ↔ flag s.state)
  run : ∀ facts c wake w, w.tabs.listeners = [viewer] → ((ticket? c).isSome = true → flag w) →
    GuardRun ticket? flag lingers c w (behaviour facts c wake w) (fate? facts c wake w)
  start : ∀ client delay greeting files, ¬flag (World.start client delay greeting files)

namespace Guard

variable (g : Guard) (s : Session)

/-- Whether a call has a request under way. -/
def Holds (t : TaskId) : Prop :=
  (s.shown? g.ticket? t).isSome = true

/-- The end of a request that a move brings about. -/
def end? (m : Move) : Option (Fate String) :=
  match s.resumed? m with
  | some ⟨_, c, some wake⟩ => g.fate? s.facts c wake s.state
  | _ => none

variable {s} {s' : Session} {m : Move} {t : TaskId} {c : Call} {wake : Wake}

theorem holds_iff (h : s.continuation? t = some c) :
    g.Holds s t ↔ (g.ticket? c).isSome = true := by
  rw [Holds, Loop.shown?, h]
  exact Iff.rfl

theorem exists_of_holds (h : g.Holds s t) :
    ∃ c, s.continuation? t = some c ∧ (g.ticket? c).isSome = true := by
  obtain ⟨n, hn⟩ := Option.isSome_iff_exists.mp h
  obtain ⟨c, hc, _⟩ := Loop.shown?_eq_some_iff.mp hn
  exact ⟨c, hc, (g.holds_iff hc).mp h⟩

variable {g} in
theorem lt_of_holds (h : g.Holds s t) : t < s.tasks.length := by
  obtain ⟨c, hc, _⟩ := g.exists_of_holds h
  exact Loop.lt_of_continuation? hc

/-- A calm step neither begins nor ends a request. -/
theorem holds_calm (ht : Tidy s) (h : Calm s m s') (t : TaskId) : g.Holds s' t ↔ g.Holds s t := by
  rw [Holds, ht.shown_calm h g.steady g.fresh, Holds]

/-- The call that runs has a request under way after its run if it goes on with one. -/
theorem holds_run_self (h : s.resumption? = some ⟨t, c, some wake⟩) : g.Holds (s.step .turn) t ↔
    ((behaviour s.facts c wake s.state).next.continuation?.bind g.ticket?).isSome = true := by
  rw [Holds, step_turn, Loop.shown?_turned_self h]

/-- A run of a call leaves the requests of the others under way. -/
theorem holds_run_of_ne (ht : Tidy s) (h : s.resumption? = some ⟨t, c, some wake⟩) {u : TaskId}
    (hu : u ≠ t) : g.Holds (s.step .turn) u ↔ g.Holds s u := by
  rw [Holds, step_turn, Loop.shown?_turned_of_ne h hu, Holds]
  intro name k hk
  rw [(ht.tame c wake).spawns name k hk]
  exact g.fresh _ rfl

end Guard

/-! ## 2. The invariant -/

/-- The flag against the requests under way and the ends so far. -/
structure Guarded (g : Guard) (s : Session) (ends : List (Fate String)) : Prop where
  flag : ∀ t, g.Holds s t → g.flag s.state
  unique : ∀ t u, g.Holds s t → g.Holds s u → t = u
  left : (∃ f ∈ ends, g.lingers f = true) → g.flag s.state ∧ ∀ t, ¬g.Holds s t
  explained : g.flag s.state → (∃ t, g.Holds s t) ∨ ∃ f ∈ ends, g.lingers f = true

section Guarded

variable {g : Guard} {s s' : Session} {m : Move} {ends : List (Fate String)} {t : TaskId} {c : Call}

theorem Guarded.of_iff (hb : Guarded g s ends) (hu : ∀ i, g.Holds s' i ↔ g.Holds s i)
    (hp : g.flag s'.state ↔ g.flag s.state) : Guarded g s' ends where
  flag i hi := hp.mpr (hb.flag i ((hu i).mp hi))
  unique i j hi hj := hb.unique i j ((hu i).mp hi) ((hu j).mp hj)
  left h := ⟨hp.mpr (hb.left h).1, fun i hi => (hb.left h).2 i ((hu i).mp hi)⟩
  explained h := by
    rcases hb.explained (hp.mp h) with ⟨i, hi⟩ | h
    · exact .inl ⟨i, (hu i).mpr hi⟩
    · exact .inr h

/-- A call that has a request under way, or finds the flag not raised, is alone with it, and no end
    has left the flag raised. -/
theorem Guarded.alone (hb : Guarded g s ends) (ht : g.Holds s t ∨ ¬g.flag s.state) :
    (∀ i, g.Holds s i → i = t) ∧ ¬∃ f ∈ ends, g.lingers f = true := by
  rcases ht with ht | hp
  · exact ⟨fun i hi => hb.unique i t hi ht, fun h => (hb.left h).2 t ht⟩
  · exact ⟨fun i hi => absurd (hb.flag i hi) hp, fun h => hp (hb.left h).1⟩

/-- As long as no end has left it raised, the flag tells whether a request is under way. -/
theorem Guarded.flag_iff (hb : Guarded g s ends) (hno : ¬∃ f ∈ ends, g.lingers f = true) :
    g.flag s.state ↔ ∃! t, g.Holds s t := by
  constructor
  · intro hp
    obtain ⟨t, ht⟩ := (hb.explained hp).resolve_right hno
    exact ⟨t, ht, fun u hu => hb.unique u t hu ht⟩
  · rintro ⟨t, ht, _⟩
    exact hb.flag t ht

theorem Guarded.calm (hb : Guarded g s ends) (ht : Tidy s) (h : Calm s m s') :
    Guarded g s' ends :=
  hb.of_iff (g.holds_calm ht h) (g.calm s m s' h)

theorem Guarded.run {wake : Wake} (hb : Guarded g s ends) (ht : Tidy s)
    (h : s.resumption? = some ⟨t, c, some wake⟩) :
    Guarded g (s.step .turn) (ends ++ (g.fate? s.facts c wake s.state).toList) := by
  have hc : g.Holds s t ↔ (g.ticket? c).isSome = true :=
    g.holds_iff (Loop.Resumption.continuation?_eq h)
  have hrun := g.run s.facts c wake s.state ht.listeners fun hx => hb.flag t (hc.mpr hx)
  have hstate := state_of_run h
  have hself := g.holds_run_self h
  have hother : ∀ i, i ≠ t → (g.Holds (s.step .turn) i ↔ g.Holds s i) := fun i hi =>
    g.holds_run_of_ne ht h hi
  -- with a request of its own the call is alone
  have hfree : (g.ticket? c = none → ¬g.flag s.state) →
      (∀ i, i ≠ t → ¬g.Holds (s.step .turn) i) ∧ ¬∃ f ∈ ends, g.lingers f = true := by
    intro hfree
    have hown : g.Holds s t ∨ ¬g.flag s.state := by
      cases hx : g.ticket? c with
      | none => exact .inr (hfree hx)
      | some n => exact .inl (hc.mpr (by rw [hx]; rfl))
    obtain ⟨hall, hleft⟩ := hb.alone hown
    exact ⟨fun i hi hu => hi (hall i ((hother i hi).mp hu)), hleft⟩
  generalize g.fate? s.facts c wake s.state = fate at hrun
  cases hrun with
  | apart hx hn hp =>
    rw [Option.toList_none, List.append_nil]
    refine hb.of_iff (fun i => ?_) (by rw [hstate]; exact hp)
    by_cases hi : i = t
    · rw [hi, hself, hc, hn, hx]
    · exact hother i hi
  | underWay hx hn hp =>
    obtain ⟨hnone, hleft⟩ := hfree hx
    rw [Option.toList_none, List.append_nil]
    have hflag : g.flag (s.step .turn).state := by rw [hstate]; exact hp
    have honly : ∀ i, g.Holds (s.step .turn) i → i = t := fun i hu => by
      by_cases hi : i = t
      · exact hi
      · exact absurd hu (hnone i hi)
    exact ⟨fun _ _ => hflag, fun i j hi hj => (honly i hi).trans (honly j hj).symm,
      fun h => absurd h hleft, fun _ => .inl ⟨t, hself.mpr hn⟩⟩
  | ended f hx hn hp =>
    obtain ⟨hnone, hleft⟩ := hfree hx
    rw [Option.toList_some]
    have hends : ∀ i, ¬g.Holds (s.step .turn) i := fun i hu => by
      by_cases hi : i = t
      · rw [hi, hself, hn] at hu
        cases hu
      · exact hnone i hi hu
    have hflag : g.flag (s.step .turn).state ↔ g.lingers f = true := by
      rw [hstate]
      exact hp
    refine ⟨fun i hi => absurd hi (hends i), fun i j hi => absurd hi (hends i), fun h => ?_,
      fun h => .inr ⟨f, by simp, hflag.mp h⟩⟩
    obtain ⟨f', hf, hl⟩ := h
    rcases List.mem_append.mp hf with hf | hf
    · exact absurd ⟨f', hf, hl⟩ hleft
    · obtain rfl := List.mem_singleton.mp hf
      exact ⟨hflag.mpr hl, hends⟩

theorem Guard.end?_of_calm (h : Calm s m s') : g.end? s m = none := by
  unfold Guard.end?
  split
  · rename_i hr
    cases h.wake _ hr
  · rfl

theorem Guard.end?_of_run {wake : Wake} (h : s.resumption? = some ⟨t, c, some wake⟩) :
    g.end? s .turn = g.fate? s.facts c wake s.state := by
  simp only [Guard.end?, resumed?, h]

/-- A move that ends a request runs a call. -/
theorem Guard.exists_run_of_end? {f : Fate String} (h : g.end? s m = some f) :
    m = .turn ∧ ∃ t c wake, s.resumption? = some ⟨t, c, some wake⟩ ∧
      g.fate? s.facts c wake s.state = some f := by
  unfold Guard.end? at h
  split at h
  · rename_i t c wake hr
    obtain rfl := turn_of_resumed? hr
    exact ⟨rfl, t, c, wake, hr, h⟩
  · cases h

/-- **Every step keeps the flag in line with the requests.** -/
theorem guarded_step (hb : Guarded g s ends) (ht : Tidy s) (m : Move) :
    Guarded g (s.step m) (ends ++ (g.end? s m).toList) := by
  rcases calm_or_run ht.listeners m with h | ⟨rfl, t, c, wake, h⟩
  · rw [Guard.end?_of_calm h, Option.toList_none, List.append_nil]
    exact hb.calm ht h
  · rw [Guard.end?_of_run h]
    exact hb.run ht h

/-- **After every run the flag is in line with the requests.** -/
theorem guarded_play (g : Guard) (client : Client) (delay : Binary64) (greeting : Option String)
    (files : FileSystem) (ms : List Move) :
    Guarded g ((opened client delay greeting files).play ms)
      (log g.end? (opened client delay greeting files) ms) := by
  have hnone : ∀ t, ¬g.Holds (opened client delay greeting files) t := fun t h =>
    absurd (Guard.lt_of_holds h) (Nat.not_lt_zero t)
  have hstart : Guarded g (opened client delay greeting files) [] :=
    ⟨fun t h => absurd h (hnone t), fun t u h => absurd h (hnone t),
      fun ⟨_, h, _⟩ => absurd h List.not_mem_nil,
      fun h => absurd h (g.start client delay greeting files)⟩
  refine (play_log_induction (P := fun s ends => Tidy s ∧ Guarded g s ends)
    ⟨tidy_opened client delay greeting files, hstart⟩ (fun s ends m h => ?_) ms).2
  exact ⟨tidy_step h.1 m, guarded_step h.2 h.1 m⟩

end Guarded

end CodeSession.Session
