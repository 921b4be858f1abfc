import CodeSession.Proofs.Loop.Timing
import CodeSession.Proofs.Session.Returns

/-!
# The time of the return to the chat

A return to the chat that a success schedules comes when its delay has passed, unless an upload is
taken up or the session is closed before.

* `Passes`, `passes_of_returns` -- what a move does to a return to the chat that it does not call
  off;
* `Prompt` -- a run in which the clock does not run ahead of the returns to the chat;
  `mayWait_of_idle` says that a clock which moves only while nothing is to be done, and from timer
  to timer, does not;
* `Journey`, `Journey.step` -- how far a return has come and at which times;
* `return_of_success` -- what becomes of every return, for every run.
-/

namespace CodeSession.Session

open Backend Folder

variable {s s' : Session} {m : Move} {t u : TaskId} {c : Call} {wake : Wake}
  {ends : List (Fate String)} {ms ns : List Move}

/-! ## 1. The clock of a session -/

/-- A move that is no turn and no wait leaves the timers alone. -/
theorem untimed_step (s : Session) (hm : m ≠ .turn) (hw : ∀ ticks, m ≠ .wait ticks) :
    Loop.Untimed s (s.step m) := by
  cases m with
  | turn => exact absurd rfl hm
  | switch target =>
    exact Loop.untimed_perform
      (fun facts w => let r := switchTab facts.closed target w; (r.1, r.2.1)) s
  | launch d => exact Loop.untimed_add _ _ _ s
  | revoke u =>
    show Loop.Untimed s (s.revoke u)
    unfold revoke
    split
    · exact Loop.untimed_cancel u s
    · exact .refl s
  | answer u r =>
    show Loop.Untimed s (s.answer u r)
    unfold answer
    split
    · exact Loop.untimed_signal u _ s
    · exact .refl s
  | read u selected =>
    show Loop.Untimed s (s.deliver u selected)
    unfold deliver
    split
    · exact Loop.untimed_signal u _ s
    · exact .refl s
  | wait ticks => exact absurd rfl (hw ticks)
  | _ => exact .of_tasks_eq rfl rfl rfl rfl

theorem clocked_step (h : Loop.Clocked s) (m : Move) : Loop.Clocked (s.step m) := by
  cases m with
  | turn => exact h.turned behaviour
  | wait ticks => exact h.fireAt (Nat.le_add_right _ _)
  | _ => exact h.untimed (untimed_step s (fun e => by cases e) fun ticks e => by cases e)

theorem clocked_play (client : Client) (delay : Binary64) (greeting : Option String)
    (files : FileSystem) (ms : List Move) :
    Loop.Clocked ((opened client delay greeting files).play ms) := by
  refine play_induction (P := Loop.Clocked)
    ⟨fun t k time rank h => ?_, fun t rank h => ?_, fun t k time rank h => ?_⟩
    (fun _ m h => clocked_step h m) ms
  · exact absurd (Loop.lt_of_stage? h) (Nat.not_lt_zero t)
  · cases h
  · exact absurd (Loop.lt_of_stage? h) (Nat.not_lt_zero t)

/-- The clock stands still but for a wait. -/
theorem now_step (s : Session) (hw : ∀ ticks, m ≠ .wait ticks) : (s.step m).now = s.now := by
  by_cases hm : m = .turn
  · subst hm
    exact Loop.now_turned behaviour s
  · exact (untimed_step s hm hw).now

theorem now_le_step (s : Session) (m : Move) : s.now ≤ (s.step m).now := by
  cases m with
  | wait ticks => exact Nat.le_add_right _ _
  | _ => exact Nat.le_of_eq (now_step s fun ticks e => by cases e).symm

theorem delay_heedAll (notices : List Notice) (w : World) :
    (heedAll w notices).1.delay = w.delay := by
  induction notices generalizing w with
  | nil => rfl
  | cons n notices ih =>
    refine (ih (heed w n).1).trans ?_
    unfold heed
    split <;> rfl

/-- The delay of the return to the chat is set once and for all. -/
theorem delay_step (ht : Tidy s) (m : Move) : (s.step m).state.delay = s.state.delay := by
  rcases calm_or_run ht.listeners m with hc | ⟨rfl, u, c, wake, hrun⟩
  · rw [hc.state]
    cases m with
    | switch target =>
      show (switchTab s.closed target s.state).1.delay = _
      unfold switchTab
      split
      · rfl
      · exact delay_heedAll _ _
    | _ => rfl
  · rw [state_of_run hrun]
    have htouches : Touches c.kind s.state (behaviour s.facts c wake s.state).state :=
      touches_behaviour c wake ht.listeners
    generalize (behaviour s.facts c wake s.state).state = w at htouches ⊢
    generalize c.kind = k at htouches
    cases htouches <;> rfl

theorem delay_play (client : Client) (delay : Binary64) (greeting : Option String)
    (files : FileSystem) (ms : List Move) :
    ((opened client delay greeting files).play ms).state.delay = delay :=
  (play_induction (P := fun s => Tidy s ∧ s.state.delay = delay)
    ⟨tidy_opened client delay greeting files, rfl⟩
    (fun _ m h => ⟨tidy_step h.1 m, (delay_step h.1 m).trans h.2⟩) ms).2

/-! ## 2. What a move does to a return to the chat -/

/-- How a return to the chat stands after a move that does not call it off. -/
inductive Passes (s : Session) (m : Move) (t : TaskId) : Prop where
  | still (h : (s.step m).stage? t = s.stage? t)
  | sleeps (hm : m = .turn) (hs : s.stage? t = some (.queued .navigate false false)) (rank : Nat)
    (h : (s.step m).stage? t = some (.waiting .navigating
      (.timer ((Loop.ticksOf s.state.delay).map (s.now + ·)) rank)))
  | called (hm : m = .turn) (hs : s.stage? t = some (.queued .navigate false false))
    (hdelay : Loop.ticksOf s.state.delay = some 0)
    (h : (s.step m).stage? t = some (.queued .navigating true false))
  | woken (hm : m = .turn) (due : Option Nat) (rank : Nat)
    (hs : s.stage? t = some (.waiting .navigating (.timer due rank)))
    (hexpired : .expired t rank ∈ s.ready)
    (h : (s.step m).stage? t = some (.queued .navigating true false))
  | carriedOut (h : s.backToChat? m = some t)

/-- A move that is no turn leaves the returns to the chat where they stand. -/
theorem stage?_step_of_returns (ht : Tidy s) (h : s.Returns t) (hm : m ≠ .turn) :
    (s.step m).stage? t = s.stage? t := by
  have hlt := h.lt
  have hsignal : ∀ c, s.stage? t ≠ some (.waiting c .signal) := by
    intro c hs
    rcases h.stage ht with e | ⟨due, rank, e⟩ | e <;> rw [hs] at e <;> cases e
  have hgive : ∀ u f, (Loop.signal u f s).stage? t = s.stage? t := by
    intro u f
    unfold Loop.signal
    split
    · rename_i c hu
      have hne : t ≠ u := by
        rintro rfl
        exact hsignal c hu
      rw [Loop.stage?_push, Loop.stage?_move, if_neg hne]
    · rfl
  cases m with
  | turn => exact absurd rfl hm
  | switch target =>
    have hno := cancel_notMem_switchTab s.closed target s.state t
    exact Loop.stage?_foldl_obey_of_notMem
      (l := { s with state := (switchTab s.closed target s.state).1 }) hlt hno
  | launch d => exact (Loop.stage?_add _ _ _ s t).trans (if_neg (Nat.ne_of_lt hlt))
  | revoke u =>
    show (s.revoke u).stage? t = s.stage? t
    unfold revoke
    split
    · rename_i hrev
      have hne : t ≠ u := by
        rintro rfl
        obtain ⟨⟨c, hc, hk⟩, _⟩ := h
        rw [hc] at hrev
        have hbackground := Call.isBackground_of_isRevocable hrev
        rw [hk] at hbackground
        cases hbackground
      rw [Loop.stage?_cancel, if_neg hne]
    · rfl
  | answer u r =>
    show (s.answer u r).stage? t = s.stage? t
    unfold answer
    split
    · exact hgive u _
    · rfl
  | read u selected =>
    show (s.deliver u selected).stage? t = s.stage? t
    unfold deliver
    split
    · exact hgive u _
    · rfl
  | _ => rfl

/-- A turn that runs no call leaves them there, or one is woken as its timer has run out. -/
theorem passes_of_calm (ht : Tidy s) (h : s.Returns t) (hc : Calm s .turn (s.step .turn)) :
    Passes s .turn t := by
  cases hr : s.resumption? with
  | none =>
    rcases h.stage ht with hs | ⟨due, rank, hs⟩ | hs
    · obtain ⟨st', hs', hst⟩ := (Loop.rests_turned (b := behaviour) hr).stage t _ hs
      cases hst
      exact .still (hs'.trans hs.symm)
    · rcases Loop.stage?_turned_of_timer (b := behaviour) hr hs with hs' | ⟨hexpired, hs'⟩
      · exact .still (hs'.trans hs.symm)
      · exact .woken rfl due rank hs hexpired hs'
    · obtain ⟨st', hs', hst⟩ := (Loop.rests_turned (b := behaviour) hr).stage t _ hs
      cases hst
      exact .still (hs'.trans hs.symm)
  | some r =>
    obtain ⟨u, c, w⟩ := r
    obtain rfl : w = none := hc.wake _ hr
    -- the call that is dropped was cancelled
    have hne : t ≠ u := by
      rintro rfl
      obtain ⟨_, begun, cancelled, hs, hw⟩ := Loop.resumption?_eq_some_iff.mp hr
      cases cancelled with
      | true => exact h.2 c begun hs
      | false => cases begun <;> cases hw
    refine .still ?_
    rw [step_turn, Loop.turned_of_drop hr, Loop.stage?_finish, if_neg hne]
    rfl

/-- A run of another call cancels a return to the chat only if an upload is taken up or the session
    closed. -/
theorem stage?_run_of_returns (ht : Tidy s) (hb : Guarded uploads s ends) (h : s.Returns t)
    (hrun : s.resumption? = some ⟨u, c, some wake⟩) (hne : t ≠ u) (hup : s.upload? .turn = none)
    (hopen : (s.step .turn).closed = false) : (s.step .turn).stage? t = s.stage? t := by
  have hseal : .seal ∉ (behaviour s.facts c wake s.state).orders := fun hseal => by
    rw [(closed_of_run hrun).mpr (.inr hseal)] at hopen
    cases hopen
  have hno : .cancel t ∉ (behaviour s.facts c wake s.state).orders := by
    intro hmem
    have hingest := ingestRun_of_run ht hb hrun
    rw [upload?_of_run hrun] at hup
    generalize accepts c wake (behaviour s.facts c wake s.state) = begins at hingest hup
    generalize uploadFate? s.facts c wake s.state = f at hingest
    cases hingest with
    | aside f hc hf hstatus hnavigation hcancel hspawn hnext hover => exact hseal (hcancel t hmem)
    | home hc hwake hingest horders hover =>
      rw [horders] at hmem
      cases hmem
    | begun f hc hfree hstatus hnavigation horders hnext hover => cases hup
    | ended f hc hbusy hstatus hnavigation horders hover =>
      rw [horders] at hmem
      unfold returnOrders at hmem
      split at hmem
      · cases List.mem_singleton.mp hmem
      · cases hmem
  rw [step_turn, Loop.turned_of_run hrun, Loop.stage?_runTask_of_ne hne,
    Loop.stage?_ordered_of_notMem (l := s.popped) h.lt hno]
  rfl

/-- **A return to the chat passes from stage to stage**, unless an upload is taken up or the session
    closed. -/
theorem passes_of_returns (ht : Tidy s) (hb : Guarded uploads s ends) (h : s.Returns t) (m : Move)
    (hup : s.upload? m = none) (hopen : (s.step m).closed = false) : Passes s m t := by
  by_cases hm : m = .turn
  · subst hm
    rcases calm_or_run ht.listeners .turn with hc | ⟨_, u, c, wake, hrun⟩
    · exact passes_of_calm ht h hc
    · by_cases hne : t = u
      · subst hne
        obtain ⟨_, begun, cancelled, hs, hw⟩ := Loop.resumption?_eq_some_iff.mp hrun
        have hself := Loop.stage?_turned_self (b := behaviour) hrun
        rcases h.stage ht with hs' | ⟨due, rank, hs'⟩ | hs'
        · rw [hs] at hs'
          cases hs'
          cases hw
          -- the call goes to sleep, or is called at once
          have hpaused : (s.step .turn).stage? t = some (Loop.paused
            (.sleep (Loop.ticksOf s.state.delay)) Call.navigating
            (s.popped.ordered behaviour .navigate .go)) := hself
          cases hdelay : Loop.ticksOf s.state.delay with
          | none =>
            rw [hdelay] at hpaused
            exact .sleeps rfl hs s.armed (by rw [hdelay]; exact hpaused)
          | some ticks =>
            rw [hdelay] at hpaused
            cases ticks with
            | zero => exact .called rfl hs hdelay hpaused
            | succ ticks => exact .sleeps rfl hs s.armed (by rw [hdelay]; exact hpaused)
        · rw [hs] at hs'
          cases hs'
        · rw [hs] at hs'
          cases hs'
          cases hw
          exact .carriedOut (by simp only [backToChat?, resumed?, hrun])
      · exact .still (stage?_run_of_returns ht hb h hrun hne hup hopen)
  · exact .still (stage?_step_of_returns ht h hm)

/-! ## 3. Runs in which the clock waits -/

/-- Whether the clock may move on by so many ticks without running ahead of the returns to the chat:
    none is queued, and the timer of none is passed over. -/
def MayWait (s : Session) (ticks : Nat) : Prop :=
  ∀ t, s.Returns t → ∃ due rank, s.stage? t = some (.waiting .navigating (.timer due rank)) ∧
    ∀ time, due = some time → s.now + ticks ≤ time

/-- Whether the clock never runs ahead of the returns to the chat in a run. -/
def Prompt : Session → List Move → Prop
  | _, [] => True
  | s, m :: ms => (∀ ticks, m = .wait ticks → s.MayWait ticks) ∧ Prompt (s.step m) ms

/-- A run without waits is prompt. -/
theorem prompt_of_noWait (h : ∀ ticks, .wait ticks ∉ ms) : Prompt s ms := by
  induction ms generalizing s with
  | nil => trivial
  | cons m ms ih =>
    refine ⟨fun ticks e => ?_, ih fun ticks hmem => h ticks (List.mem_cons_of_mem _ hmem)⟩
    exact absurd (e ▸ List.mem_cons_self) (h ticks)

theorem prompt_append : Prompt s (ms ++ ns) ↔ Prompt s ms ∧ Prompt (s.play ms) ns := by
  induction ms generalizing s with
  | nil => exact (true_and _).symm.to_iff
  | cons m ms ih =>
    show _ ∧ Prompt (s.step m) (ms ++ ns) ↔ (_ ∧ Prompt (s.step m) ms) ∧ _
    rw [ih, and_assoc]
    rfl

/-- A run that waits once, and no longer than the return to the chat that is under way sleeps, is
    prompt. -/
theorem prompt_of_sleeping {due : Option Nat} {rank ticks : Nat} (hn : Noted (s.play ms))
    (hs : (s.play ms).stage? t = some (.waiting .navigating (.timer due rank)))
    (hle : ∀ time, due = some time → (s.play ms).now + ticks ≤ time)
    (hms : ∀ ticks, .wait ticks ∉ ms) (hns : ∀ ticks, .wait ticks ∉ ns) :
    Prompt s (ms ++ .wait ticks :: ns) := by
  refine prompt_append.mpr ⟨prompt_of_noWait hms, ?_, prompt_of_noWait hns⟩
  rintro _ ⟨⟩ u hu
  obtain rfl := hn.unique hu (returns_of_stage hs rfl rfl fun _ _ e => by cases e)
  exact ⟨due, rank, hs, hle⟩

theorem stage?_ne_queued_of_idle (ht : Tidy s) (hidle : s.ready = []) (c : Call)
    (begun cancelled : Bool) : s.stage? t ≠ some (.queued c begun cancelled) := by
  intro hs
  have hmem := ht.lined.queued t c begun cancelled hs
  rw [hidle] at hmem
  cases hmem

/-- **A clock that moves only while nothing is to be done, and no further than to the next timer,
    does not run ahead.** -/
theorem mayWait_of_idle {ticks : Nat} (ht : Tidy s) (hidle : s.ready = [])
    (hnext : ∀ first, s.nextDue = some first → s.now + ticks ≤ first) : s.MayWait ticks := by
  intro t h
  have hqueued := stage?_ne_queued_of_idle (t := t) ht hidle
  rcases h.stage ht with hs | ⟨due, rank, hs⟩ | hs
  · exact absurd hs (hqueued _ _ _)
  · refine ⟨due, rank, hs, ?_⟩
    rintro time rfl
    obtain ⟨first, hfirst, hle⟩ := Loop.exists_nextDue_le hs
    have hwait := hnext first hfirst
    omega
  · exact absurd hs (hqueued _ _ _)

/-! ## 4. The journey of a return -/

/-- How far a return to the chat has come that was scheduled at a time, and the times. If the clock
    is prompt it is where it should be. -/
inductive Journey (t : TaskId) (start : Nat) (delay : Option Nat) (prompt : Prop) (s : Session) :
    Prop where
  | settingOut (hs : s.stage? t = some (.queued .navigate false false)) (hle : start ≤ s.now)
    (hprompt : prompt → s.now = start)
  | sleeping (since rank : Nat)
    (hs : s.stage? t = some (.waiting .navigating (.timer (delay.map (since + ·)) rank)))
    (hle : start ≤ since)
    (hprompt : prompt → since = start ∧ ∀ ticks, delay = some ticks → s.now ≤ start + ticks)
  | called (ticks : Nat) (hs : s.stage? t = some (.queued .navigating true false))
    (hdelay : delay = some ticks) (hle : start + ticks ≤ s.now)
    (hprompt : prompt → s.now = start + ticks)

section Journey

variable {start : Nat} {delay : Option Nat} {prompt : Prop}

theorem Journey.returns (h : Journey t start delay prompt s) : s.Returns t := by
  cases h with
  | settingOut hs hle hprompt => exact returns_of_stage hs rfl rfl fun _ _ e => by cases e
  | sleeping since rank hs hle hprompt => exact returns_of_stage hs rfl rfl fun _ _ e => by cases e
  | called ticks hs hdelay hle hprompt => exact returns_of_stage hs rfl rfl fun _ _ e => by cases e

theorem Journey.of_queued (h : Journey t start delay prompt s)
    (hs : s.stage? t = some (.queued .navigate false false)) :
    start ≤ s.now ∧ (prompt → s.now = start) := by
  cases h with
  | settingOut hs' hle hprompt => exact ⟨hle, hprompt⟩
  | sleeping since rank hs' hle hprompt =>
    rw [hs] at hs'
    cases hs'
  | called ticks hs' hdelay hle hprompt =>
    rw [hs] at hs'
    cases hs'

theorem Journey.of_waiting (h : Journey t start delay prompt s) {due : Option Nat} {rank : Nat}
    (hs : s.stage? t = some (.waiting .navigating (.timer due rank))) :
    ∃ since, due = delay.map (since + ·) ∧ start ≤ since ∧
      (prompt → since = start ∧ ∀ ticks, delay = some ticks → s.now ≤ start + ticks) := by
  cases h with
  | settingOut hs' hle hprompt =>
    rw [hs] at hs'
    cases hs'
  | sleeping since rank' hs' hle hprompt =>
    rw [hs] at hs'
    cases hs'
    exact ⟨since, rfl, hle, hprompt⟩
  | called ticks hs' hdelay hle hprompt =>
    rw [hs] at hs'
    cases hs'

/-- A return to the chat that is carried out was called, and so its time has come. -/
theorem Journey.due (h : Journey t start delay prompt s) (ht : Tidy s)
    (hback : s.backToChat? m = some t) : ∃ ticks, delay = some ticks ∧ start + ticks ≤ s.now ∧
      (prompt → s.now = start + ticks) := by
  obtain ⟨_, hrun, _⟩ := run_of_backToChat? ht hback
  obtain ⟨_, begun, cancelled, hs', _⟩ := Loop.resumption?_eq_some_iff.mp hrun
  cases h with
  | settingOut hs hle hprompt =>
    rw [hs] at hs'
    cases hs'
  | sleeping since rank hs hle hprompt =>
    rw [hs] at hs'
    cases hs'
  | called ticks hs hdelay hle hprompt => exact ⟨ticks, hdelay, hle, hprompt⟩

/-- **A return to the chat goes on its way in every step** that neither calls it off nor carries it
    out. -/
theorem Journey.step (h : Journey t start delay prompt s) (hclock : Loop.Clocked s)
    (hdelay : Loop.ticksOf s.state.delay = delay) (hpasses : Passes s m t)
    (hback : s.backToChat? m ≠ some t)
    (hwait : prompt → ∀ ticks, m = .wait ticks → s.MayWait ticks) :
    Journey t start delay prompt (s.step m) := by
  have hle := now_le_step s m
  -- a prompt clock moves only while the return sleeps, and not past its time
  have hnow : prompt → (s.step m).now = s.now ∨ ∃ due rank,
      s.stage? t = some (.waiting .navigating (.timer due rank)) ∧
        ∀ time, due = some time → (s.step m).now ≤ time := by
    intro hp
    by_cases hw : ∃ ticks, m = .wait ticks
    · obtain ⟨ticks, rfl⟩ := hw
      exact .inr (hwait hp ticks rfl t h.returns)
    · exact .inl (now_step s fun ticks e => hw ⟨ticks, e⟩)
  have hqueued : ∀ c begun cancelled, s.stage? t = some (.queued c begun cancelled) → prompt →
      (s.step m).now = s.now := by
    intro c begun cancelled hs hp
    refine (hnow hp).resolve_right ?_
    rintro ⟨due, rank, hs', _⟩
    rw [hs] at hs'
    cases hs'
  cases hpasses with
  | still hstill =>
    cases h with
    | settingOut hs hstart hprompt =>
      refine .settingOut (hstill.trans hs) (Nat.le_trans hstart hle) fun hp => ?_
      rw [hqueued _ _ _ hs hp]
      exact hprompt hp
    | sleeping since rank hs hstart hprompt =>
      refine .sleeping since rank (hstill.trans hs) hstart fun hp => ?_
      obtain ⟨rfl, hbound⟩ := hprompt hp
      refine ⟨rfl, fun ticks hticks => ?_⟩
      rcases hnow hp with e | ⟨due, rank', hs', htime⟩
      · rw [e]
        exact hbound ticks hticks
      · rw [hs, hticks] at hs'
        cases hs'
        exact htime _ rfl
    | called ticks hs hd hstart hprompt =>
      refine .called ticks (hstill.trans hs) hd (Nat.le_trans hstart hle) fun hp => ?_
      rw [hqueued _ _ _ hs hp]
      exact hprompt hp
  | sleeps hm hs rank hs' =>
    subst hm
    rw [hdelay] at hs'
    have hsame := now_step (m := .turn) s fun ticks e => by cases e
    obtain ⟨hstart, hprompt⟩ := h.of_queued hs
    refine .sleeping s.now rank hs' hstart fun hp => ⟨hprompt hp, fun ticks _ => ?_⟩
    rw [hsame, hprompt hp]
    exact Nat.le_add_right _ _
  | called hm hs hzero hs' =>
    subst hm
    have hsame := now_step (m := .turn) s fun ticks e => by cases e
    obtain ⟨hstart, hprompt⟩ := h.of_queued hs
    refine .called 0 hs' (hdelay.symm.trans hzero) (hsame ▸ hstart) fun hp => ?_
    rw [hsame]
    exact hprompt hp
  | woken hm due rank hs hexpired hs' =>
    subst hm
    have hsame := now_step (m := .turn) s fun ticks e => by cases e
    obtain ⟨time, rfl, htime⟩ := (hclock.expired t rank hexpired).2 _ _ hs
    obtain ⟨since, hdue, hstart, hprompt⟩ := h.of_waiting hs
    obtain ⟨ticks, rfl, htime'⟩ := Option.map_eq_some_iff.mp hdue.symm
    have hticks : since + ticks = time := htime'
    refine .called ticks hs' rfl (by rw [hsame]; omega) fun hp => ?_
    -- a prompt clock has not passed the time either
    obtain ⟨hsince, hbound⟩ := hprompt hp
    have hlate := hbound ticks rfl
    rw [hsame]
    omega
  | carriedOut h => exact absurd h hback

end Journey

/-! ## 5. Runs that do not call a return off -/

/-- An upload that ends leaves none under way. -/
theorem not_uploads_of_scheduled? (ht : Tidy s) (hb : Guarded uploads s ends)
    (h : s.scheduled? m = some t) (v : TaskId) : ¬(s.step m).Uploads v := by
  intro hv
  obtain ⟨rfl, _, _, u, c, wake, hrun, hover, hfrom, _⟩ := run_of_scheduled? ht hb h
  by_cases hvu : v = u
  · subst hvu
    obtain ⟨c', hc', _⟩ := uploads.exists_of_holds hv
    rw [continuation?_of_run hrun, hover] at hc'
    cases hc'
  · have hold := (uploads.holds_run_of_ne ht hrun hvu).mp hv
    rcases hfrom with ⟨_, hfree⟩ | hu
    · exact hfree (hb.flag v hold)
    · exact hvu (hb.unique v u hold hu)

/-- Where no upload is under way, none is until one is taken up. -/
theorem not_uploads_step (ht : Tidy s) (hb : Guarded uploads s ends) (h : ∀ v, ¬s.Uploads v)
    (hup : s.upload? m = none) (v : TaskId) : ¬(s.step m).Uploads v := by
  intro hv
  rcases calm_or_run ht.listeners m with hc | ⟨rfl, u, c, wake, hrun⟩
  · exact h v ((uploads.holds_calm ht hc v).mp hv)
  · by_cases hvu : v = u
    · subst hvu
      obtain ⟨c', hc', hbusy⟩ := uploads.exists_of_holds hv
      rw [continuation?_of_run hrun] at hc'
      rcases begins_or_uploading (ingestRun_of_run ht hb hrun) hc' hbusy with hbegins | hold
      · rw [upload?_of_run hrun, if_pos hbegins] at hup
        cases hup
      · exact h v ((uploads.holds_iff (Loop.Resumption.continuation?_eq hrun)).mpr hold)
    · exact h v ((uploads.holds_run_of_ne ht hrun hvu).mp hv)

/-- There, no return to the chat is added. -/
theorem returns_of_quiet (ht : Tidy s) (hb : Guarded uploads s ends) (h : ∀ v, ¬s.Uploads v)
    (hup : s.upload? m = none) (hr : (s.step m).Returns t) : s.Returns t := by
  refine (returns_before ht hb hr).resolve_right fun hnew => ?_
  obtain ⟨rfl, _, _, u, _, _, _, _, ⟨hbegins, _⟩ | hu, _⟩ := run_of_scheduled? ht hb hnew
  · rw [hup] at hbegins
    cases hbegins
  · exact h u hu

theorem log_upload?_cons (h : log upload? s (m :: ns) = []) :
    s.upload? m = none ∧ log upload? (s.step m) ns = [] := by
  obtain ⟨hm, hns⟩ := List.append_eq_nil_iff.mp h
  cases hup : s.upload? m with
  | none => exact ⟨rfl, hns⟩
  | some u =>
    rw [hup] at hm
    cases hm

/-- Without a return to the chat and an upload under way, none is carried out until an upload is
    taken up. -/
theorem log_backToChat?_of_quiet (ht : Tidy s) (hb : Guarded uploads s ends)
    (h : ∀ v, ¬s.Uploads v) (hno : ∀ v, ¬s.Returns v) (hup : log upload? s ns = []) :
    log backToChat? s ns = [] := by
  induction ns generalizing s ends with
  | nil => rfl
  | cons m ns ih =>
    obtain ⟨hm, hns⟩ := log_upload?_cons hup
    have hnone : s.backToChat? m = none := Option.eq_none_iff_forall_ne_some.mpr fun v hv =>
      hno v (returns_of_backToChat? ht hv)
    rw [log_cons, hnone]
    exact ih (tidy_step ht m) (guarded_step hb ht m) (not_uploads_step ht hb h hm)
      (fun v hv => hno v (returns_of_quiet ht hb h hm hv)) hns

theorem closed_play (ht : Tidy s) (h : s.closed = true) (ns : List Move) :
    (s.play ns).closed = true :=
  (play_induction (P := fun s => Tidy s ∧ s.closed = true) ⟨ht, h⟩
    (fun _ m h => ⟨tidy_step h.1 m, closed_step h.1 m h.2⟩) ns).2

/-! ## 6. What becomes of a return -/

section Journey

variable {start : Nat} {delay : Option Nat} {prompt : Prop}

/-- **In a run that does not call it off a return to the chat is on its way, or has been carried out
    once**, when its time had come. -/
theorem journey_play (h : Journey t start delay prompt s) (ht : Tidy s)
    (hb : Guarded uploads s ends) (hn : Noted s) (hclock : Loop.Clocked s)
    (hdelay : Loop.ticksOf s.state.delay = delay) (hquiet : ∀ v, ¬s.Uploads v)
    (hopen : (s.play ns).closed = false) (hup : log upload? s ns = [])
    (hprompt : prompt → Prompt s ns) :
    log backToChat? s ns = [] ∧ Journey t start delay prompt (s.play ns) ∨
    ∃ before m after ticks, ns = before ++ m :: after ∧ (s.play before).backToChat? m = some t ∧
      log backToChat? s ns = [t] ∧ delay = some ticks ∧ start + ticks ≤ (s.play before).now ∧
      (prompt → (s.play before).now = start + ticks) := by
  induction ns generalizing s ends with
  | nil => exact .inl ⟨rfl, h⟩
  | cons m ns ih =>
    obtain ⟨hm, hns⟩ := log_upload?_cons hup
    have ht' := tidy_step ht m
    have hb' := guarded_step hb ht m
    have hquiet' := not_uploads_step ht hb hquiet hm
    by_cases hback : s.backToChat? m = some t
    · -- it is carried out now, and there is no other one
      obtain ⟨ticks, hticks, hle, hexact⟩ := h.due ht hback
      have hno : ∀ v, ¬(s.step m).Returns v := by
        intro v hv
        obtain rfl := hn.unique (returns_of_quiet ht hb hquiet hm hv) h.returns
        exact hv.not_over (step_of_backToChat? ht hback).2
      have hrest := log_backToChat?_of_quiet ht' hb' hquiet' hno hns
      refine .inr ⟨[], m, ns, ticks, rfl, hback, ?_, hticks, hle, hexact⟩
      rw [log_cons, hback, hrest]
      rfl
    · have hnone : s.backToChat? m = none := Option.eq_none_iff_forall_ne_some.mpr fun v hv =>
        hback (hv.trans (congrArg some (hn.unique (returns_of_backToChat? ht hv) h.returns)))
      have hopen' : (s.step m).closed = false := by
        cases hc : (s.step m).closed with
        | false => rfl
        | true =>
          rw [play_cons, closed_play ht' hc ns] at hopen
          cases hopen
      have hstep := h.step hclock hdelay (passes_of_returns ht hb h.returns m hm hopen') hback
        fun hp => (hprompt hp).1
      rw [log_cons, hnone]
      rcases ih hstep ht' hb' (noted_step hn ht hb m) (clocked_step hclock m)
          ((congrArg _ (delay_step ht m)).trans hdelay) hquiet' hopen hns
          (fun hp => (hprompt hp).2) with
        hahead | ⟨before, k, after, ticks, rfl, hrest⟩
      · exact .inl hahead
      · exact .inr ⟨m :: before, k, after, ticks, rfl, hrest⟩

/-- A return to the chat that is under way in a session with nothing to do sleeps until its time. -/
theorem Journey.idle (h : Journey t start delay prompt s) (ht : Tidy s) (hclock : Loop.Clocked s)
    (hidle : s.ready = []) : ∃ since rank, start ≤ since ∧ (prompt → since = start) ∧
      s.stage? t = some (.waiting .navigating (.timer (delay.map (since + ·)) rank)) ∧
      ∀ ticks, delay = some ticks → s.now < since + ticks := by
  have hqueued := stage?_ne_queued_of_idle (t := t) ht hidle
  cases h with
  | settingOut hs hle hprompt => exact absurd hs (hqueued _ _ _)
  | sleeping since rank hs hle hprompt =>
    refine ⟨since, rank, hle, fun hp => (hprompt hp).1, hs, ?_⟩
    rintro ticks rfl
    exact hclock.lt_of_idle hidle hs
  | called ticks hs hdelay hle hprompt => exact absurd hs (hqueued _ _ _)

/-- A prompt clock does not pass the time of a return to the chat that is under way. -/
theorem Journey.now_le (h : Journey t start delay prompt s) (hp : prompt) {ticks : Nat}
    (hticks : delay = some ticks) : s.now ≤ start + ticks := by
  cases h with
  | settingOut hs hle hprompt =>
    rw [hprompt hp]
    exact Nat.le_add_right _ _
  | sleeping since rank hs hle hprompt => exact (hprompt hp).2 ticks hticks
  | called ticks' hs hdelay hle hprompt =>
    obtain rfl := Option.some.inj (hdelay.symm.trans hticks)
    exact Nat.le_of_eq (hprompt hp)

end Journey

/-- What becomes of a return to the chat that is scheduled at a time, in a run in which it is not
    called off. It is under way; with nothing left to do it sleeps until its time. Or it has been
    carried out, and it alone, not before its time. With a prompt clock this is the very time at
    which its delay has passed. -/
inductive Honoured (t : TaskId) (start : Nat) (delay : Option Nat) (s : Session) (ns : List Move) :
    Prop where
  | ahead (hlog : log backToChat? s ns = []) (hreturns : (s.play ns).Returns t)
    (hidle : (s.play ns).ready = [] → ∃ since rank, start ≤ since ∧
      (s.play ns).stage? t = some (.waiting .navigating (.timer (delay.map (since + ·)) rank)) ∧
      ∀ ticks, delay = some ticks → (s.play ns).now < since + ticks)
    (hprompt : Prompt s ns → ∀ ticks, delay = some ticks → (s.play ns).now ≤ start + ticks ∧
      ((s.play ns).ready = [] → (s.play ns).now < start + ticks))
  | carriedOut (before : List Move) (m : Move) (after : List Move) (ticks : Nat)
    (hns : ns = before ++ m :: after) (hback : (s.play before).backToChat? m = some t)
    (hlog : log backToChat? s ns = [t]) (hdelay : delay = some ticks)
    (hle : start + ticks ≤ (s.play before).now)
    (hprompt : Prompt s ns → (s.play before).now = start + ticks)

theorem honoured_of_scheduled? (ht : Tidy s) (hb : Guarded uploads s ends) (hn : Noted s)
    (hclock : Loop.Clocked s) (h : s.scheduled? m = some t)
    (hopen : ((s.step m).play ns).closed = false) (hup : log upload? (s.step m) ns = []) :
    Honoured t s.now (Loop.ticksOf s.state.delay) (s.step m) ns := by
  obtain ⟨rfl, _, _, _, hs⟩ := stage?_of_scheduled? ht hb h
  have hnow : (s.step .turn).now = s.now := Loop.now_turned behaviour s
  have hdelay : Loop.ticksOf (s.step .turn).state.delay = Loop.ticksOf s.state.delay :=
    congrArg _ (delay_step ht .turn)
  have hstart : Journey t s.now (Loop.ticksOf s.state.delay) (Prompt (s.step .turn) ns)
      (s.step .turn) := .settingOut hs (Nat.le_of_eq hnow.symm) fun _ => hnow
  have hclock' := clocked_step hclock .turn
  have ht' := tidy_step ht .turn
  rcases journey_play hstart ht' (guarded_step hb ht .turn) (noted_step hn ht hb .turn) hclock'
      hdelay (not_uploads_of_scheduled? ht hb h) hopen hup id with
    ⟨hlog, hj⟩ | ⟨before, k, after, ticks, hns, hback, hlog, hticks, hle, hexact⟩
  · have htz : Tidy ((s.step .turn).play ns) := play_induction ht' (fun _ m h => tidy_step h m) ns
    have hcz : Loop.Clocked ((s.step .turn).play ns) :=
      play_induction (P := Loop.Clocked) hclock' (fun _ m h => clocked_step h m) ns
    refine .ahead hlog hj.returns (fun hidle => ?_) fun hp ticks hticks => ⟨hj.now_le hp hticks, ?_⟩
    · obtain ⟨since, rank, hle, _, hs, htime⟩ := hj.idle htz hcz hidle
      exact ⟨since, rank, hle, hs, htime⟩
    · intro hidle
      obtain ⟨since, rank, _, hsince, _, htime⟩ := hj.idle htz hcz hidle
      rw [← hsince hp]
      exact htime ticks hticks
  · exact .carriedOut before k after ticks hns hback hlog hticks hle hexact

/-- A return to the chat that is called off is not carried out from then on. -/
theorem calledOff (ht : Tidy s) (hb : Guarded uploads s ends) (hn : Noted s)
    (hlt : t < s.tasks.length) (hoff : (s.play ns).closed = true ∨ log upload? s ns ≠ [])
    (more : List Move) : t ∉ log backToChat? (s.play ns) more := by
  induction ns generalizing s ends with
  | nil =>
    rcases hoff with hclosed | hup
    · exact notMem_log_backToChat? ht hb hlt (not_returns_of_closed ht hclosed t) more
    · exact absurd rfl hup
  | cons m ns ih =>
    have ht' := tidy_step ht m
    have hb' := guarded_step hb ht m
    have hlt' : t < (s.step m).tasks.length := Nat.lt_of_lt_of_le hlt (length_le_step ht m)
    by_cases hm : s.upload? m = none
    · refine ih ht' hb' (noted_step hn ht hb m) hlt' (hoff.imp_right fun hne => ?_)
      rwa [log_cons, hm] at hne
    · obtain ⟨u, hu⟩ := Option.ne_none_iff_exists'.mp hm
      have hno := notMem_log_backToChat? ht' hb' hlt' (not_returns_of_upload? hn ht hb hu hlt)
        (ns ++ more)
      rw [log_append, List.mem_append] at hno
      exact fun h => hno (.inr h)

/-- **The return to the chat.** In every run at most one return to the chat is under way. One that
    is carried out switches an open session to the chat and leaves the status idle, which was that of
    a success or idle before; it was scheduled by an upload that succeeded, and is carried out once.
    Nothing else but the user changes the tab. A return that is scheduled comes when its delay has
    passed, unless an upload is taken up or the session is closed before it is carried out; then it
    never comes. -/
theorem return_of_success (client : Client) (delay : Binary64) (greeting : Option String)
    (files : FileSystem) (ms : List Move) :
    let start := opened client delay greeting files
    let s := start.play ms
    (∀ t u, s.Returns t → s.Returns u → t = u) ∧
    (∀ m t, s.backToChat? m = some t → s.closed = false ∧
      (s.state.ingest.status.phase = .succeeded ∨ s.state.ingest.status.phase = .idle) ∧
      (s.step m).state.tabs.active = .chat ∧ (s.step m).state.ingest.status.phase = .idle ∧
      t ∈ log scheduled? start ms ∧ t ∉ log backToChat? start ms) ∧
    (∀ m, (∀ target, m ≠ .switch target) → s.backToChat? m = none →
      (s.step m).state.tabs = s.state.tabs) ∧
    ∀ m t, s.scheduled? m = some t → ∀ ns,
      (((s.step m).play ns).closed = false → log upload? (s.step m) ns = [] →
        Honoured t s.now (Loop.ticksOf delay) (s.step m) ns) ∧
      (((s.step m).play ns).closed = true ∨ log upload? (s.step m) ns ≠ [] →
        ∀ more, t ∉ log backToChat? ((s.step m).play ns) more) := by
  intro start s
  have ht : Tidy s := tidy_play client delay greeting files ms
  have hb := guarded_play uploads client delay greeting files ms
  have hclock : Loop.Clocked s := clocked_play client delay greeting files ms
  have hdelay : s.state.delay = delay := delay_play client delay greeting files ms
  obtain ⟨hn, haccounted⟩ := accounted_play client delay greeting files ms
  refine ⟨fun t u => hn.unique, fun m t h => ?_, fun m hm hback => tabs_step ht hm hback,
    fun m t h ns => ⟨fun hopen hup => ?_, fun hoff => ?_⟩⟩
  · have hreturns := returns_of_backToChat? ht h
    have hphase := hn.phase t hreturns
    have hfree : s.state.ingest.status.phase ≠ .uploading := by
      rcases hphase with e | e <;> rw [e] <;> decide
    obtain ⟨hstate, _⟩ := step_of_backToChat? ht h
    rw [hstate]
    exact ⟨(run_of_backToChat? ht h).2.2, hphase, rfl, Ingest.phase_prepare hfree,
      haccounted.scheduled t hreturns, fun hmem => hreturns.not_over (haccounted.finished t hmem)⟩
  · rw [← hdelay]
    exact honoured_of_scheduled? ht hb hn hclock h hopen hup
  · have hlt := Loop.lt_of_stage? (stage?_of_scheduled? ht hb h).2.2.2.2
    exact calledOff (tidy_step ht m) (guarded_step hb ht m) (noted_step hn ht hb m) hlt hoff

/-- A session that returns to the chat after three ticks. -/
def brief : Session := opened sample.state.client (.finite false 3) none default

/-- An upload is answered; in the next turn it succeeds. -/
def answeredUpload : List Move :=
  [.launch (.upload [⟨"project/a.txt", [97], "text/plain"⟩]), .turn,
    .answer 0 (.common 200 [111, 107] none)]

/-- The return to the chat sets out, the user looks at the records, and three ticks pass. -/
def delayed : List Move :=
  [.turn, .switch (.string "inspect"), .wait 3, .turn, .turn, .turn, .turn]

/-- In this run the clock does not run ahead. -/
theorem prompt_delayed : Prompt ((brief.play answeredUpload).step .turn) delayed := by
  let before : List Move := [.turn, .switch (.string "inspect")]
  have hn : Noted (brief.play (answeredUpload ++ .turn :: before)) :=
    (accounted_play _ _ _ _ _).1
  rw [play_append, play_cons] at hn
  have hs : (((brief.play answeredUpload).step .turn).play before).stage? 1 =
    some (.waiting .navigating (.timer (some 3) 0)) := rfl
  refine prompt_of_sleeping hn hs (fun time e => ?_) (by simp [before]) (by simp)
  cases e
  decide +kernel

/-- The return to the chat is carried out three ticks after the success. -/
theorem return_of_answeredUpload :
    (brief.play answeredUpload).scheduled? .turn = some 1 ∧
    (brief.play answeredUpload).now = 0 ∧
    ∃ before m after, delayed = before ++ m :: after ∧
      (((brief.play answeredUpload).step .turn).play before).backToChat? m = some 1 ∧
      (((brief.play answeredUpload).step .turn).play before).now = 3 := by
  have h : (brief.play answeredUpload).scheduled? .turn = some 1 := by decide +kernel
  have hnow : (brief.play answeredUpload).now = 0 := by decide +kernel
  obtain ⟨_, _, _, hscheduled⟩ := return_of_success _ _ _ _ answeredUpload
  have hhonoured : Honoured 1 (brief.play answeredUpload).now (some 3)
      ((brief.play answeredUpload).step .turn) delayed :=
    (hscheduled .turn 1 h delayed).1 (by decide +kernel) (by decide +kernel)
  refine ⟨h, hnow, ?_⟩
  cases hhonoured with
  | ahead hlog hreturns hidle hprompt =>
    have hone : log backToChat? ((brief.play answeredUpload).step .turn) delayed = [1] := by
      decide +kernel
    rw [hlog] at hone
    cases hone
  | carriedOut before m after ticks hns hback hlog hdelay hle hprompt =>
    cases hdelay
    rw [hnow] at hprompt
    exact ⟨before, m, after, hns, hback, hprompt prompt_delayed⟩

end CodeSession.Session
