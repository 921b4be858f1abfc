import CodeSession.Proofs.Loop.Image
import CodeSession.Proofs.Page.Moves
import CodeSession.Proofs.Session.Dialogue
import CodeSession.Proofs.Session.Tidy

/-!
# The session behind a page

A page runs its session as the session runs alone: what is done on the page at the end of a call, the
signs of it and what is typed into it do not reach the session.

* `Page.shadow`, `Session.shadow` -- a page and a session without what calls return; of a page the
  session alone;
* `shadow_behaviour` -- a run of a task is a run of its call;
* `shadow_step`, `shadow_play` -- every run of a page is, behind it, a run of a session.
-/

namespace CodeSession

open Session Backend Folder

/-- A session, but for what its calls return. -/
def Session.shadow (s : Session) : Loop World Call Unit Unit :=
  s.image id id

namespace Page

/-- The call that a task is to the session. A folder that is to be chosen but not typed is given up as
    an upload of no files is. -/
def Job.shadow (j : Job) : Call :=
  match j.call, j.after with
  | .choose path, .report => if path.isEmpty then .upload [] else .choose path
  | c, _ => c

/-- The session of a page, but for what its calls return. -/
def shadow (p : Page) : Loop World Call Unit Unit :=
  p.image Window.session Job.shadow

variable {facts : Facts} {j : Job} {wake : Wake} {w : Window} {p : Page} {s : Session}

/-! ## 1. Runs of tasks -/

theorem session_sync (w : Window) : w.sync.session = w.session := by
  unfold Window.sync
  dsimp only
  split
  · split <;> rfl
  · split <;> rfl

theorem session_conclude (after : After) (e : Ending Result Failure) (w : Window) :
    (conclude after e w).1.session = w.session := by
  unfold conclude
  split
  · rfl
  · exact session_sync w
  · split
    · exact session_sync _
    · rfl
  · rfl

theorem shadow_of_ne {j : Job} (h : ∀ path, j.call ≠ .choose path) : j.shadow = j.call := by
  obtain ⟨c, after⟩ := j
  cases c with
  | choose path => exact absurd rfl (h path)
  | _ => rfl

/-- A task that has nothing to do is one that the session refuses. -/
theorem proceed_of_isIdle (h : j.isIdle w.session = true) (facts : Facts) :
    ∃ e, proceed facts j.shadow w.session = ⟨w.session, [], .finish e⟩ := by
  obtain ⟨c, after⟩ := j
  unfold Job.isIdle at h
  split at h
  · rename_i hc ha
    obtain rfl : c = .send none := hc
    refine ⟨.returned (some false), beginSend_refused none ?_⟩
    unfold Chat.canSend at h
    cases hp : w.session.chat.pending with
    | true => exact .inr (.inr rfl)
    | false =>
      rw [hp] at h
      exact .inr (.inl (Chat.isBlankText_iff.mp (by simpa using h)))
  · rename_i path hc ha
    obtain rfl : c = .choose path := hc
    obtain rfl : after = .report := ha
    refine ⟨.returned (some false), ?_⟩
    have hshadow : Job.shadow ⟨.choose path, .report⟩ = .upload [] := if_pos h
    rw [hshadow]
    show (if facts.closed then _ else beginUpload facts [] w.session) = _
    split <;> rfl
  · cases h

/-- A call that is cancelled before it has begun leaves nothing behind, whichever it is. -/
theorem behaviour_shadow (hidle : ¬(wake = .go ∧ j.isIdle w.session = true)) :
    Session.behaviour facts j.shadow wake w.session =
      Session.behaviour facts j.call wake w.session := by
  obtain ⟨c, after⟩ := j
  cases c with
  | choose path =>
    cases after with
    | report =>
      show Session.behaviour facts (if path.isEmpty then .upload [] else .choose path) wake _ = _
      split
      · rename_i hpath
        cases wake with
        | go => exact absurd ⟨rfl, hpath⟩ hidle
        | cancelled => rfl
      · rfl
    | _ => rfl
  | _ => rfl

theorem image_liftOrder (o : Order Call) : (liftOrder o).image Job.shadow = o := by
  cases o with
  | spawn name c => cases c <;> rfl
  | _ => rfl

/-- **A run of a task is a run of its call**, as far as the session is concerned. -/
theorem shadow_behaviour (facts : Facts) (j : Job) (wake : Wake)
    (hv : w.session.tabs.listeners = [viewer]) :
    (Page.behaviour facts j wake w).image Window.session Job.shadow =
      (Session.behaviour facts j.shadow wake w.session).image id id := by
  have hid : ∀ o : Order Call, o.image id = o := fun o => by cases o <;> rfl
  by_cases hidle : wake = .go ∧ j.isIdle w.session = true
  · obtain ⟨e, he⟩ := proceed_of_isIdle hidle.2 facts
    have hrun : Session.behaviour facts j.shadow wake w.session = ⟨w.session, [], .finish e⟩ := by
      rw [hidle.1]
      exact he
    rw [hrun]
    unfold Page.behaviour
    rw [if_pos hidle]
    rfl
  · rw [behaviour_shadow hidle]
    have htame : Tame facts j.call w.session
        (Session.behaviour facts j.call wake w.session) :=
      tame_behaviour j.call wake hv
    unfold Page.behaviour
    rw [if_neg hidle]
    dsimp only
    generalize Session.behaviour facts j.call wake w.session = r at htame ⊢
    have horders : (r.orders.map liftOrder).map (Order.image Job.shadow) =
        r.orders.map (Order.image id) := by
      rw [List.map_map]
      exact List.map_congr_left fun o _ => (image_liftOrder o).trans (hid o).symm
    obtain ⟨w', orders, next⟩ := r
    cases next with
    | pause pause c =>
      have hc : ∀ path, c ≠ .choose path := by
        rintro path rfl
        have hp := (htame.kind pause _ rfl).2
        cases pause <;> cases hp
      have hshadow : Job.shadow ⟨c, j.after⟩ = c := shadow_of_ne hc
      simp only [Burst.image, Next.image, hshadow, id_eq]
      rw [horders]
    | finish e =>
      simp only [Burst.image, Next.image, session_conclude, id_eq]
      rw [horders]

/-! ## 2. Steps -/

/-- What only concerns the window does not reach the session. -/
theorem shadow_update {f : Window → Window} (hf : ∀ w, (f w).session = w.session) (p : Page) :
    (p.update f).shadow = p.shadow := by
  simp only [shadow, update, Loop.image, hf]

section Steps

variable (h : p.shadow = s.shadow)

include h

theorem session_of_shadow : p.state.session = s.state :=
  congrArg Loop.state h

theorem facts_of_shadow : p.facts = s.facts := by
  have hfacts := congrArg Loop.facts h
  rw [shadow, Session.shadow, Loop.facts_image, Loop.facts_image] at hfacts
  exact hfacts

theorem shown?_of_shadow {α : Type} (show? : Call → Option α) (t : TaskId) :
    p.shown? (fun j => show? j.shadow) t = s.shown? show? t := by
  have hshown : p.shadow.shown? show? t = s.shadow.shown? show? t := by rw [h]
  rw [shadow, Session.shadow, Loop.shown?_image, Loop.shown?_image] at hshown
  exact hshown

/-- A turn of the page is a turn of its session. -/
theorem shadow_turned (hv : s.state.tabs.listeners = [viewer]) :
    Page.shadow (p.turned Page.behaviour) = Session.shadow (s.turned Session.behaviour) := by
  refine Loop.image_turned h fun t j c wake hj hc => ?_
  have hcall : j.shadow = c := by
    have hres : (p.image Window.session Job.shadow).resumption? = (s.image id id).resumption? :=
      congrArg Loop.resumption? h
    rw [Loop.resumption?_image, Loop.resumption?_image, hj, hc] at hres
    simpa using hres
  rw [← session_of_shadow h] at hv
  rw [shadow_behaviour p.facts j wake hv, hcall, facts_of_shadow h, session_of_shadow h]

/-- A call that is launched from the page is launched on its session. -/
theorem shadow_launch {j : Job} {d : Demand} (hd : j.shadow = d.call) :
    Page.shadow (p.launch j) = Session.shadow (s.step (.launch d)) := by
  show (p.add "" false j).image _ _ = (s.add "" false d.call).image _ _
  rw [Loop.image_add, Loop.image_add, hd]
  exact congrArg (Loop.add "" false d.call) h

/-- What reaches a call from outside reaches the call of its session. -/
theorem shadow_signal {α : Type} {t : TaskId} {f : Call → Call} {show? : Call → Option α}
    (hshow : ∀ j : Job, show? j.shadow = show? j.call)
    (hf : ∀ j : Job, (show? j.call).isSome = true → (host.onCall f j).shadow = f j.shadow) :
    Page.shadow
        (if (p.shown? (fun j => show? j.call) t).isSome then p.signal t (host.onCall f) else p) =
      Session.shadow (if (s.shown? show? t).isSome then s.signal t f else s) := by
  have hshown : p.shown? (fun j => show? j.call) t = s.shown? show? t := by
    rw [← shown?_of_shadow h show? t]
    exact congrArg (fun g => p.shown? g t) (funext fun j => (hshow j).symm)
  rw [← hshown]
  split
  · rename_i hsome
    have hpage : (p.signal t (host.onCall f)).image Window.session Job.shadow =
        (p.image Window.session Job.shadow).signal t f := by
      refine Loop.image_signal _ _ p fun j hj => ?_
      rw [Loop.shown?_of_stage? hj] at hsome
      exact hf j hsome
    have hsession : (s.signal t f).image id id = (s.image id id).signal t f :=
      Loop.image_signal id id s fun _ _ => rfl
    show (p.signal t (host.onCall f)).image _ _ = (s.signal t f).image _ _
    rw [hpage, hsession]
    exact congrArg (fun l : Loop World Call Unit Unit => l.signal t f) h
  · exact h

/-- A switch of the tab on the page is one of its session. -/
theorem shadow_activate (t : Tab) :
    Page.shadow (p.activate t) = Session.shadow (s.step (.switch (.string t.name))) := by
  have hsession := session_of_shadow h
  have hfacts := facts_of_shadow h
  have horders : ∀ os : List (Order Call), (os.map liftOrder).map (Order.image Job.shadow) =
      os.map (Order.image id) := by
    intro os
    rw [List.map_map]
    refine List.map_congr_left fun o _ => (image_liftOrder o).trans ?_
    cases o <;> rfl
  refine (shadow_update (f := fun w => w.render.sign) (fun _ => rfl) _).trans ?_
  show (Loop.perform _ p).image _ _ = (Loop.perform _ s).image _ _
  unfold Loop.perform
  dsimp only
  rw [Loop.image_foldl_obey, Loop.image_foldl_obey, horders, hfacts, hsession]
  exact congrArg (fun l : Loop World Call Unit Unit =>
    List.foldl Loop.obey { l with state := _ } _) h

/-- **A step of a page is one of its session, or does not reach it.** -/
theorem shadow_step (hv : s.state.tabs.listeners = [viewer]) (m : Move) :
    ∃ ns, (p.step m).shadow = (s.play ns).shadow := by
  have hsend : ∃ ns, Page.shadow p.launchSend = (s.play ns).shadow :=
    ⟨[.launch (.send none)], shadow_launch h rfl⟩
  cases m with
  | turn => exact ⟨[.turn], shadow_turned h hv⟩
  | click name =>
    show ∃ ns, (p.click name).1.shadow = (s.play ns).shadow
    unfold click
    split
    · exact ⟨[], h⟩
    · exact ⟨[], h⟩
    · exact ⟨[.switch _], shadow_activate h _⟩
    · exact hsend
    · rename_i path _
      refine ⟨[.launch (if path.isEmpty then .upload [] else .choose path)], shadow_launch h ?_⟩
      show (if path.isEmpty then Call.upload [] else Call.choose path) = _
      split <;> rfl
  | type placeholder text =>
    show ∃ ns, (p.type placeholder text).1.shadow = (s.play ns).shadow
    unfold Page.type
    split
    · exact ⟨[], h⟩
    · refine ⟨[.write text], ?_⟩
      exact congrArg (fun l : Loop World Call Unit Unit =>
        { l with state := { l.state with chat := l.state.chat.write text } }) h
    · exact ⟨[], (shadow_update (fun _ => rfl) p).trans h⟩
  | enter placeholder =>
    show ∃ ns, (p.enter placeholder).1.shadow = (s.play ns).shadow
    unfold enter
    split
    · exact ⟨[], h⟩
    · exact hsend
    · exact ⟨[], h⟩
  | tick => exact ⟨[], (shadow_update session_sync p).trans h⟩
  | disconnect => exact ⟨[.launch .close], shadow_launch h rfl⟩
  | answer t r =>
    refine ⟨[.answer t r], shadow_signal h (fun j => ?_) fun j hj => ?_⟩
    · obtain ⟨c, after⟩ := j
      cases c with
      | choose path =>
        cases after with
        | report =>
          show Call.request? (if path.isEmpty then .upload [] else .choose path) = none
          split <;> rfl
        | _ => rfl
      | _ => rfl
    · obtain ⟨c, after⟩ := j
      cases c <;> first | rfl | cases hj
  | read t selected =>
    refine ⟨[.read t selected], shadow_signal h (fun j => ?_) fun j hj => ?_⟩
    · obtain ⟨c, after⟩ := j
      cases c with
      | choose path =>
        cases after with
        | report =>
          show Call.path? (if path.isEmpty then .upload [] else .choose path) = none
          split <;> rfl
        | _ => rfl
      | _ => rfl
    · obtain ⟨c, after⟩ := j
      cases c <;> first | rfl | cases hj
  | wait ticks =>
    have hnow : p.now = s.now := congrArg Loop.now h
    refine ⟨[.wait ticks], ?_⟩
    show (p.fireAt (p.now + ticks)).image _ _ = (s.fireAt (s.now + ticks)).image _ _
    rw [Loop.image_fireAt, Loop.image_fireAt, hnow]
    exact congrArg (Loop.fireAt (s.now + ticks)) h

end Steps

/-- **Every run of a page is, behind it, a run of a session.** -/
theorem shadow_play (config : Config) (client : Client) (files : FileSystem) (ms : List Move) :
    ∃ ns, ((opened config client files).play ms).shadow =
      ((Session.opened client config.autoNavigateDelay (some Chat.welcome) files).play ns).shadow := by
  induction ms using List.reverseRecOn with
  | nil => exact ⟨[], rfl⟩
  | append_singleton ms m ih =>
    obtain ⟨ns, hns⟩ := ih
    have ht := tidy_play client config.autoNavigateDelay (some Chat.welcome) files ns
    obtain ⟨ns', hns'⟩ := shadow_step hns ht.listeners m
    refine ⟨ns ++ ns', ?_⟩
    rw [play_append, Session.play_append]
    exact hns'

end Page

end CodeSession
