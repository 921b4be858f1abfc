import CodeSession.Proofs.Page.Shadow
import CodeSession.Proofs.Session.Fetching

/-!
# What a page shows

The window is renewed in part, by a signature of the state. The signature tells what the state shows,
since the transcript only grows and each fetch brings one snapshot at most.

* `World.Precedes`, `precedes_play` -- what a later state keeps of an earlier one;
* `LooksLike`, `signature_eq_iff` -- a later state has the signature of an earlier one exactly if it
  looks the same, on the same tab; `render_of_signature` -- it is then rendered alike, but for the send
  button;
* `Faithful` -- the window shows an earlier state, the one whose signature it bears;
* `Page.renews` -- the moves that show what has changed: the timer, a click on a tab, the end of a call
  that was launched by a click or a key;
* `shown_of_renews` -- after each of them the window is as rendered from scratch.
-/

namespace CodeSession

open Session Backend Folder

/-! ## 1. Later states -/

/-- What a later state keeps of an earlier one: the transcript is continued, and another snapshot was
    brought by another fetch. -/
structure Session.World.Precedes (w w' : World) : Prop where
  messages : w.chat.messages <+: w'.chat.messages
  snapshot : w.inspection.snapshot.map Snapshot.fetch = w'.inspection.snapshot.map Snapshot.fetch →
    w.inspection.snapshot = w'.inspection.snapshot

namespace Session

variable {s s' : Session} {m : Move} {o : Option FetchEnd}

/-- A step keeps the snapshot or brings that of a fetch which has ended. -/
theorem Course.snapshot (h : Course s m s' o) :
    s'.state.inspection.snapshot = s.state.inspection.snapshot ∨
      ∃ x, s'.state.inspection.snapshot = some x ∧ ∃ e ∈ o, e.number = x.fetch := by
  cases h with
  | still hm hall hi => exact .inl (by rw [hi])
  | issued t hm ht hnew hother hi => exact .inl (by rw [hi]; rfl)
  | ended t n fate hm ht hgone hother hi hopen =>
    rw [hi]
    cases fate with
    | unbegun => exact .inl rfl
    | aborted =>
      refine .inl ?_
      show (s.state.inspection.abandon n).snapshot = _
      unfold Inspection.abandon
      split <;> rfl
    | landed outcome =>
      show (s.state.inspection.land n outcome).snapshot = _ ∨ _
      unfold Inspection.resolve Inspection.land
      split
      · obtain (t | f) | records := outcome
        · exact .inl rfl
        · exact .inl rfl
        · exact .inr ⟨_, rfl, _, rfl, rfl⟩
      · exact .inl rfl

/-- A run keeps the snapshot or brings that of a fetch which has ended in it. -/
theorem snapshot_play (ht : Tidy s) (ns : List Move) :
    (s.play ns).state.inspection.snapshot = s.state.inspection.snapshot ∨
      ∃ x, (s.play ns).state.inspection.snapshot = some x ∧
        ∃ e ∈ log fetchEnd? s ns, e.number = x.fetch := by
  refine (play_log_induction (P := fun (z : Session) (ends : List FetchEnd) => Tidy z ∧
    (z.state.inspection.snapshot = s.state.inspection.snapshot ∨
      ∃ x, z.state.inspection.snapshot = some x ∧ ∃ e ∈ ends, e.number = x.fetch))
    ⟨ht, .inl rfl⟩ (fun z ends m hz => ⟨tidy_step hz.1 m, ?_⟩) ns).2
  rcases (course_step hz.1 m).snapshot with hsame | ⟨x, hx, e, he, hn⟩
  · rw [hsame]
    refine hz.2.imp_right fun ⟨x, hx, e, he, hn⟩ => ?_
    exact ⟨x, hx, e, List.mem_append_left _ he, hn⟩
  · exact .inr ⟨x, hx, e, List.mem_append_right _ (Option.mem_toList.mpr he), hn⟩

/-- **A state of a session precedes the later ones.** -/
theorem precedes_play (client : Client) (delay : Binary64) (greeting : Option String)
    (files : FileSystem) (ms ns : List Move) :
    let s := (opened client delay greeting files).play ms
    s.state.Precedes (s.play ns).state := by
  intro s
  have ht : Tidy s := tidy_play client delay greeting files ms
  refine ⟨messages_prefix_play ht ns, fun hfetch => ?_⟩
  rcases snapshot_play ht ns with hsame | ⟨x, hx, e, he, hn⟩
  · exact hsame.symm
  · -- the fetch of the earlier snapshot had ended before
    have hnumbered := numbered_play client delay greeting files (ms ++ ns)
    rw [log_append] at hnumbered
    have honce := hnumbered.once
    rw [List.map_append, List.nodup_append] at honce
    rw [hx, Option.map_some, Option.map_eq_some_iff] at hfetch
    obtain ⟨y, hy, hxy⟩ := hfetch
    rcases snapshot_play (tidy_opened client delay greeting files) ms with hstart | ⟨z, hz, e', he', hn'⟩
    · have hnone : s.state.inspection.snapshot = none := hstart
      rw [hnone] at hy
      cases hy
    · obtain rfl : y = z := Option.some.inj (hy.symm.trans hz)
      refine absurd ?_ (honce.2.2 _ (List.mem_map_of_mem he') _ (List.mem_map_of_mem he))
      rw [hn', hn, hxy]

end Session

namespace Page

/-! ## 2. Signatures -/

@[simp] theorem typeFolder_typeFolder (a b : String) (c : Content) :
    (c.typeFolder a).typeFolder b = c.typeFolder b := by
  cases c <;> rfl

theorem typeFolder_refreshSend (text : String) (chat : Chat) (c : Content) :
    (c.refreshSend chat).typeFolder text = (c.typeFolder text).refreshSend chat := by
  cases c <;> rfl

@[simp] theorem refreshSend_refreshSend (chat chat' : Chat) (c : Content) :
    (c.refreshSend chat).refreshSend chat' = c.refreshSend chat' := by
  cases c <;> rfl

/-- What is rendered has nothing typed. -/
@[simp] theorem typeFolder_render (w : World) : (Content.render w).typeFolder "" = Content.render w := by
  unfold Content.render
  split <;> rfl

/-- Two states look the same on every tab: nothing differs of the transcript and the question, of the
    records and how they are fetched, and of the upload. -/
structure LooksLike (w w' : World) : Prop where
  messages : w'.chat.messages = w.chat.messages
  pending : w'.chat.pending = w.chat.pending
  snapshot : w'.inspection.snapshot = w.inspection.snapshot
  loading : w'.inspection.loading = w.inspection.loading
  error : w'.inspection.error = w.inspection.error
  status : w'.ingest.status = w.ingest.status

/-- **A later state has the signature of an earlier one if it looks the same**, on the same tab. -/
theorem signature_eq_iff {w w' : World} (h : w.Precedes w') :
    Signature.of w' = Signature.of w ↔ w'.tabs.active = w.tabs.active ∧ LooksLike w w' := by
  constructor
  · intro hs
    simp only [Signature.of, Signature.mk.injEq] at hs
    obtain ⟨htab, hlength, hpending, hfetch, hloading, herror, hstatus⟩ := hs
    exact ⟨htab,
      { messages := (h.messages.eq_of_length hlength.symm).symm
        pending := hpending
        snapshot := (h.snapshot hfetch.symm).symm
        loading := hloading
        error := herror
        status := hstatus }⟩
  · intro ⟨htab, hlooks⟩
    simp only [Signature.of, htab, hlooks.messages, hlooks.pending, hlooks.snapshot,
      hlooks.loading, hlooks.error, hlooks.status]

/-- **States with one signature look the same, but for the send button.** -/
theorem render_of_signature {w w' : World} (h : w.Precedes w') (hs : Signature.of w' = Signature.of w) :
    Content.render w' = (Content.render w).refreshSend w'.chat := by
  obtain ⟨htab, hlooks⟩ := (signature_eq_iff h).mp hs
  unfold Content.render
  rw [htab]
  cases w.tabs.active with
  | chat => simp [ChatView.of, Content.refreshSend, hlooks.messages, hlooks.pending]
  | inspect =>
    show Content.inspect (InspectView.of w'.inspection) = .inspect (InspectView.of w.inspection)
    unfold InspectView.of Inspection.showTable Inspection.rows Inspection.placeholder
    rw [hlooks.snapshot, hlooks.loading, hlooks.error]
  | ingest => simp [IngestView.of, Content.refreshSend, Ingest.canChoose, hlooks.status]

/-! ## 3. The window -/

/-- The window shows an earlier state, whose signature it bears: all of it, but for what is typed and
    the send button, which may have been renewed since. -/
structure Faithful (w : Window) (shown : World) : Prop where
  signature : w.signature = Signature.of shown
  highlighted : w.highlighted = shown.tabs.active
  content : (w.content.typeFolder "").refreshSend shown.chat = Content.render shown

/-- A window without what is typed in it. -/
def Window.untyped (w : Window) : Window :=
  { w with content := w.content.typeFolder "" }

/-- The parts of a window that no session changes: they stay, but for what is typed. -/
structure Window.Keeps (w w' : Window) : Prop where
  signature : w'.signature = w.signature
  highlighted : w'.highlighted = w.highlighted
  content : w'.content.typeFolder "" = w.content.typeFolder ""

theorem Faithful.of_keeps {w w' : Window} {shown : World} (h : Faithful w shown) (hk : w.Keeps w') :
    Faithful w' shown :=
  ⟨hk.signature.trans h.signature, hk.highlighted.trans h.highlighted, by
    rw [hk.content, h.content]⟩

/-- What is rendered has the send button of its chat. -/
theorem refreshSend_render (w : World) : (Content.render w).refreshSend w.chat = Content.render w := by
  unfold Content.render
  split <;> rfl

/-- A window that is rendered and signed shows the state of its session. -/
theorem faithful_render (w : Window) : Faithful w.render.sign w.session := by
  refine ⟨rfl, rfl, ?_⟩
  show ((Content.render w.session).typeFolder "").refreshSend w.session.chat = _
  rw [typeFolder_render, refreshSend_render]

/-- **The timer shows everything that has changed**, whether it finds the signature changed or not. -/
theorem faithful_sync {w : Window} {shown : World} (h : Faithful w shown)
    (hlater : shown.Precedes w.session) :
    w.sync.signature = Signature.of w.session ∧ w.sync.highlighted = w.session.tabs.active ∧
      w.sync.content.typeFolder "" = Content.render w.session := by
  unfold Window.sync
  dsimp only
  split
  · rename_i hs
    -- the state looks as the one that is shown, but for the send button
    have hsig : Signature.of w.session = Signature.of shown := hs.trans h.signature
    have htab : w.session.tabs.active = shown.tabs.active := congrArg Signature.tab hsig
    have hrender : (w.content.typeFolder "").refreshSend w.session.chat =
        Content.render w.session := by
      rw [render_of_signature hlater hsig, ← h.content, refreshSend_refreshSend]
    split
    · exact ⟨hs.symm, h.highlighted.trans htab.symm, by rw [typeFolder_refreshSend, hrender]⟩
    · rename_i hchat
      refine ⟨hs.symm, h.highlighted.trans htab.symm, ?_⟩
      rw [← hrender]
      unfold Content.render at hrender
      cases hc : w.content with
      | chat v =>
        -- the content would be that of the chat
        rw [hc] at hrender
        split at hrender
        · exact absurd ‹_› hchat
        · cases hrender
        · cases hrender
      | _ => rfl
  · split
    · rename_i hchat
      -- the content is that of the chat, which is all renewed
      have hshown : shown.tabs.active = .chat := by
        have htab : w.session.tabs.active = w.signature.tab := hchat.2
        rw [h.signature] at htab
        exact htab.symm.trans hchat.1
      refine ⟨rfl, h.highlighted.trans (hshown.trans hchat.1.symm), ?_⟩
      have hcontent := h.content
      unfold Content.render at hcontent ⊢
      rw [hshown] at hcontent
      rw [hchat.1]
      cases hc : w.content with
      | chat v => rfl
      | _ => rw [hc] at hcontent; cases hcontent
    · exact ⟨rfl, rfl, typeFolder_render w.session⟩

/-- A window whose content is that of a state, with the state's tab highlighted, is as rendered. -/
theorem untyped_eq_render {w : Window} (hhigh : w.highlighted = w.session.tabs.active)
    (hcontent : w.content.typeFolder "" = Content.render w.session) : w.untyped = w.render := by
  unfold Window.untyped Window.render
  rw [hcontent, ← hhigh]

/-! ## 4. Renewals -/

/-- Whether what is left to do on the page after a run shows what has changed. -/
def After.syncs : After → Next Call Result Failure → Bool
  | .nothing, _ => false
  | _, .finish (.returned _) => true
  | .report, .finish (.raised (.folder t)) => t.isOfFolder
  | _, _ => false

/-- Whether a move shows what has changed: the timer fires, a tab is clicked, or a turn ends a call
    that shows it. -/
def renews (p : Page) : Move → Bool
  | .tick => true
  | .click name =>
    match findButton? name p.state.elements with
    | some (true, .activate _) => true
    | _ => false
  | .turn =>
    match p.resumption? with
    | some ⟨_, j, some wake⟩ =>
      !(wake = .go ∧ j.isIdle p.state.session) &&
        j.after.syncs (Session.behaviour p.facts j.call wake p.state.session).next
    | _ => false
  | _ => false

/-- The window after a step: it is kept, or what has changed in it is shown, or it is rendered. -/
inductive Renewal (w : Window) : Bool → Window → Prop where
  | kept {w' : Window} (h : w.Keeps w') : Renewal w false w'
  | synced {w' : Window} (h : w.Keeps w') : Renewal w true w'.sync
  | rendered (w' : Window) : Renewal w true w'.render.sign

namespace Renewal

/-- What is renewed is what the session has come to. -/
theorem faithful {w w' : Window} {shown : World} {renewed : Bool} (h : Renewal w renewed w')
    (hf : Faithful w shown) (hlater : shown.Precedes w'.session) :
    if renewed then Faithful w' w'.session ∧ w'.untyped = w'.render else Faithful w' shown := by
  cases h with
  | kept hk => exact hf.of_keeps hk
  | synced hk =>
    rename_i w'
    rw [session_sync] at hlater ⊢
    obtain ⟨hsig, hhigh, hcontent⟩ := faithful_sync (hf.of_keeps hk) hlater
    refine ⟨⟨hsig, hhigh, by rw [hcontent, refreshSend_render]⟩, ?_⟩
    exact untyped_eq_render (by rw [session_sync, hhigh]) (by rw [session_sync, hcontent])
  | rendered w' =>
    exact ⟨faithful_render w', untyped_eq_render rfl (typeFolder_render w'.session)⟩

end Renewal

/-- What is done at the end of a call shows what has changed or keeps the window. -/
theorem renewal_conclude {w w' : Window} (hk : w.Keeps w') (after : After)
    (e : Ending Result Failure) :
    Renewal w (after.syncs (.finish e)) (conclude after e w').1 := by
  unfold conclude
  split
  · exact .kept hk
  · rename_i r hafter
    have hsyncs : after.syncs (.finish (.returned r)) = true := by
      cases after with
      | nothing => exact absurd rfl hafter
      | _ => rfl
    rw [hsyncs]
    exact .synced hk
  · rename_i t
    split
    · rename_i ht
      rw [show After.report.syncs (.finish (.raised (.folder t))) = true from ht]
      exact .synced ⟨hk.signature, hk.highlighted, hk.content⟩
    · rename_i ht
      rw [show After.report.syncs (.finish (.raised (.folder t))) = false from
        Bool.eq_false_iff.mpr ht]
      exact .kept hk
  · rename_i hnothing hreturned hraised
    have hsyncs : after.syncs (.finish e) = false := by
      cases after with
      | nothing => rfl
      | refresh =>
        cases e with
        | returned r => exact absurd rfl (hreturned r)
        | raised f => rfl
        | cancelled => rfl
      | report =>
        cases e with
        | returned r => exact absurd rfl (hreturned r)
        | raised f =>
          cases f with
          | folder t => exact absurd rfl (hraised t rfl)
          | _ => rfl
        | cancelled => rfl
    rw [hsyncs]
    exact .kept hk

theorem Window.keeps_of_session (w : Window) (s : World) : w.Keeps { w with session := s } :=
  ⟨rfl, rfl, rfl⟩

/-- The window after a run of a task. -/
theorem renewal_behaviour (facts : Facts) (j : Job) (wake : Wake) (w : Window) :
    Renewal w
      (!(wake = .go ∧ j.isIdle w.session) &&
        j.after.syncs (Session.behaviour facts j.call wake w.session).next)
      (Page.behaviour facts j wake w).state := by
  have hk := w.keeps_of_session (Session.behaviour facts j.call wake w.session).state
  unfold Page.behaviour
  by_cases hidle : wake = .go ∧ j.isIdle w.session = true
  · rw [if_pos hidle]
    simp only [hidle, and_self, decide_true, Bool.not_true, Bool.false_and]
    exact .kept ⟨rfl, rfl, rfl⟩
  · rw [if_neg hidle]
    simp only [hidle, decide_false, Bool.not_false, Bool.true_and]
    cases hn : (Session.behaviour facts j.call wake w.session).next with
    | pause pause c =>
      have hsyncs : j.after.syncs (.pause pause c) = false := by cases j.after <;> rfl
      rw [hsyncs]
      exact .kept hk
    | finish e => exact renewal_conclude hk j.after e

/-- **The window after a step.** -/
theorem renewal_step (p : Page) (m : Move) : Renewal p.state (p.renews m) (p.step m).state := by
  have hkept : ∀ {p' : Page}, p'.state = p.state → Renewal p.state false p'.state := by
    intro p' h
    rw [h]
    exact .kept ⟨rfl, rfl, rfl⟩
  cases m with
  | turn =>
    show Renewal p.state (p.renews .turn) (p.turned Page.behaviour).state
    unfold renews
    cases hres : p.resumption? with
    | none => exact hkept (Loop.rests_turned hres).state
    | some r =>
      obtain ⟨t, j, wake⟩ := r
      cases wake with
      | none =>
        rw [Loop.turned_of_drop hres]
        exact hkept (Loop.keeps_finish t .cancelled p.popped).state
      | some wake =>
        rw [Loop.state_turned_of_run hres]
        exact renewal_behaviour p.facts j wake p.state
  | click name =>
    show Renewal p.state
      (match findButton? name p.state.elements with
        | some (true, .activate _) => true
        | _ => false) (p.click name).1.state
    unfold click
    cases findButton? name p.state.elements with
    | none => exact hkept rfl
    | some button =>
      obtain ⟨enabled, action⟩ := button
      cases enabled with
      | false => exact hkept rfl
      | true =>
        cases action with
        | activate t => exact .rendered _
        | _ => exact hkept rfl
  | type placeholder text =>
    show Renewal p.state false (p.type placeholder text).1.state
    unfold Page.type
    split
    · exact hkept rfl
    · exact .kept ⟨rfl, rfl, rfl⟩
    · exact .kept ⟨rfl, rfl, typeFolder_typeFolder text "" p.state.content⟩
  | enter placeholder =>
    show Renewal p.state false (p.enter placeholder).1.state
    unfold enter
    split <;> exact hkept rfl
  | tick => exact .synced ⟨rfl, rfl, rfl⟩
  | disconnect => exact hkept rfl
  | answer t r =>
    show Renewal p.state false (p.answer t r).state
    unfold answer
    split
    · exact hkept (Loop.keeps_signal t _ p).state
    · exact hkept rfl
  | read t selected =>
    show Renewal p.state false (p.deliver t selected).state
    unfold deliver
    split
    · exact hkept (Loop.keeps_signal t _ p).state
    · exact hkept rfl
  | wait ticks => exact hkept rfl

/-! ## 5. Runs -/

/-- The window of a page shows a state that its session has passed through. -/
structure Shows (start : Session) (p : Page) (ms ns : List Session.Move) : Prop where
  shadow : p.shadow = ((start.play ms).play ns).shadow
  faithful : Faithful p.state (start.play ms).state

section

variable (config : Config) (client : Client) (files : FileSystem)

/-- **One step**: the window shows a state that the session has passed through, after a renewal the
    state it has come to, and else the one that it has shown before. -/
theorem shows_step {p : Page} {ms ns : List Session.Move}
    (h : Shows (Session.opened client config.autoNavigateDelay (some Chat.welcome) files) p ms ns)
    (m : Move) :
    let start := Session.opened client config.autoNavigateDelay (some Chat.welcome) files
    (∃ ms' ns', Shows start (p.step m) ms' ns' ∧ (start.play ms').state =
      if p.renews m then (p.step m).state.session else (start.play ms).state) ∧
    (p.renews m = true → (p.step m).state.untyped = (p.step m).state.render) := by
  generalize hstart : Session.opened client config.autoNavigateDelay (some Chat.welcome) files =
    start at h ⊢
  have ht : Tidy ((start.play ms).play ns) := by
    rw [← Session.play_append, ← hstart]
    exact tidy_play client config.autoNavigateDelay (some Chat.welcome) files (ms ++ ns)
  obtain ⟨ns', hshadow⟩ := shadow_step h.shadow ht.listeners m
  rw [← Session.play_append] at hshadow
  have hlater : (start.play ms).state.Precedes (p.step m).state.session := by
    rw [session_of_shadow hshadow, ← hstart]
    exact precedes_play client config.autoNavigateDelay (some Chat.welcome) files ms (ns ++ ns')
  have hrenewal := (renewal_step p m).faithful h.faithful hlater
  cases hrenews : p.renews m with
  | false =>
    rw [hrenews] at hrenewal
    exact ⟨⟨ms, ns ++ ns', ⟨hshadow, hrenewal⟩, rfl⟩, fun hfalse => by cases hfalse⟩
  | true =>
    rw [hrenews] at hrenewal
    have hstate : (start.play (ms ++ (ns ++ ns'))).state = (p.step m).state.session := by
      rw [Session.play_append, session_of_shadow hshadow]
    refine ⟨⟨ms ++ (ns ++ ns'), [], ⟨?_, ?_⟩, hstate⟩, fun _ => hrenewal.2⟩
    · rw [Session.play_append, Session.play_nil]
      exact hshadow
    · rw [hstate]
      exact hrenewal.1

/-- **The window always shows a state that the session has passed through.** -/
theorem shows_play (ms : List Move) : ∃ ns ns',
    Shows (Session.opened client config.autoNavigateDelay (some Chat.welcome) files)
      ((opened config client files).play ms) ns ns' := by
  refine play_induction (P := fun p => ∃ ns ns', Shows _ p ns ns') ⟨[], [], rfl, rfl, rfl, rfl⟩
    (fun p m h => ?_) ms
  obtain ⟨ns, ns', h⟩ := h
  obtain ⟨⟨ks, ks', h', -⟩, -⟩ := shows_step config client files h m
  exact ⟨ks, ks', h'⟩

/-- **Whenever what has changed is shown, the window is as rendered from scratch**, but for what is
    typed in it. -/
theorem shown_of_renews (ms : List Move) (m : Move)
    (h : ((opened config client files).play ms).renews m = true) :
    let p := ((opened config client files).play ms).step m
    p.state.untyped = p.state.render := by
  obtain ⟨ns, ns', hshows⟩ := shows_play config client files ms
  exact (shows_step config client files hshows m).2 h

end

/-- The settings of a page whose backend is on the same machine. -/
def localConfig : Config :=
  ⟨"http://localhost:8080", Binary64.ofDecimal false 120 0, defaultDelay, "0.0.0.0", 8000, "INFO"⟩

/-- The store is inspected, and answers. -/
def inspected (task : TaskId) (reply : Reply) : List Move :=
  [.click "Inspect DB", .turn, .answer task reply, .turn, .turn]

/-- A store with one record. -/
def oneRecord : Reply :=
  .common 200 (Text.Utf8.encode "\x7b\"ids\": [\"r1\"]\x7d") none

/-- The timer fires after a record has been fetched: the window still shows that it is fetched, and
    from then on the record. -/
theorem shown_of_inspected :
    let p := (opened localConfig sample.state.client default).play (inspected 0 oneRecord)
    p.renews .tick = true ∧ Signature.of p.state.session ≠ p.state.signature ∧
      p.state.content ≠ (p.step .tick).state.content ∧
      (p.step .tick).state.untyped = (p.step .tick).state.render := by
  intro p
  have hchanged : p.renews .tick = true ∧ Signature.of p.state.session ≠ p.state.signature ∧
      p.state.content ≠ (p.step .tick).state.content := by decide +kernel
  obtain ⟨hrenews, hsignature, hcontent⟩ := hchanged
  exact ⟨hrenews, hsignature, hcontent,
    shown_of_renews localConfig sample.state.client default (inspected 0 oneRecord) .tick hrenews⟩

end Page

end CodeSession
