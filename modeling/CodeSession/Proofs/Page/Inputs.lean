import CodeSession.Proofs.Page.Refresh

/-!
# What is typed on a page

The timer renews what a page shows while the user types into it. The draft of a message is the
session's and stays whatever is renewed; a folder is only held by its field, and a field that is
rendered anew is empty.

* `Window.inputs` -- the fields of a window with their texts, told by `fields`: the draft on the chat,
  the folder on the ingestion, none on the inspection;
* `folder_sync` -- showing what has changed empties the folder unless the signature is that of the
  state which is shown;
* `lastShown`, `faithful_lastShown` -- what a page shows is the state at its last renewal;
* `inputs_of_tick` -- the timer keeps what is typed, but for a folder when anything of any tab has
  changed since then (`emptied_of_folderTyped`).
-/

namespace CodeSession

open Session Backend Folder Text

namespace Page

/-! ## 1. Fields -/

/-- The field that an element is, with its text. -/
def Element.input? : Element → Option (Field × String)
  | .input field text => some (field, text)
  | _ => none

/-- The fields of a window, with their texts. -/
def Window.inputs (w : Window) : List (Field × String) :=
  w.elements.filterMap Element.input?

/-- The tab that a content is of. -/
def Content.tab : Content → Tab
  | .chat _ => .chat
  | .inspect _ => .inspect
  | .ingest _ => .ingest

/-- The folder that is typed in a content. -/
def Content.folder : Content → String
  | .ingest v => v.folder
  | _ => ""

/-- The fields of a tab, for a draft and a folder. -/
def fields (t : Tab) (draft folder : String) : List (Field × String) :=
  match t with
  | .chat => [(.draft, draft)]
  | .inspect => []
  | .ingest => [(.folder, folder)]

theorem fields_eq_iff {t : Tab} {draft a b : String} :
    fields t draft a = fields t draft b ↔ (t = .ingest → a = b) := by
  cases t <;> simp [fields]

theorem inputs_elements (draft : String) (c : Content) :
    (c.elements draft).filterMap Element.input? = fields c.tab draft c.folder := by
  cases c with
  | chat v =>
    have hbubbles : (v.bubbles.map bubble).filterMap Element.input? = [] := by
      simp [bubble, Element.input?]
    rw [Content.elements, List.filterMap_append, List.filterMap_append, hbubbles]
    cases v.typing <;> rfl
  | inspect v =>
    have herror : ∀ error : Option String,
        (error.toList.map fun e => Element.label e []).filterMap Element.input? = [] := by
      simp [Element.input?]
    obtain ⟨fetching, rows | ⟨text, error⟩⟩ := v
    · cases fetching <;> rfl
    · cases fetching <;> exact herror error
  | ingest v =>
    rw [Content.elements, List.filterMap_append]
    cases v.banner <;> rfl

/-- **The fields of a window** are those of the tab that its content is of. -/
theorem inputs_eq_fields (w : Window) :
    w.inputs = fields w.content.tab w.session.chat.draft w.content.folder := by
  have hsidebar : (sidebar w.highlighted).filterMap Element.input? = [] := rfl
  rw [Window.inputs, Window.elements, List.filterMap_append, hsidebar, List.nil_append,
    inputs_elements]

/-! ## 2. Renewals -/

@[simp] theorem tab_typeFolder (text : String) (c : Content) : (c.typeFolder text).tab = c.tab := by
  cases c <;> rfl

@[simp] theorem tab_refreshSend (chat : Chat) (c : Content) : (c.refreshSend chat).tab = c.tab := by
  cases c <;> rfl

@[simp] theorem tab_refreshChat (chat : Chat) (c : Content) : (c.refreshChat chat).tab = c.tab := by
  cases c <;> rfl

@[simp] theorem tab_render (w : World) : (Content.render w).tab = w.tabs.active := by
  unfold Content.render
  split <;> simp_all [Content.tab]

@[simp] theorem folder_refreshSend (chat : Chat) (c : Content) :
    (c.refreshSend chat).folder = c.folder := by
  cases c <;> rfl

@[simp] theorem folder_render (w : World) : (Content.render w).folder = "" := by
  unfold Content.render
  split <;> rfl

/-- A folder is only typed on the ingestion. -/
theorem folder_of_tab_ne {c : Content} (h : c.tab ≠ .ingest) : c.folder = "" := by
  cases c with
  | ingest v => exact absurd rfl h
  | _ => rfl

variable {w : Window} {shown : World}

/-- The content is of the tab that is highlighted. -/
theorem Faithful.tab (h : Faithful w shown) : w.content.tab = w.highlighted := by
  have htab := congrArg Content.tab h.content
  rw [tab_refreshSend, tab_typeFolder, tab_render] at htab
  exact htab.trans h.highlighted.symm

/-- **Showing what has changed empties the folder**, unless the signature has stayed as it was. -/
theorem folder_sync (h : Faithful w shown) :
    w.sync.content.folder =
      if Signature.of w.session = w.signature then w.content.folder else "" := by
  unfold Window.sync
  dsimp only
  split
  · split
    · exact folder_refreshSend _ _
    · rfl
  · split
    · rename_i hchat
      -- it is the transcript that is renewed in place, and no folder is typed beside it
      have hshown : w.content.tab = .chat := by
        rw [h.tab, h.highlighted, ← hchat.1]
        exact (congrArg Signature.tab h.signature).symm.trans hchat.2.symm
      refine folder_of_tab_ne ?_
      show (w.content.refreshChat w.session.chat).tab ≠ .ingest
      rw [tab_refreshChat, hshown]
      decide
    · exact folder_render w.session

/-- The fields after what has changed is shown. -/
theorem inputs_sync (h : Faithful w shown) (hlater : shown.Precedes w.session) :
    w.sync.inputs = fields w.sync.highlighted w.session.chat.draft
      (if Signature.of w.session = w.signature then w.content.folder else "") := by
  obtain ⟨-, hhigh, hcontent⟩ := faithful_sync h hlater
  have htab : w.sync.content.tab = w.sync.highlighted := by
    rw [hhigh, ← tab_render, ← hcontent, tab_typeFolder]
  rw [inputs_eq_fields, htab, session_sync, folder_sync h]

/-! ## 3. Runs -/

/-- The state of the session that a page shows after a run: the one it had come to when what had
    changed was last shown, or the one that was shown before the run. -/
def lastShown (shown : World) (p : Page) : List Move → World
  | [] => shown
  | m :: ms => lastShown (if p.renews m then (p.step m).state.session else shown) (p.step m) ms

section

variable (config : Config) (client : Client) (files : FileSystem)

/-- A run brings the window to the state at its last renewal. -/
theorem shows_lastShown {p : Page} {ns ns' : List Session.Move}
    (h : Shows (Session.opened client config.autoNavigateDelay (some Chat.welcome) files) p ns ns')
    (ms : List Move) :
    let start := Session.opened client config.autoNavigateDelay (some Chat.welcome) files
    ∃ ks ks', Shows start (p.play ms) ks ks' ∧
      (start.play ks).state = lastShown (start.play ns).state p ms := by
  intro start
  induction ms generalizing p ns ns' with
  | nil => exact ⟨ns, ns', h, rfl⟩
  | cons m ms ih =>
    obtain ⟨⟨ks, ks', h', hshown⟩, -⟩ := shows_step config client files h m
    obtain ⟨js, js', hshows, hlast⟩ := ih h'
    refine ⟨js, js', hshows, ?_⟩
    rw [hlast, hshown]
    rfl

/-- **A page shows the state at its last renewal**, which precedes the one its session has come to. -/
theorem faithful_lastShown (ms : List Move) :
    let p := opened config client files
    let shown := lastShown p.state.session p ms
    Faithful (p.play ms).state shown ∧ shown.Precedes (p.play ms).state.session := by
  intro p shown
  have hopened : Shows (Session.opened client config.autoNavigateDelay (some Chat.welcome) files)
      p [] [] := ⟨rfl, rfl, rfl, rfl⟩
  obtain ⟨ns, ns', hshows, hshown⟩ := shows_lastShown config client files hopened ms
  change _ = shown at hshown
  rw [← hshown, session_of_shadow hshows.shadow]
  exact ⟨hshows.faithful,
    precedes_play client config.autoNavigateDelay (some Chat.welcome) files ns ns'⟩

/-- **The timer keeps what is typed** if the tab stays the same, with one exception. The texts of all
    fields stay as they are exactly if, on the ingestion, no folder is typed or the session looks as it
    did when what had changed was last shown. On the chat the draft stays whatever has changed; a folder
    does not, be the change one of the chat, the inspection or the upload: its field is empty
    afterwards. -/
theorem inputs_of_tick (ms : List Move) :
    let p := (opened config client files).play ms
    let w := p.state
    let w' := (p.step .tick).state
    let shown := lastShown (opened config client files).state.session (opened config client files) ms
    w'.highlighted = w.highlighted →
      (w'.inputs = w.inputs ↔
        (w.highlighted = .ingest → w.content.folder = "" ∨ LooksLike shown w.session)) ∧
      w.inputs = fields w.highlighted w.session.chat.draft w.content.folder ∧
      (¬ LooksLike shown w.session → w'.inputs = fields w.highlighted w.session.chat.draft "") := by
  intro p w w' shown htick
  obtain ⟨hfaithful, hlater⟩ := faithful_lastShown config client files ms
  -- the tab is the one that is shown, so the signature tells whether anything else has changed
  have htab : w.session.tabs.active = shown.tabs.active :=
    (faithful_sync hfaithful hlater).2.1.symm.trans (htick.trans hfaithful.highlighted)
  have hsignature : Signature.of w.session = w.signature ↔ LooksLike shown w.session := by
    rw [show w.signature = _ from hfaithful.signature, signature_eq_iff hlater]
    exact and_iff_right htab
  have hbefore : w.inputs = fields w.highlighted w.session.chat.draft w.content.folder := by
    rw [inputs_eq_fields, hfaithful.tab]
  have hafter : w'.inputs = fields w.highlighted w.session.chat.draft
      (if Signature.of w.session = w.signature then w.content.folder else "") :=
    (inputs_sync hfaithful hlater).trans (by rw [show w.sync.highlighted = _ from htick])
  refine ⟨?_, hbefore, fun hchanged => ?_⟩
  · rw [hbefore, hafter, fields_eq_iff]
    refine imp_congr_right fun _ => ?_
    split
    · rename_i hsame
      exact iff_of_true rfl (.inr (hsignature.mp hsame))
    · rename_i hchanged
      rw [hsignature] at hchanged
      exact ⟨fun h => .inl h.symm, fun h => (h.resolve_right hchanged).symm⟩
  · rw [hafter, if_neg (mt hsignature.mp hchanged)]

end

/-- The store is inspected, and answers when the user has turned to another tab and typed a text. -/
def typedMeanwhile (tab placeholder text : String) : List Move :=
  [.click "Inspect DB", .turn, .click tab, .type placeholder text,
    .answer 0 (.common 200 (Utf8.encode "No collections found.") none), .turn]

/-- A message that is typed meanwhile stays. -/
theorem inputs_of_draftTyped :
    let p := (opened localConfig sample.state.client default).play
      (typedMeanwhile "Chat" "Ask a question about your code..." "where is main")
    (p.step .tick).state.highlighted = p.state.highlighted ∧ p.state.highlighted = .chat ∧
      p.state.session.inspection.loading = false ∧ p.state.signature.loading = true ∧
      (p.step .tick).state.inputs = p.state.inputs ∧
      p.state.inputs = [(.draft, "where is main")] := by
  intro p
  have htick : (p.step .tick).state.highlighted = p.state.highlighted := by decide +kernel
  have hchat : p.state.highlighted = .chat := by decide +kernel
  have hdraft : p.state.session.chat.draft = "where is main" := by decide +kernel
  obtain ⟨hkept, hinputs, -⟩ := inputs_of_tick localConfig sample.state.client default _ htick
  refine ⟨htick, hchat, by decide +kernel, by decide +kernel, hkept.mpr fun h => ?_, ?_⟩
  · rw [show _ = Tab.chat from hchat] at h
    cases h
  · rw [show p.state.inputs = _ from hinputs, show _ = Tab.chat from hchat,
      show _ = "where is main" from hdraft]
    rfl

/-- A folder that is typed meanwhile is lost when the timer fires. -/
theorem emptied_of_folderTyped :
    let p := (opened localConfig sample.state.client default).play
      (typedMeanwhile "Ingest" "/path/to/project" "/home/me/project")
    (p.step .tick).state.highlighted = p.state.highlighted ∧ p.state.highlighted = .ingest ∧
      p.state.inputs = [(.folder, "/home/me/project")] ∧
      (p.step .tick).state.inputs = [(.folder, "")] := by
  decide +kernel

end Page

end CodeSession
