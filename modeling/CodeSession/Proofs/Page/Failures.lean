import CodeSession.Proofs.Page.Refresh

/-!
# What a page shows of a failed fetch

The failure of the latest fetch is shown in the place of the records.

* `error_ne_empty` -- a failure always has something to say;
* `Content.error?` -- the failure that a content tells of;
* `error?_render` -- a rendered inspection tells of the failure unless records are held;
* `error_shown_iff` -- and so does the page, whenever it is renewed: records that an earlier fetch
  brought hide the failure of a later one (`hidden_of_failedRefresh`).
-/

namespace CodeSession

open Session Backend Folder Text

/-! ## 1. Failures -/

namespace Inspection

theorem describe_ne_empty (t : Trouble) : describe t ≠ "" := by
  unfold describe
  split
  · decide
  · rename_i h
    exact fun he => h (String.isEmpty_iff.mpr he)

/-- The end of a fetch leaves the failure, or tells of one with a description. -/
theorem error_resolve (number : Nat) (fate : Fate RecordSet) (i : Inspection) :
    (i.resolve number fate).error = i.error ∨
      ∃ t, (i.resolve number fate).error = some (describe t) := by
  by_cases hlatest : number = i.issued
  · subst hlatest
    cases fate with
    | landed outcome =>
      obtain (t | f) | records := outcome
      · exact .inr ⟨t, by simp [resolve, land]⟩
      · exact .inl (by simp [resolve, land])
      · exact .inl (by simp [resolve, land])
    | aborted => exact .inl (by simp [resolve, abandon])
    | unbegun => exact .inl rfl
  · exact .inl (congrArg error (resolve_stale hlatest fate))

/-- A table is shown if records are held. -/
theorem showTable_eq_false_iff {i : Inspection} : i.showTable = false ↔ i.rows = [] := by
  unfold showTable rows
  cases i.snapshot with
  | none => simp
  | some held => simp [← List.length_eq_zero_iff, RecordSet.length_rows]

end Inspection

namespace Session

variable {s s' : Session} {m : Move} {o : Option FetchEnd}

theorem Course.error_ne_empty (h : Course s m s' o) (hs : s.state.inspection.error ≠ some "") :
    s'.state.inspection.error ≠ some "" := by
  cases h with
  | still hm hall hi => rwa [hi]
  | issued t hm ht hnew hother hi =>
    rw [hi]
    exact fun he => by cases he
  | ended t n fate hm ht hgone hother hi hopen =>
    rw [hi]
    rcases Inspection.error_resolve n fate s.state.inspection with hsame | ⟨trouble, htrouble⟩
    · rwa [hsame]
    · rw [htrouble]
      exact fun he => Inspection.describe_ne_empty trouble (Option.some.inj he)

/-- **A failure always has something to say.** -/
theorem error_ne_empty (client : Client) (delay : Binary64) (greeting : Option String)
    (files : FileSystem) (ms : List Move) :
    ((opened client delay greeting files).play ms).state.inspection.error ≠ some "" :=
  (play_induction (P := fun z => Tidy z ∧ z.state.inspection.error ≠ some "")
    ⟨tidy_opened client delay greeting files, fun he => by cases he⟩
    (fun _ m h => ⟨tidy_step h.1 m, (course_step h.1 m).error_ne_empty h.2⟩) ms).2

end Session

namespace Page

/-! ## 2. The inspection -/

/-- The failure that a content tells of. -/
def Content.error? : Content → Option String
  | .inspect ⟨_, .placeholder _ error⟩ => error
  | _ => none

/-- It stands in a label of its own. -/
theorem label_mem_of_error? {c : Content} {e : String} (h : c.error? = some e) (draft : String) :
    .label e [] ∈ c.elements draft := by
  cases c with
  | inspect v =>
    obtain ⟨fetching, records⟩ := v
    cases records with
    | table rows => cases h
    | placeholder text error =>
      obtain rfl : error = some e := h
      simp [Content.elements]
  | _ => cases h

/-- The texts of the labels of a window. -/
def Window.labels (w : Window) : List String :=
  w.elements.filterMap fun
    | .label text _ => some text
    | _ => none

theorem mem_labels_of_error? {w : Window} {e : String} (h : w.content.error? = some e) :
    e ∈ w.labels :=
  List.mem_filterMap.mpr ⟨.label e [], List.mem_append_right _ (label_mem_of_error? h _), rfl⟩

@[simp] theorem error?_typeFolder (text : String) (c : Content) :
    (c.typeFolder text).error? = c.error? := by
  cases c <;> rfl

/-- **A rendered inspection tells of the failure** unless records are held, and then it shows them
    instead. -/
theorem error?_render {w : World} (htab : w.tabs.active = .inspect) {e : String} (hne : e ≠ "")
    (herror : w.inspection.error = some e) :
    ((Content.render w).error? = some e ↔ w.inspection.rows = []) ∧
    (w.inspection.rows ≠ [] → Content.render w =
      .inspect ⟨w.inspection.loading, .table (w.inspection.rows.map Row.of)⟩) := by
  have hrender : Content.render w = .inspect (InspectView.of w.inspection) := by
    rw [Content.render, htab]
  have htold : (some e).filter (fun e => !e.isEmpty) = some e := by simp [hne]
  rw [hrender]
  cases htable : w.inspection.showTable with
  | true =>
    have hview : InspectView.of w.inspection =
        ⟨w.inspection.loading, .table (w.inspection.rows.map Row.of)⟩ := by
      rw [InspectView.of, htable]
      rfl
    have hrows : w.inspection.rows ≠ [] := fun h => by
      rw [Inspection.showTable_eq_false_iff.mpr h] at htable
      cases htable
    rw [hview]
    exact ⟨iff_of_false (fun h => by cases h) hrows, fun _ => rfl⟩
  | false =>
    have hview : InspectView.of w.inspection =
        ⟨w.inspection.loading, .placeholder w.inspection.placeholder (some e)⟩ := by
      rw [InspectView.of, htable, herror, htold]
      rfl
    have hrows := Inspection.showTable_eq_false_iff.mp htable
    rw [hview]
    exact ⟨iff_of_true rfl hrows, fun h => absurd hrows h⟩

/-! ## 3. The page -/

section

variable (config : Config) (client : Client) (files : FileSystem)

/-- The session of a page never holds a failure that has nothing to say. -/
theorem session_error_ne_empty (ms : List Move) :
    ((opened config client files).play ms).state.session.inspection.error ≠ some "" := by
  obtain ⟨ns, ns', hshows⟩ := shows_play config client files ms
  rw [session_of_shadow hshows.shadow, ← Session.play_append]
  exact Session.error_ne_empty client config.autoNavigateDelay (some Chat.welcome) files (ns ++ ns')

/-- **A failed refresh is shown if there are no records to show.** Whenever what has changed is
    shown, the inspection being the tab, and whenever the timer fires, the page tells of the failure
    of the latest fetch, in a label of its own, if the last snapshot that was fetched has no records
    or none has been fetched yet. It does not if there are some: it shows their table alone. -/
theorem error_shown_iff (ms : List Move) :
    let p := (opened config client files).play ms
    p.renews .tick = true ∧ (p.step .tick).state.session = p.state.session ∧
    ∀ m, p.renews m = true →
      let w := (p.step m).state
      let i := w.session.inspection
      w.session.tabs.active = .inspect → ∀ e, i.error = some e →
        (w.content.error? = some e ↔ i.rows = []) ∧
        (i.rows = [] → e ∈ w.labels) ∧
        (i.rows ≠ [] → w.content = .inspect ⟨i.loading, .table (i.rows.map Row.of)⟩) := by
  intro p
  refine ⟨rfl, session_sync p.state, fun m hm => ?_⟩
  intro w i htab e herror
  obtain ⟨ns, ns', hshows⟩ := shows_play config client files ms
  have huntyped : w.untyped = w.render := (shows_step config client files hshows m).2 hm
  have hcontent : w.content.typeFolder "" = Content.render w.session :=
    congrArg Window.content huntyped
  have hne : e ≠ "" := fun he => by
    have hplay : p.step m = (opened config client files).play (ms ++ [m]) :=
      (play_append _ ms [m]).symm
    apply session_error_ne_empty config client files (ms ++ [m])
    rw [← hplay, ← he]
    exact herror
  obtain ⟨hiff, htable⟩ := error?_render htab hne herror
  rw [← hcontent, error?_typeFolder] at hiff
  refine ⟨hiff, fun hrows => mem_labels_of_error? (hiff.mpr hrows), fun hrows => ?_⟩
  have hrendered := hcontent.trans (htable hrows)
  cases hc : w.content with
  | ingest v =>
    rw [hc] at hrendered
    cases hrendered
  | _ =>
    rw [hc] at hrendered
    exact hrendered

end

/-- A backend that cannot reach its store. -/
def storeDown : Reply :=
  .common 500 (Utf8.encode "store is down") none

/-- The first fetch fails, and the page tells of it. -/
theorem error_shown_of_storeDown :
    let p := (opened localConfig sample.state.client default).play (inspected 0 storeDown)
    p.renews .tick = true ∧ (p.step .tick).state.session.tabs.active = .inspect ∧
      (p.step .tick).state.session.inspection.error = some "store is down" ∧
      "store is down" ∈ (p.step .tick).state.labels := by
  intro p
  obtain ⟨htick, -, hall⟩ :=
    error_shown_iff localConfig sample.state.client default (inspected 0 storeDown)
  have htab : (p.step .tick).state.session.tabs.active = .inspect := by decide +kernel
  have herror : (p.step .tick).state.session.inspection.error = some "store is down" := by
    decide +kernel
  exact ⟨htick, htab, herror, (hall .tick htick htab _ herror).2.1 rfl⟩

/-- A fetch brings a record and the next one fails: the page does not tell of it when its timer
    fires. -/
theorem hidden_of_failedRefresh :
    let p := (opened localConfig sample.state.client default).play
      (inspected 0 oneRecord ++ inspected 1 storeDown)
    p.state.session.tabs.active = .inspect ∧
      p.state.session.inspection.error = some "store is down" ∧
      (p.step .tick).state.session.inspection.error = some "store is down" ∧
      "store is down" ∉ (p.step .tick).state.labels := by
  decide +kernel

end Page

end CodeSession
