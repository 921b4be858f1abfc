import CodeSession.Proofs.Session.Exchange
import CodeSession.Proofs.Session.Frozen

/-!
# The files that a call carries

The files of an upload are given to a call, or read for it, and are sent in one request.

* `given?`, `issued?` -- the files that a move gives to a call, and those that a move sends, with the
  call that sends them;
* `Load` -- what a call carries: it waits for files, holds them, or has sent them in a request;
* `Issues`, `issues_behaviour` -- a run of a call sends the files that it holds or none;
* `selection_behaviour` -- a run leaves a selection only to an upload that is under way;
* `load_before` -- between runs a call carries what it carried, or what it is given.
-/

namespace CodeSession

open Backend

/-! ## 1. What is given and what is sent -/

/-- The files that a request uploads. -/
def Backend.Request.batch? : Request → Option (List SelectedFile)
  | .upload files => some files
  | _ => none

/-- The lists of files that the client has sent, in order. -/
def Backend.Client.batches (c : Client) : List (List SelectedFile) :=
  c.sent.filterMap Request.batch?

namespace Session

open Folder

/-- The files of a call. -/
structure Batch where
  call : TaskId
  files : List SelectedFile
  deriving DecidableEq

/-- The files that a move gives to a call: the user launches their upload, or they are what was read
    for a call that waits for a folder. -/
def given? (s : Session) : Move → Option Batch
  | .launch (.upload files) => some ⟨s.tasks.length, files⟩
  | .read t (.ok files) =>
    match s.stage? t with
    | some (.waiting c .signal) => c.path?.map fun _ => ⟨t, files⟩
    | _ => none
  | _ => none

/-- The files that a move sends, with the call that it resumes. -/
def issued? (s : Session) (m : Move) : Option Batch :=
  (s.resumed? m).bind fun r =>
    ((s.step m).state.client.batches.drop s.state.client.batches.length).head?.map fun files =>
      ⟨r.task, files⟩

/-- The call that a move launches with a folder or with files. -/
def selecting? (s : Session) : Move → Option TaskId
  | .launch (.choose _) | .launch (.upload _) => some s.tasks.length
  | _ => none

/-- What a call carries on the way of its files: it waits for them, holds them, or has sent them in
    a request. -/
inductive Load where
  | awaited
  | held (files : List SelectedFile)
  | sent (request : Nat)
  deriving DecidableEq

/-- What a call carries. -/
def Call.load? : Call → Option Load
  | .choose _ | .reading _ _ none => some .awaited
  | .upload files | .reading _ _ (some (.ok files)) => some (.held files)
  | .uploading x => some (.sent x.request)
  | _ => none

variable {facts : Facts} {w w' : World} {c c' : Call} {wake : Wake} {files : List SelectedFile}

@[simp] theorem load?_take (r : Reply) (c : Call) : (c.take r).load? = c.load? := by
  cases c <;> rfl

theorem load?_eq_none (hk : c.kind ≠ .upload) : c.load? = none := by
  cases c <;> first | rfl | exact absurd rfl hk

/-! ## 2. Runs of calls -/

/-- What a run of a call does with files: it sends those that it holds, and then it ends or has them
    under way, or it sends none. -/
inductive Issues (c : Call) (w : World) (r : Run) : Option (List SelectedFile) → Prop where
  | none (hsent : r.state.client.batches = w.client.batches)
    (hgrows : w.client.sent <+: r.state.client.sent)
    (hnext : ∀ c', r.next.continuation? = some c' →
      c'.load? = .none ∨ c'.load? = c.load? ∧ ∀ files, c.load? ≠ some (.held files))
    (htrue : c.kind = .upload → r.next = .finish (.returned (some true)) →
      ∃ n, c.load? = some (.sent n)) : Issues c w r .none
  | some (files : List SelectedFile) (hc : c.load? = some (.held files))
    (hsent : r.state.client.sent = w.client.sent ++ [.upload files])
    (hnext : ∀ c', r.next.continuation? = some c' →
      c'.load? = some (.sent w.client.sent.length)) : Issues c w r (some files)

/-- A run that ends without a request, and not as one that issued a request does. -/
theorem issues_none_of_over {r : Run} (hsent : r.state.client.sent = w.client.sent)
    (hover : r.next.continuation? = none) (htrue : r.next ≠ .finish (.returned (some true))) :
    Issues c w r none := by
  refine .none (by rw [Client.batches, hsent, Client.batches]) (hsent ▸ List.prefix_rfl)
    (fun c' hc' => ?_) fun _ h => absurd h htrue
  rw [hover] at hc'
  cases hc'

theorem issues_landUpload {orders : List (Order Call)} (outcome : Except CallTrouble String)
    (hc : c.load? = some (.held files))
    (hsent : w'.client.sent = w.client.sent ++ [.upload files]) :
    Issues c w (landUpload facts orders w' outcome) (some files) := by
  refine .some files hc (by rw [client_landUpload, hsent]) fun c' hc' => ?_
  obtain (t | f) | message := outcome <;> cases hc'

/-- What a client has sent after a request, and the number of one that is left open. -/
theorem sent_send (r : Request) (client : Client) :
    (∃ f, client.send r = (client, .refused f)) ∨
      (client.send r).1.sent = client.sent ++ [r] ∧ (∀ f, (client.send r).2 ≠ .refused f) ∧
        ∀ n, (client.send r).2 = .outstanding n → n = client.sent.length := by
  unfold Client.send
  split
  · exact .inl ⟨_, rfl⟩
  · split
    · exact .inl ⟨_, rfl⟩
    · refine .inr ?_
      dsimp only
      split
      · exact ⟨rfl, fun f h => (by cases h), fun n h => (by cases h)⟩
      · exact ⟨rfl, fun f h => (by cases h), fun n h => (by cases h; rfl)⟩

/-- Files that a call holds are sent as they are, or not at all. -/
theorem issues_beginUpload (hc : c.load? = some (.held files)) (hw : w'.client = w.client) :
    ∃ o, Issues c w (beginUpload facts files w') o := by
  by_cases h : files = [] ∨ w'.ingest.status.phase = .uploading
  · rw [beginUpload_refused facts h]
    exact ⟨none, issues_none_of_over (congrArg Client.sent hw) rfl fun e => by cases e⟩
  · obtain ⟨hfiles, hfree⟩ := not_or.mp h
    rw [beginUpload_eq facts hfiles hfree, hw]
    dsimp only
    rcases sent_send (.upload files) w.client with ⟨f, hsend⟩ | ⟨hsent, hno, hnumber⟩
    · rw [hsend]
      exact ⟨none, issues_none_of_over rfl rfl fun e => by cases e⟩
    · refine ⟨some files, ?_⟩
      generalize w.client.send (.upload files) = sending at hsent hno hnumber
      obtain ⟨client, _ | ⟨n, r⟩ | n⟩ := sending
      · exact absurd rfl (hno _)
      · exact issues_landUpload _ hc hsent
      · refine .some files hc hsent fun c' hc' => ?_
        cases hc'
        rw [← hnumber n rfl]
        rfl

/-- A call that goes on as it was sends nothing. -/
theorem issues_none_of_paused {p : Pause} {c' : Call} (hsame : c'.load? = c.load?)
    (hload : ∀ files, c.load? ≠ some (.held files)) : Issues c w (⟨w, [], .pause p c'⟩ : Run) none :=
  .none rfl List.prefix_rfl (fun c'' hc'' => .inr (by cases hc''; exact ⟨hsame, hload⟩))
    fun _ h => by cases h

/-- A call on the way of its files that goes on sends those that it holds, or none. -/
theorem issues_go (facts : Facts) (hk : c.kind = .upload) :
    ∃ o, Issues c w (behaviour facts c .go w) o := by
  cases c with
  | upload files =>
    have hrun : behaviour facts (.upload files) .go w =
      if facts.closed then w.done [] (some false) else beginUpload facts files w := rfl
    rw [hrun]
    split
    · exact ⟨none, issues_none_of_over rfl rfl fun e => by cases e⟩
    · exact issues_beginUpload rfl rfl
  | uploading x =>
    obtain ⟨n, _ | r⟩ := x
    · exact ⟨none, issues_none_of_paused rfl fun files h => by cases h⟩
    · have hclient : (endUpload facts [] r.answer w).state.client = w.client :=
        client_endUpload r.answer
      have hover : (endUpload facts [] r.answer w).next.continuation? = none :=
        continuation?_endUpload r.answer
      refine ⟨none, .none (congrArg Client.batches hclient) ?_ (fun c' hc' => ?_)
        fun _ _ => ⟨n, rfl⟩⟩
      · exact (congrArg Client.sent hclient).symm ▸ List.prefix_rfl
      · have hc'' := hover.symm.trans hc'
        cases hc''
  | choose path =>
    have hrun : behaviour facts (.choose path) .go w = beginChoose facts path w := rfl
    rw [hrun]
    unfold beginChoose
    split
    · exact ⟨none, issues_none_of_over rfl rfl fun e => by cases e⟩
    · exact ⟨none, issues_none_of_paused rfl fun files h => by cases h⟩
  | reading path held read =>
    obtain _ | t | files := read
    · exact ⟨none, issues_none_of_paused rfl fun files h => by cases h⟩
    · exact ⟨none, issues_none_of_over rfl rfl fun e => by cases e⟩
    · have hrun : behaviour facts (.reading path held (some (.ok files))) .go w =
          beginUpload facts files { w with ingest := w.ingest.select files } := rfl
      rw [hrun]
      exact issues_beginUpload rfl rfl
  | _ => cases hk

/-- Calls about something else upload nothing. -/
theorem issues_of_kind (facts : Facts) (wake : Wake) (hv : w.tabs.listeners = [viewer])
    (hk : c.kind ≠ .upload) : Issues c w (behaviour facts c wake w) none := by
  have hsent : (behaviour facts c wake w).state.client.batches = w.client.batches ∧
      w.client.sent <+: (behaviour facts c wake w).state.client.sent := by
    rcases client_behaviour facts wake hv with h | ⟨r, hr, h⟩ | h
    · rw [h]
      exact ⟨rfl, List.prefix_rfl⟩
    · rw [h]
      rcases sent_send r w.client with ⟨f, hsend⟩ | ⟨hsend, _⟩
      · rw [hsend]
        exact ⟨rfl, List.prefix_rfl⟩
      · have hother : r.batch? = none := by
          unfold Call.request at hr
          split at hr <;> first | cases hr; rfl | exact absurd rfl hk | cases hr
        rw [Client.batches, hsend, List.filterMap_append]
        exact ⟨by simp [Client.batches, hother], List.prefix_append _ _⟩
    · rw [h]
      exact ⟨rfl, List.prefix_rfl⟩
  refine .none hsent.1 hsent.2 (fun c' hc' => .inl ?_) fun h => absurd h hk
  cases hn : (behaviour facts c wake w).next with
  | finish e =>
    rw [hn] at hc'
    cases hc'
  | pause p c'' =>
    rw [hn] at hc'
    cases hc'
    exact load?_eq_none (((tame_behaviour c wake hv).kind p _ hn).1 ▸ hk)

/-- **A run of a call sends the files that it holds, as they are, or none.** -/
theorem issues_behaviour (facts : Facts) (wake : Wake) (hv : w.tabs.listeners = [viewer]) :
    ∃ o, Issues c w (behaviour facts c wake w) o := by
  by_cases hk : c.kind = .upload
  · cases wake with
    | go => exact issues_go facts hk
    | cancelled =>
      refine ⟨none, issues_none_of_over ?_ rfl fun e => by cases e⟩
      cases c <;> rfl
  · exact ⟨none, issues_of_kind facts wake hv hk⟩

/-- The selection is dropped unless an upload is under way. -/
theorem selection_beginUpload (facts : Facts) {files : List SelectedFile}
    (hsel : w.ingest.selection ≠ [] → files = [] → w.ingest.status.phase = .uploading)
    (h : (beginUpload facts files w).state.ingest.selection ≠ []) :
    (beginUpload facts files w).state.ingest.status.phase = .uploading := by
  by_cases hbusy : files = [] ∨ w.ingest.status.phase = .uploading
  · rw [beginUpload_refused facts hbusy] at h ⊢
    exact hbusy.elim (hsel h) id
  · obtain ⟨hfiles, hfree⟩ := not_or.mp hbusy
    have hland : ∀ orders w' outcome, (landUpload facts orders w' outcome).state.ingest.selection = [] := by
      intro orders w' outcome
      obtain (t | f) | message := outcome <;> rfl
    rw [beginUpload_eq facts hfiles hfree] at h ⊢
    dsimp only at h ⊢
    generalize w.client.send (.upload files) = sending at h ⊢
    obtain ⟨client, _ | ⟨n, r⟩ | n⟩ := sending
    · exact absurd (hland _ _ _) h
    · exact absurd (hland _ _ _) h
    · rfl

/-- **A run of a call leaves files selected only in the phase `uploading`.** -/
theorem selection_behaviour (facts : Facts) (wake : Wake) (hv : w.tabs.listeners = [viewer])
    (hw : w.ingest.selection ≠ [] → w.ingest.status.phase = .uploading)
    (h : (behaviour facts c wake w).state.ingest.selection ≠ []) :
    (behaviour facts c wake w).state.ingest.status.phase = .uploading := by
  by_cases hk : c.kind = .upload
  · cases wake with
    | cancelled =>
      cases c with
      | uploading x => exact absurd rfl h
      | upload files => exact hw h
      | choose path => exact hw h
      | reading path held read => exact hw h
      | _ => cases hk
    | go =>
      cases c with
      | upload files =>
        have hrun : behaviour facts (.upload files) .go w =
          if facts.closed then w.done [] (some false) else beginUpload facts files w := rfl
        rw [hrun] at h ⊢
        split at h
        · rename_i hclosed
          rw [if_pos hclosed]
          exact hw h
        · rename_i hopen
          rw [if_neg hopen]
          exact selection_beginUpload facts (fun hsel _ => hw hsel) h
      | uploading x =>
        obtain ⟨n, _ | r⟩ := x
        · exact hw h
        · exact absurd (selection_endUpload r.answer) h
      | choose path =>
        have hrun : behaviour facts (.choose path) .go w = beginChoose facts path w := rfl
        have hsame : (beginChoose facts path w).state = w := by
          unfold beginChoose
          split <;> rfl
        rw [hrun, hsame] at h ⊢
        exact hw h
      | reading path held read =>
        obtain _ | t | files := read
        · exact hw h
        · exact hw h
        · have hrun : behaviour facts (.reading path held (some (.ok files))) .go w =
              beginUpload facts files { w with ingest := w.ingest.select files } := rfl
          rw [hrun] at h ⊢
          exact selection_beginUpload facts (fun hsel hnil => absurd hnil hsel) h
      | _ => cases hk
  · have htouch : Touches c.kind w (behaviour facts c wake w).state := touches_behaviour c wake hv
    have hprepare := Ingest.selection_prepare w.ingest
    generalize behaviour facts c wake w = r at h htouch ⊢
    generalize c.kind = k at hk htouch
    generalize r.state = w' at h htouch ⊢
    cases htouch with
    | upload ingest client hsame => exact absurd rfl hk
    | navigation ingest tabs hor =>
      rcases hor with rfl | rfl
      · exact hw h
      · exact Ingest.phase_prepare_eq_uploading_iff.mpr (hw (hprepare ▸ h))
    | _ => exact hw h

/-! ## 3. Calm steps -/

section Calm

variable {s s' : Session} {m : Move} {t i : TaskId} {x : Load}

/-- A signal changes no continuation but that of a task that waits for it. -/
theorem continuation?_signal_of_ne (f : Call → Call) (s : Session) (hi : i ≠ t) :
    (s.signal t f).continuation? i = s.continuation? i := by
  rw [Loop.continuation?, Loop.stage?_signal_of_ne f s hi, ← Loop.continuation?]

/-- **A calm step leaves the continuations of calls alone**, but for one that it drops or that takes
    up what has come. -/
theorem Calm.continuation?_of_lt (h : Calm s m (s.step m)) (hi : i < s.tasks.length)
    (hanswer : ∀ r, m ≠ .answer i r) (hread : ∀ selected, m ≠ .read i selected) :
    (s.step m).continuation? i = none ∨ (s.step m).continuation? i = s.continuation? i := by
  cases m with
  | turn =>
    cases hr : s.resumption? with
    | none => exact .inr ((Loop.rests_turned hr).continuation? i)
    | some r =>
      by_cases hit : r.task = i
      · refine .inl ?_
        rw [← hit, Loop.continuation?_of_stage? (h.dropped r hr)]
        rfl
      · obtain ⟨u, c, w⟩ := r
        obtain rfl : w = none := h.wake _ hr
        refine .inr ?_
        rw [step_turn, Loop.turned_of_drop hr, Loop.continuation?, Loop.stage?_finish,
          if_neg (Ne.symm hit)]
        rfl
  | switch target =>
    refine .inr ?_
    rw [step_switch rfl]
    exact Loop.continuation?_foldl_obey
      (l := { s with state := (switchTab s.closed target s.state).1 }) hi
  | launch d =>
    refine .inr ?_
    show (Loop.add "" false d.call s).continuation? i = _
    rw [Loop.continuation?, Loop.stage?_add, if_neg (Nat.ne_of_lt hi), ← Loop.continuation?]
  | revoke t =>
    refine .inr ?_
    show (s.revoke t).continuation? i = _
    unfold revoke
    split
    · rw [Loop.continuation?, Loop.stage?_cancel, Loop.continuation?]
      split
      · cases s.stage? i <;> simp
      · rfl
    · rfl
  | answer t r =>
    refine .inr ?_
    show (s.answer t r).continuation? i = _
    unfold answer
    split
    · exact continuation?_signal_of_ne _ s fun e => hanswer r (by rw [e])
    · rfl
  | read t selected =>
    refine .inr ?_
    show (s.deliver t selected).continuation? i = _
    unfold deliver
    split
    · exact continuation?_signal_of_ne _ s fun e => hread selected (by rw [e])
    · rfl
  | _ => exact .inr rfl

/-- A call that waits for files is given them by a move that brings some, and stays as it is
    otherwise. -/
theorem stage?_read_self (selected : Selected) (s : Session) :
    (s.step (.read i selected)).stage? i = match s.stage? i with
      | some (.waiting c .signal) =>
        if c.path?.isSome then some (.queued (c.takeFiles selected) true false) else s.stage? i
      | _ => s.stage? i := by
  split
  · rename_i c hs
    split
    · rename_i hp
      exact stage?_step_read selected hs hp
    · rename_i hp
      have hno : ¬(s.shown? Call.path? i).isSome = true := by
        rw [Loop.shown?_of_stage? hs]
        exact hp
      simp only [step, deliver, if_neg hno]
  · rename_i hno
    have hsame : s.signal i (Call.takeFiles selected) = s := by
      unfold Loop.signal
      split
      · rename_i c hs
        exact absurd hs (hno c)
      · rfl
    show (s.deliver i selected).stage? i = _
    unfold deliver
    rw [hsame, ite_self]

/-- What a call carries does not change when a reply comes. -/
theorem shown?_load?_answer (r : Reply) (s : Session) :
    (s.step (.answer i r)).shown? Call.load? i = s.shown? Call.load? i := by
  show (s.answer i r).shown? Call.load? i = _
  unfold answer
  split
  · unfold Loop.signal
    split
    · rename_i c hs
      simp [Loop.shown?, Loop.continuation?, hs]
    · rfl
  · rfl

/-- Files are given to a call that is launched with them, or to one that waits for a folder. -/
theorem given?_eq_some_iff {b : Batch} : s.given? m = some b ↔
    m = .launch (.upload b.files) ∧ b.call = s.tasks.length ∨
    m = .read b.call (.ok b.files) ∧
      ∃ c, s.stage? b.call = some (.waiting c .signal) ∧ c.path?.isSome = true := by
  obtain ⟨t, files⟩ := b
  constructor
  · intro h
    unfold given? at h
    split at h
    · cases h
      exact .inl ⟨rfl, rfl⟩
    · split at h
      · rename_i c hs
        obtain ⟨p, hp, he⟩ := Option.map_eq_some_iff.mp h
        cases he
        exact .inr ⟨rfl, c, hs, by rw [hp]; rfl⟩
      · cases h
    · cases h
  · rintro (⟨rfl, rfl⟩ | ⟨rfl, c, hs, hp⟩)
    · rfl
    · obtain ⟨p, hp⟩ := Option.isSome_iff_exists.mp hp
      simp only at hs
      simp [given?, hs, hp]

theorem load?_of_path? (h : c.path?.isSome = true) : c.load? = some .awaited := by
  unfold Call.path? at h
  split at h
  · rfl
  · cases h

/-- Files are given to a new call or to one that waits for them. -/
theorem awaited_of_given? {b : Batch} (h : s.given? m = some b) :
    b.call = s.tasks.length ∨ s.shown? Call.load? b.call = some .awaited := by
  rcases given?_eq_some_iff.mp h with ⟨_, hb⟩ | ⟨_, c, hs, hp⟩
  · exact .inl hb
  · refine .inr ?_
    rw [Loop.shown?_of_stage? hs]
    exact load?_of_path? hp

/-- What a call carries when files come for it: what it carried, or the files that it waited for. -/
theorem load_before_read {selected : Selected}
    (hx : (s.step (.read i selected)).shown? Call.load? i = some x) :
    (s.shown? Call.load? i = some x ∧
      ∀ b, s.given? (.read i selected) = some b → b.call ≠ i) ∨
    ∃ files, x = .held files ∧ s.given? (.read i selected) = some ⟨i, files⟩ := by
  obtain ⟨c', hc', hxc⟩ := Loop.shown?_eq_some_iff.mp hx
  have hstage := stage?_read_self (i := i) selected s
  by_cases hw : ∃ c, s.stage? i = some (.waiting c .signal) ∧ c.path?.isSome = true
  · obtain ⟨c, hs, hp⟩ := hw
    rw [hs] at hstage
    dsimp only at hstage
    rw [if_pos hp] at hstage
    rw [Loop.continuation?_of_stage? hstage] at hc'
    cases hc'
    cases c with
    | reading path held read =>
      cases selected with
      | error t => cases hxc
      | ok files =>
        cases hxc
        exact .inr ⟨files, rfl, given?_eq_some_iff.mpr (.inr ⟨rfl, _, hs, hp⟩)⟩
    | _ => cases hp
  · -- it does not wait for files
    have hsame : (s.step (.read i selected)).stage? i = s.stage? i := by
      rw [hstage]
      split
      · rename_i c hs
        rw [if_neg fun hp => hw ⟨c, hs, hp⟩]
      · rfl
    refine .inl ⟨?_, fun b hb hbi => ?_⟩
    · rw [Loop.shown?, Loop.continuation?, ← hsame, ← Loop.continuation?, ← Loop.shown?]
      exact hx
    · rcases given?_eq_some_iff.mp hb with ⟨e, _⟩ | ⟨_, hwaits⟩
      · cases e
      · exact hw (hbi ▸ hwaits)

/-- Anything else changes nothing about what a call carries, unless it is new. -/
theorem Calm.load_of_lt (h : Calm s m (s.step m)) (hi : i < s.tasks.length)
    (hread : ∀ selected, m ≠ .read i selected)
    (hx : (s.step m).shown? Call.load? i = some x) :
    s.shown? Call.load? i = some x ∧ ∀ b, s.given? m = some b → b.call ≠ i := by
  refine ⟨?_, fun b hb hbi => ?_⟩
  · by_cases hanswer : ∃ r, m = .answer i r
    · obtain ⟨r, rfl⟩ := hanswer
      rw [← shown?_load?_answer r s]
      exact hx
    · rcases h.continuation?_of_lt hi (fun r e => hanswer ⟨r, e⟩) hread with hnone | hsame
      · rw [Loop.shown?, hnone] at hx
        cases hx
      · rw [Loop.shown?, ← hsame, ← Loop.shown?]
        exact hx
  · rcases given?_eq_some_iff.mp hb with ⟨_, hnew⟩ | ⟨hm, _⟩
    · rw [← hbi, hnew] at hi
      exact Nat.lt_irrefl _ hi
    · exact hread _ (hbi ▸ hm)

/-- **What a call carries after a calm step**: what it carried, or it is new and waits for files, or
    it has just been given them. -/
theorem load_before (h : Calm s m (s.step m)) (hx : (s.step m).shown? Call.load? i = some x) :
    (s.shown? Call.load? i = some x ∧ ∀ b, s.given? m = some b → b.call ≠ i) ∨
    (x = .awaited ∧ i = s.tasks.length ∧ s.given? m = none) ∨
    ∃ files, x = .held files ∧ s.given? m = some ⟨i, files⟩ := by
  by_cases hi : i < s.tasks.length
  · by_cases hread : ∃ selected, m = .read i selected
    · obtain ⟨selected, rfl⟩ := hread
      exact (load_before_read hx).imp_right .inr
    · exact .inl (h.load_of_lt hi (fun selected e => hread ⟨selected, e⟩) hx)
  · obtain ⟨c', hc', hxc⟩ := Loop.shown?_eq_some_iff.mp hx
    rcases h.continuation_before hc' with ⟨c, hc, _⟩ | ⟨rfl, harr⟩
    · exact absurd (Loop.lt_of_continuation? hc) hi
    · cases harr with
      | launched d hm =>
        subst hm
        cases d with
        | choose path =>
          cases hxc
          exact .inr (.inl ⟨rfl, rfl, rfl⟩)
        | upload files =>
          cases hxc
          exact .inr (.inr ⟨files, rfl, rfl⟩)
        | _ => cases hxc
      | issued ha => cases hxc

end Calm

end Session

end CodeSession
