import CodeSession.Proofs.Session.Batches

/-!
# Selections that overlap

Several folders may be read at once, and each that has been read takes the place of the selection.
The files of one call are never mixed with those of another.

* `Load.Accounted`, `Unmixed` -- what was sent is told by what was given, call by call;
* `unmixed_step`, `unmixed_play` -- every step keeps this, so it holds after every run;
* `batches_of_run` -- all that a run says about uploads and the selection.
-/

namespace CodeSession

open Backend

namespace Session

open Folder

/-! ## 1. What was sent against what was given -/

/-- What a call carries, against what calls were given and what was sent for them. -/
def Load.Accounted (given issued : List Batch) (sent : List Request) (t : TaskId) : Load → Prop
  | .awaited => ∀ b ∈ given, b.call ≠ t
  | .held files => ⟨t, files⟩ ∈ given ∧ ∀ b ∈ issued, b.call ≠ t
  | .sent n => ∃ files, ⟨t, files⟩ ∈ issued ∧ sent[n]? = some (.upload files)

/-- What other calls are given and send does not matter to a call. -/
theorem Load.Accounted.mono {given given' issued issued' : List Batch} {sent sent' : List Request}
    {t : TaskId} {x : Load} (h : x.Accounted given issued sent t) (hgiven : given ⊆ given')
    (hgiven' : ∀ b ∈ given', b.call = t → b ∈ given) (hissued : issued ⊆ issued')
    (hissued' : ∀ b ∈ issued', b.call = t → b ∈ issued) (hsent : sent <+: sent') :
    x.Accounted given' issued' sent' t := by
  cases x with
  | awaited => exact fun b hb hbt => h b (hgiven' b hb hbt) hbt
  | held files => exact ⟨hgiven h.1, fun b hb hbt => h.2 b (hissued' b hb hbt) hbt⟩
  | sent n =>
    obtain ⟨files, hmem, hn⟩ := h
    obtain ⟨rest, rfl⟩ := hsent
    exact ⟨files, hissued hmem, List.getElem?_append_left (List.getElem?_eq_some_iff.mp hn).1 ▸ hn⟩

/-- The books of the uploads. -/
structure Unmixed (base : Client) (s : Session) (given issued : List Batch)
    (selecting : List TaskId) : Prop where
  sent : s.state.client.batches = base.batches ++ issued.map Batch.files
  own : issued ⊆ given
  known : ∀ b ∈ given, b.call < s.tasks.length
  givenOnce : (given.map Batch.call).Nodup
  issuedOnce : (issued.map Batch.call).Nodup
  load : ∀ t x, s.shown? Call.load? t = some x →
    x.Accounted given issued s.state.client.sent t
  selecting : ∀ t ∈ selecting, t < s.tasks.length ∧
    (∀ c, s.continuation? t = some c → c.kind = .upload) ∧
    (s.stage? t = some (.ended (.returned (some true))) → ∃ b ∈ issued, b.call = t)
  selection : s.state.ingest.selection ≠ [] → s.state.ingest.status.phase = .uploading

section Unmixed

variable {base : Client} {s s' : Session} {m : Move} {t : TaskId} {given issued : List Batch}
  {selecting : List TaskId}

/-- Files are given to a call that has none. -/
theorem Unmixed.notMem_of_given? (h : Unmixed base s given issued selecting) {b : Batch}
    (hb : s.given? m = some b) : ∀ b' ∈ given, b'.call ≠ b.call := by
  rcases awaited_of_given? hb with hnew | hawaited
  · intro b' hb' e
    exact Nat.lt_irrefl _ (hnew ▸ e ▸ h.known b' hb')
  · exact h.load _ _ hawaited

theorem issued?_of_calm (h : Calm s m s') : s.issued? m = none := by
  cases hr : s.resumed? m with
  | none => simp [issued?, hr]
  | some r =>
    have hm := turn_of_resumed? hr
    subst hm
    have hstate : (s.step .turn).state = s.state := h.state
    simp [issued?, hstate]

/-- Between runs calls carry what the books say: one may have been given what it waited for. -/
theorem Unmixed.load_calm (h : Unmixed base s given issued selecting) (hc : Calm s m (s.step m))
    (i : TaskId) (x : Load) (hx : (s.step m).shown? Call.load? i = some x) :
    x.Accounted (given ++ (s.given? m).toList) issued s.state.client.sent i := by
  rcases load_before hc hx with ⟨hold, hother⟩ | ⟨rfl, rfl, hnone⟩ | ⟨files, rfl, hgiven⟩
  · refine (h.load i x hold).mono (List.subset_append_left _ _) (fun b hb hbi => ?_)
      (List.Subset.refl _) (fun b hb _ => hb) List.prefix_rfl
    rcases List.mem_append.mp hb with hb | hb
    · exact hb
    · exact absurd hbi (hother b (Option.mem_toList.mp hb))
  · -- a folder is launched
    intro b hb
    rw [hnone, Option.toList_none, List.append_nil] at hb
    exact Nat.ne_of_lt (h.known b hb)
  · exact ⟨by simp [hgiven], fun b hb => h.notMem_of_given? hgiven b (h.own hb)⟩

/-- Between runs a call that was launched with a folder or files stays an upload, and does not end as
    one that sent a request. -/
theorem Unmixed.selecting_calm (h : Unmixed base s given issued selecting)
    (hc : Calm s m (s.step m)) {u : TaskId} (hu : u ∈ selecting) :
    u < (s.step m).tasks.length ∧
    (∀ c, (s.step m).continuation? u = some c → c.kind = .upload) ∧
    ((s.step m).stage? u = some (.ended (.returned (some true))) → ∃ b ∈ issued, b.call = u) := by
  obtain ⟨hlt, hkind, htrue⟩ := h.selecting u hu
  refine ⟨Nat.lt_of_lt_of_le hlt hc.length, fun c' hc' => ?_, fun hended => ?_⟩
  · rcases hc.continuation_before hc' with ⟨c, hcont, hrec⟩ | ⟨hnew, _⟩
    · rw [hrec.kind, hkind c hcont]
    · exact absurd hlt (hnew ▸ Nat.lt_irrefl _)
  · rcases hc.stage_before hended with ⟨st, hs, hd | he⟩ | ⟨_, c, _, he⟩
    · exact htrue (hd.of_ended ▸ hs)
    · cases he
    · cases he

/-- A call that is launched with a folder or files is a new upload. -/
theorem stage?_of_selecting? (hc : Calm s m (s.step m)) {u : TaskId}
    (hu : s.selecting? m = some u) :
    ∃ c : Call, c.kind = .upload ∧ (s.step m).stage? u = some (.queued c false false) := by
  have hlaunched : ∃ d : Demand, m = .launch d ∧ u = s.tasks.length ∧ d.call.kind = .upload := by
    unfold selecting? at hu
    split at hu
    · exact ⟨_, rfl, (Option.some.inj hu).symm, rfl⟩
    · exact ⟨_, rfl, (Option.some.inj hu).symm, rfl⟩
    · cases hu
  obtain ⟨d, hm, rfl, hk⟩ := hlaunched
  exact ⟨d.call, hk, hc.arrived _ (.launched d hm)⟩

theorem Unmixed.calm (h : Unmixed base s given issued selecting) (hc : Calm s m (s.step m))
    (hv : s.state.tabs.listeners = [viewer]) :
    Unmixed base (s.step m) (given ++ (s.given? m).toList) issued
      (selecting ++ (s.selecting? m).toList) := by
  have hsent : (s.step m).state.client.sent = s.state.client.sent := by
    rw [hc.state]
    exact (m.client_onState hv s.closed).2
  have hfresh : ∀ b ∈ (s.given? m).toList, b.call < (s.step m).tasks.length := by
    intro b hb
    rcases given?_eq_some_iff.mp (Option.mem_toList.mp hb) with ⟨hm, hnew⟩ | ⟨_, c, hs, _⟩
    · rw [hnew]
      exact Loop.lt_of_stage? (hc.arrived _ (.launched _ hm))
    · exact Nat.lt_of_lt_of_le (Loop.lt_of_stage? hs) hc.length
  constructor
  case sent => rw [Client.batches, hsent, ← Client.batches, h.sent]
  case own => exact fun b hb => List.mem_append_left _ (h.own hb)
  case known =>
    intro b hb
    rcases List.mem_append.mp hb with hb | hb
    · exact Nat.lt_of_lt_of_le (h.known b hb) hc.length
    · exact hfresh b hb
  case givenOnce =>
    rw [List.map_append, List.nodup_append]
    refine ⟨h.givenOnce, ?_, ?_⟩
    · cases s.given? m <;> simp
    · intro x hx y hy
      obtain ⟨b', hb', rfl⟩ := List.mem_map.mp hx
      obtain ⟨b, hb, rfl⟩ := List.mem_map.mp hy
      exact h.notMem_of_given? (Option.mem_toList.mp hb) b' hb'
  case issuedOnce => exact h.issuedOnce
  case load =>
    rw [hsent]
    exact h.load_calm hc
  case selecting =>
    intro u hu
    rcases List.mem_append.mp hu with hu | hu
    · exact h.selecting_calm hc hu
    · obtain ⟨c, hk, hstage⟩ := stage?_of_selecting? hc (Option.mem_toList.mp hu)
      refine ⟨Loop.lt_of_stage? hstage, fun c' hc' => ?_, fun hended => ?_⟩
      · rw [Loop.continuation?_of_stage? hstage] at hc'
        cases hc'
        exact hk
      · rw [hstage] at hended
        cases hended
  case selection =>
    rw [hc.ingest]
    cases m with
    | acknowledge =>
      have hsame := Ingest.selection_acknowledge s.state.ingest
      exact fun hsel => Ingest.phase_acknowledge_eq_uploading_iff.mpr (h.selection (hsame ▸ hsel))
    | _ => exact h.selection

theorem issued?_of_run {c : Call} {wake : Wake} {o : Option (List SelectedFile)}
    (h : s.resumption? = some ⟨t, c, some wake⟩)
    (ho : Issues c s.state (behaviour s.facts c wake s.state) o) :
    s.issued? .turn = o.map fun files => ⟨t, files⟩ := by
  simp only [issued?, resumed?, h, Option.bind_some, state_of_run h]
  cases ho with
  | none hsent hgrows hnext htrue => simp [hsent]
  | some files hc hsent hnext =>
    have hbatches : (behaviour s.facts c wake s.state).state.client.batches =
        s.state.client.batches ++ [files] := by
      simp [Client.batches, hsent, Request.batch?]
    simp [hbatches]

section Run

variable {c : Call} {wake : Wake} (h : Unmixed base s given issued selecting) (ht : Tidy s)
  (hrun : s.resumption? = some ⟨t, c, some wake⟩)

include h hrun in
/-- The call that runs carries what the books say. -/
theorem Unmixed.load_of_run {x : Load} (hx : c.load? = some x) :
    x.Accounted given issued s.state.client.sent t :=
  h.load t x (Loop.shown?_eq_some_iff.mpr ⟨c, Loop.Resumption.continuation?_eq hrun, hx⟩)

include ht hrun

/-- What is sent is sent for the call that runs, which held it. -/
theorem held_of_issued? {b : Batch} (hb : s.issued? .turn = some b) :
    b.call = t ∧ c.load? = some (.held b.files) := by
  obtain ⟨o, ho⟩ := issues_behaviour (c := c) s.facts wake ht.listeners
  rw [issued?_of_run hrun ho] at hb
  cases ho with
  | none => cases hb
  | some files hc =>
    cases hb
    exact ⟨rfl, hc⟩

theorem sent_prefix_run : s.state.client.sent <+: (s.step .turn).state.client.sent := by
  rw [state_of_run hrun]
  obtain ⟨o, ho⟩ := issues_behaviour (c := c) s.facts wake ht.listeners
  cases ho with
  | none _ hgrows => exact hgrows
  | some files _ hsent => exact hsent ▸ List.prefix_append _ _

theorem batches_run : (s.step .turn).state.client.batches =
    s.state.client.batches ++ (s.issued? .turn).toList.map Batch.files := by
  obtain ⟨o, ho⟩ := issues_behaviour (c := c) s.facts wake ht.listeners
  rw [issued?_of_run hrun ho, state_of_run hrun]
  cases ho with
  | none hsent => simpa using hsent
  | some files _ hsent => simp [Client.batches, hsent, Request.batch?]

include h

/-- After a run calls carry what the books say: the one that ran may have sent what it held. -/
theorem Unmixed.load_run (i : TaskId) (x : Load) (hx : (s.step .turn).shown? Call.load? i = some x) :
    x.Accounted given (issued ++ (s.issued? .turn).toList) (s.step .turn).state.client.sent i := by
  obtain ⟨c', hc', hxc⟩ := Loop.shown?_eq_some_iff.mp hx
  have hgrows := sent_prefix_run ht hrun
  rcases continuation_before_run hrun hc' with ⟨rfl, p, hn⟩ | ⟨hit, hc'⟩ | ⟨_, _, name, hspawn⟩
  · have hnext : (behaviour s.facts c wake s.state).next.continuation? = some c' := by
      rw [hn]
      rfl
    obtain ⟨o, ho⟩ := issues_behaviour (c := c) s.facts wake ht.listeners
    have hissued := issued?_of_run hrun ho
    cases ho with
    | none hsent _ hnext' htrue =>
      rcases hnext' c' hnext with hnone | ⟨hsame, _⟩
      · rw [hnone] at hxc
        cases hxc
      · rw [hissued, Option.map_none, Option.toList_none, List.append_nil]
        exact (h.load_of_run hrun (hsame ▸ hxc)).mono (List.Subset.refl _) (fun b hb _ => hb)
          (List.Subset.refl _) (fun b hb _ => hb) hgrows
    | some files hc hsent hnext' =>
      rw [hnext' c' hnext] at hxc
      cases hxc
      exact ⟨files, by simp [hissued], by simp [state_of_run hrun, hsent]⟩
  · have hold := h.load i x (Loop.shown?_eq_some_iff.mpr ⟨c', hc', hxc⟩)
    refine hold.mono (List.Subset.refl _) (fun b hb _ => hb) (List.subset_append_left _ _)
      (fun b hb hbi => ?_) hgrows
    rcases List.mem_append.mp hb with hb | hb
    · exact hb
    · exact absurd (hbi.symm.trans (held_of_issued? ht hrun (Option.mem_toList.mp hb)).1) hit
  · rw [(ht.tame c wake).spawns name c' hspawn] at hxc
    cases hxc

/-- A call that was launched with a folder or files stays an upload, and returns that it issued a
    request only if it sent one. -/
theorem Unmixed.selecting_run {u : TaskId} (hu : u ∈ selecting) :
    u < (s.step .turn).tasks.length ∧
    (∀ c, (s.step .turn).continuation? u = some c → c.kind = .upload) ∧
    ((s.step .turn).stage? u = some (.ended (.returned (some true))) →
      ∃ b ∈ issued ++ (s.issued? .turn).toList, b.call = u) := by
  obtain ⟨hlt, hkind, htrue⟩ := h.selecting u hu
  have hcont : s.continuation? t = some c := Loop.Resumption.continuation?_eq hrun
  refine ⟨Nat.lt_of_lt_of_le hlt (Loop.length_le_turned_of_run hrun), fun c' hc' => ?_,
    fun hended => ?_⟩
  · rcases continuation_before_run hrun hc' with ⟨rfl, p, hn⟩ | ⟨_, hc'⟩ | ⟨hle, _⟩
    · rw [((ht.tame c wake).kind p c' hn).1]
      exact hkind c hcont
    · exact hkind c' hc'
    · exact absurd hlt (Nat.not_lt.mpr hle)
  · rcases Loop.stage?_turned_of_run hrun hended with ⟨rfl, he⟩ | ⟨_, st, hs, hst⟩ | ⟨hle, _⟩
    · have hnext := Loop.next_of_after_eq_ended he.symm
      obtain ⟨o, ho⟩ := issues_behaviour (c := c) s.facts wake ht.listeners
      rw [issued?_of_run hrun ho]
      cases ho with
      | none _ _ _ htrue' =>
        obtain ⟨n, hn⟩ := htrue' (hkind c hcont) hnext
        obtain ⟨files, hmem, _⟩ := h.load_of_run hrun hn
        exact ⟨_, List.mem_append_left _ hmem, rfl⟩
      | some files => exact ⟨⟨u, files⟩, by simp, rfl⟩
    · have hsame : st = .ended (.returned (some true)) := by
        rcases hst with ⟨_, he⟩ | ⟨_, he⟩
        · cases st <;> first | exact he.symm | cases he
        · exact he.symm
      obtain ⟨b, hb, hbu⟩ := htrue (hsame ▸ hs)
      exact ⟨b, List.mem_append_left _ hb, hbu⟩
    · exact absurd hlt (Nat.not_lt.mpr hle)

theorem Unmixed.run :
    Unmixed base (s.step .turn) given (issued ++ (s.issued? .turn).toList) selecting := by
  have hheld : ∀ b ∈ (s.issued? .turn).toList, b.call = t ∧ c.load? = some (.held b.files) :=
    fun b hb => held_of_issued? ht hrun (Option.mem_toList.mp hb)
  constructor
  case sent => rw [batches_run ht hrun, h.sent, List.map_append, List.append_assoc]
  case own =>
    intro b hb
    rcases List.mem_append.mp hb with hb | hb
    · exact h.own hb
    · obtain ⟨rfl, hload⟩ := hheld b hb
      exact (h.load_of_run hrun hload).1
  case known =>
    exact fun b hb => Nat.lt_of_lt_of_le (h.known b hb) (Loop.length_le_turned_of_run hrun)
  case givenOnce => exact h.givenOnce
  case issuedOnce =>
    rw [List.map_append, List.nodup_append]
    refine ⟨h.issuedOnce, ?_, ?_⟩
    · cases s.issued? .turn <;> simp
    · intro x hx y hy
      obtain ⟨b', hb', rfl⟩ := List.mem_map.mp hx
      obtain ⟨b, hb, rfl⟩ := List.mem_map.mp hy
      obtain ⟨hbt, hload⟩ := hheld b hb
      rw [hbt]
      exact (h.load_of_run hrun hload).2 b' hb'
  case load => exact h.load_run ht hrun
  case selecting => exact fun u hu => h.selecting_run ht hrun hu
  case selection =>
    rw [state_of_run hrun]
    exact selection_behaviour s.facts wake ht.listeners h.selection

end Run

/-- **Every step keeps the books of the uploads.** -/
theorem unmixed_step (h : Unmixed base s given issued selecting) (ht : Tidy s) (m : Move) :
    Unmixed base (s.step m) (given ++ (s.given? m).toList) (issued ++ (s.issued? m).toList)
      (selecting ++ (s.selecting? m).toList) := by
  rcases calm_or_run ht.listeners m with hc | ⟨rfl, t, c, wake, hrun⟩
  · rw [issued?_of_calm hc, Option.toList_none, List.append_nil]
    exact h.calm hc ht.listeners
  · rw [show s.given? .turn = none from rfl, show s.selecting? .turn = none from rfl,
      Option.toList_none, Option.toList_none, List.append_nil, List.append_nil]
    exact h.run ht hrun

/-- **After every run the books of the uploads are right.** -/
theorem unmixed_play (client : Client) (delay : Binary64) (greeting : Option String)
    (files : FileSystem) (ms : List Move) :
    let start := opened client delay greeting files
    Unmixed client (start.play ms) (log given? start ms) (log issued? start ms)
      (log selecting? start ms) := by
  intro start
  induction ms using List.reverseRecOn with
  | nil =>
    refine ⟨(List.append_nil _).symm, List.nil_subset _, ?_, List.nodup_nil, List.nodup_nil, ?_, ?_,
      fun h => absurd rfl h⟩
    · exact fun b hb => absurd hb List.not_mem_nil
    · intro t x hx
      obtain ⟨c, hc, _⟩ := Loop.shown?_eq_some_iff.mp hx
      exact absurd (Loop.lt_of_continuation? hc) (Nat.not_lt_zero t)
    · exact fun t ht => absurd ht List.not_mem_nil
  | append_singleton ms m ih =>
    rw [play_append, log_append, log_append, log_append]
    simp only [log_cons, log_nil, List.append_nil]
    exact unmixed_step ih (tidy_play client delay greeting files ms) m

end Unmixed

/-- **The files of overlapping selections never mix.** The lists of files that were sent are, in
    order, those of the calls that sent them. Each was given to its call as it is, by the one who
    launched it or by the reading of its folder, and each call is given one list at most and sends one
    at most. A request under way is the one of its call. A call with a folder or files returns that it
    issued a request only if it sent one. Files are selected only in the phase `uploading`. -/
theorem batches_of_run (client : Client) (delay : Binary64) (greeting : Option String)
    (files : FileSystem) (ms : List Move) :
    let start := opened client delay greeting files
    let s := start.play ms
    let given := log given? start ms
    let issued := log issued? start ms
    s.state.client.batches = client.batches ++ issued.map Batch.files ∧
    issued ⊆ given ∧
    (given.map Batch.call).Nodup ∧
    (issued.map Batch.call).Nodup ∧
    (∀ t x, s.continuation? t = some (.uploading x) → ∃ batch,
      ⟨t, batch⟩ ∈ issued ∧ s.state.client.sent[x.request]? = some (.upload batch)) ∧
    (∀ t ∈ log selecting? start ms, s.ending? t = some (.returned (some true)) → ∃ batch,
      ⟨t, batch⟩ ∈ issued) ∧
    (s.state.ingest.selection ≠ [] → s.state.ingest.status.phase = .uploading) := by
  intro start s given issued
  have h : Unmixed client s given issued (log selecting? start ms) :=
    unmixed_play client delay greeting files ms
  refine ⟨h.sent, h.own, h.givenOnce, h.issuedOnce, fun t x hx => ?_, fun t ht hended => ?_,
    h.selection⟩
  · exact h.load t (.sent x.request) (Loop.shown?_eq_some_iff.mpr ⟨_, hx, rfl⟩)
  · obtain ⟨b, hb, rfl⟩ := (h.selecting t ht).2.2 (Loop.ending?_eq_some_iff.mp hended)
    exact ⟨b.files, hb⟩

/-- Two folders that are read at once; the second is there while the first is uploaded. -/
def twoFolders : List Move :=
  [.launch (.choose "first"), .launch (.choose "second"), .turn, .turn,
    .read 0 (.ok [⟨"first/a.txt", [97], "text/plain"⟩]),
    .read 1 (.ok [⟨"second/b.txt", [98], "text/plain"⟩]), .turn, .turn]

/-- The upload under way has the files of the first folder, and those of the second are selected. -/
theorem batches_of_twoFolders :
    (sample.play twoFolders).state.client.batches = [[⟨"first/a.txt", [97], "text/plain"⟩]] ∧
    (sample.play twoFolders).state.ingest.selection = [⟨"second/b.txt", [98], "text/plain"⟩] ∧
    (sample.play twoFolders).state.ingest.status.phase = .uploading := by
  have hissued : log issued? sample twoFolders =
      [⟨0, [⟨"first/a.txt", [97], "text/plain"⟩]⟩] := by decide +kernel
  have hselected : (sample.play twoFolders).state.ingest.selection =
      [⟨"second/b.txt", [98], "text/plain"⟩] := by decide +kernel
  obtain ⟨hsent, _, _, _, _, _, hphase⟩ := batches_of_run _ _ _ _ twoFolders
  refine ⟨hsent.trans (congrArg (List.map Batch.files) hissued), hselected, hphase fun hnil => ?_⟩
  exact absurd (hselected.symm.trans hnil) (by simp)

end Session

end CodeSession
