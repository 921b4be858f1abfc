import CodeSession.Proofs.Session.Guards

/-!
# Messages

The guard of the messages: a question is pending exactly while a message is under way
(`pending_iff_sends`). However a message ends, no question is pending afterwards.
-/

namespace CodeSession.Session

open Backend Folder

variable {facts : Facts} {w w' : World} {c : Call} {s : Session}

/-- The request of a message that is under way. -/
def Call.sending? : Call → Option Nat
  | .sending x => some x.request
  | _ => none

/-- Whether a call has a message under way. -/
def Sends (s : Session) (t : TaskId) : Prop :=
  (s.shown? Call.sending? t).isSome = true

/-- How a message ends in a run of a call, if one does. -/
def sendFate? (facts : Facts) (c : Call) (wake : Wake) (w : World) : Option (Fate String) :=
  match wake, c with
  | .go, .send text =>
    if facts.closed then none
    else match w.chat.ask text with
      | some (query, _) => fateOf Reply.answer (w.client.send (.query query)).2
      | none => none
  | .go, .sending ⟨_, some r⟩ => some (.landed r.answer)
  | .cancelled, .sending _ => some .aborted
  | _, _ => none

/-- Whether a question is pending. -/
def World.IsPending (w : World) : Prop :=
  w.chat.pending = true

/-- What a run of a call does to the messages. -/
abbrev SendRun (c : Call) (w : World) (r : Run) : Option (Fate String) → Prop :=
  GuardRun Call.sending? World.IsPending (fun _ => false) c w r

theorem steady_sending? : Steady Call.sending? where
  take r c := by cases c <;> rfl
  takeFiles selected c := by cases c <;> rfl

theorem sending?_of_isFresh (c : Call) (h : c.isFresh = true) : c.sending? = none := by
  cases c <;> first | rfl | cases h

theorem kind_of_sending? {n : Nat} (h : c.sending? = some n) : c.kind = .message := by
  cases c with
  | sending x => rfl
  | _ => cases h

theorem sendRun_endSend (outcome : Except CallTrouble String)
    (hc : c.sending? = none → ¬w.IsPending) :
    SendRun c w (endSend outcome w') (some (.landed outcome)) := by
  unfold endSend
  dsimp only
  split
  · exact .ended _ hc rfl ⟨fun h => (by cases h), fun h => (by cases h)⟩
  · exact .ended _ hc rfl ⟨fun h => (by cases h), fun h => (by cases h)⟩

theorem sendRun_beginSend (text : Option String) :
    SendRun (.send text) w (beginSend facts text w) (sendFate? facts (.send text) .go w) := by
  show SendRun _ w (beginSend facts text w) (if facts.closed then none else _)
  unfold beginSend
  split
  · exact .apart rfl rfl Iff.rfl
  · cases hask : w.chat.ask text with
    | none => exact .apart rfl rfl Iff.rfl
    | some p =>
      obtain ⟨query, chat⟩ := p
      have hfree : ¬w.IsPending := by
        intro hp
        rw [Chat.ask_eq_none_iff.mpr (.inr hp)] at hask
        cases hask
      have hchat : chat.pending = true := by
        unfold Chat.ask at hask
        dsimp only at hask
        split at hask
        · cases hask
        · cases hask
          rfl
      dsimp only
      generalize w.client.send (.query query) = sent
      obtain ⟨client, sending⟩ := sent
      cases sending with
      | refused f => exact sendRun_endSend _ fun _ => hfree
      | answered n r => exact sendRun_endSend _ fun _ => hfree
      | outstanding n => exact .underWay (fun _ => hfree) rfl hchat

theorem pending_of_kind {k : Kind} (hk : k ≠ .message) (h : Touches k w w') :
    w'.IsPending ↔ w.IsPending := by
  cases h with
  | message chat client h => exact absurd rfl hk
  | _ => exact Iff.rfl

theorem sendRun_behaviour (wake : Wake) (hv : w.tabs.listeners = [viewer])
    (hp : c.sending?.isSome = true → w.IsPending) :
    SendRun c w (behaviour facts c wake w) (sendFate? facts c wake w) := by
  by_cases hk : c.kind = .message
  · cases c with
    | send text =>
      cases wake with
      | cancelled => exact .apart rfl rfl Iff.rfl
      | go => exact sendRun_beginSend text
    | sending x =>
      have hown : (Call.sending x).sending? = none → ¬w.IsPending := fun e => by cases e
      cases wake with
      | cancelled => exact .ended .aborted hown rfl ⟨fun h => (by cases h), fun h => (by cases h)⟩
      | go =>
        obtain ⟨n, _ | r⟩ := x
        · exact .underWay hown rfl (hp rfl)
        · exact sendRun_endSend _ hown
    | _ => cases hk
  · have hnone : sendFate? facts c wake w = none := by
      cases c <;> cases wake <;> first | rfl | exact absurd rfl hk
    rw [hnone]
    exact guardRun_of_kind _ _ _ (fun c n h => kind_of_sending? h) hk (tame_behaviour c wake hv).kind
      (pending_of_kind hk (touches_behaviour c wake hv))

/-- The guard of the messages. -/
def messages : Guard where
  ticket? := Call.sending?
  flag := World.IsPending
  fate? := sendFate?
  lingers _ := false
  steady := steady_sending?
  fresh := sending?_of_isFresh
  calm s m s' h := by rw [World.IsPending, h.pending, World.IsPending]
  run facts c wake w hv hp := sendRun_behaviour wake hv hp
  start client delay greeting files := by
    intro h
    cases greeting <;> cases h

/-- **A question is pending exactly while a message is under way**, which is then the only one. -/
theorem pending_iff_sends (client : Client) (delay : Binary64) (greeting : Option String)
    (files : FileSystem) (ms : List Move) :
    let s := (opened client delay greeting files).play ms
    s.state.chat.pending = true ↔ ∃! t, s.Sends t :=
  (guarded_play messages client delay greeting files ms).flag_iff fun ⟨_, _, h⟩ => by cases h

end CodeSession.Session
