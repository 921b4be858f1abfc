import CodeSession.Json.Reader
import CodeSession.Proofs.Json.Grammar
import CodeSession.Proofs.Text.Utf8
import Mathlib.Tactic.FinCases

/-!
# Reading takes what the grammar allows

Every text that stands for a value is read as that value.

* `string?_spelled` -- a text between quotes is read from each of its spellings;
* `number?_digits` -- an integer is read from its digits;
* `reads_of_written` -- what is written is read as what it stands for, up to what follows it; one
  lemma for each way to write something (`reads_array`, `reads_member`, …);
* `parse_of_isText`, `decode_of_isText` -- a whole text, and its bytes in UTF-8.
-/

namespace CodeSession.Json

open Text

/-! ## 1. Blanks -/

/-- Whether a character may stand between the parts of a text. -/
theorem skipBlanks_append {b : List Char} (hb : Blanks b) (cs : List Char) :
    skipBlanks (b ++ cs) = skipBlanks cs := by
  unfold skipBlanks
  rw [List.dropWhile_append_of_pos]
  intro c hc
  rcases hb c hc with rfl | rfl | rfl | rfl <;> rfl

/-! ## 2. Strings -/

theorem hexValue?_eq {n : Nat} {c : Char} (h : HexDigit n c) : hexValue? c = some n := by
  have hlower : ∀ i (hi : i < 16), hexValue? ("0123456789abcdef".toList[i]) = some i := by decide
  have hupper : ∀ i (hi : i < 16), hexValue? ("0123456789ABCDEF".toList[i]) = some i := by decide
  rcases h with h | h
  · obtain ⟨hn, rfl⟩ := List.getElem?_eq_some_iff.mp h
    exact hlower n hn
  · obtain ⟨hn, rfl⟩ := List.getElem?_eq_some_iff.mp h
    exact hupper n hn

theorem stringUnits_unit {u : Nat} {us : List Char} (h : HexUnit u us) (cs : List Char) :
    stringUnits ('\\' :: 'u' :: us ++ cs) = (stringUnits cs).map fun r => (u :: r.1, r.2) := by
  cases h with
  | @digits i j k l a b c d ha hb hc hd =>
    have hvalue : hexValue4? a b c d = some (((i * 16 + j) * 16 + k) * 16 + l) := by
      rw [hexValue4?, hexValue?_eq ha, hexValue?_eq hb, hexValue?_eq hc, hexValue?_eq hd]
      rfl
    show stringUnits ('\\' :: 'u' :: a :: b :: c :: d :: cs) = _
    rw [stringUnits, hvalue]
    cases stringUnits cs <;> rfl

theorem stringUnits_short {e c : Char} {cs : List Char} (h : (e, c) ∈ shortEscapes) :
    stringUnits ('\\' :: e :: cs) = (stringUnits cs).map fun r => (c.toNat :: r.1, r.2) := by
  simp only [shortEscapes, List.mem_cons, Prod.mk.injEq, List.not_mem_nil, or_false] at h
  rcases h with ⟨rfl, rfl⟩ | ⟨rfl, rfl⟩ | ⟨rfl, rfl⟩ | ⟨rfl, rfl⟩ | ⟨rfl, rfl⟩ | ⟨rfl, rfl⟩ |
    ⟨rfl, rfl⟩ | ⟨rfl, rfl⟩ <;>
  · rw [stringUnits]
    · cases stringUnits cs <;> rfl
    · rintro _ _ _ _ _ ⟨⟩

theorem stringUnits_plain {c : Char} {cs : List Char} (h : 0x20 ≤ c.toNat) (hquote : c ≠ '"')
    (hslash : c ≠ '\\') :
    stringUnits (c :: cs) = (stringUnits cs).map fun r => (c.toNat :: r.1, r.2) := by
  rw [stringUnits, if_neg]
  · simp [hslash, h]
  · exact hquote
  · intro a b c d cs' hc
    exact absurd hc hslash
  · intro e cs' hc
    exact absurd hc hslash

/-- A character's code point is joined with nothing. -/
theorem joinPairs_char (c : Char) (xs : List Nat) :
    joinPairs (c.toNat :: xs) = c :: joinPairs xs := by
  have hvalid : c.toNat < 0xD800 ∨ 0xDFFF < c.toNat ∧ c.toNat < 0x110000 := c.valid
  cases xs with
  | nil =>
    show [(Piece.ofCodePoint c.toNat).toChar] = [c]
    rw [Piece.ofCodePoint_toNat, Piece.toChar]
  | cons x xs => rw [joinPairs, if_neg (by omega), Piece.ofCodePoint_toNat, Piece.toChar]

/-- The two units of a character are joined to it. -/
theorem joinPairs_pair {c : Char} (h : 0x10000 ≤ c.toNat) (xs : List Nat) :
    joinPairs ((0xD800 + (c.toNat - 0x10000) / 0x400) ::
      (0xDC00 + (c.toNat - 0x10000) % 0x400) :: xs) = c :: joinPairs xs := by
  have hvalid : c.toNat < 0xD800 ∨ 0xDFFF < c.toNat ∧ c.toNat < 0x110000 := c.valid
  have hpoint : 0x10000 + (0xD800 + (c.toNat - 0x10000) / 0x400 - 0xD800) * 0x400 +
      (0xDC00 + (c.toNat - 0x10000) % 0x400 - 0xDC00) = c.toNat := by omega
  rw [joinPairs, if_pos (by omega), Utf16.pair, hpoint, Piece.ofCodePoint_toNat, Piece.toChar]

/-- A spelling is read as units that are joined to the character. -/
theorem stringUnits_spells {c : Char} {us : List Char} (h : Spells c us) :
    ∃ xs, (∀ ys, joinPairs (xs ++ ys) = c :: joinPairs ys) ∧
      ∀ cs, stringUnits (us ++ cs) = (stringUnits cs).map fun r => (xs ++ r.1, r.2) := by
  cases h with
  | plain h hquote hslash =>
    exact ⟨[c.toNat], joinPairs_char c, fun cs => stringUnits_plain h hquote hslash⟩
  | short h => exact ⟨[c.toNat], joinPairs_char c, fun cs => stringUnits_short h⟩
  | unit h => exact ⟨[c.toNat], joinPairs_char c, stringUnits_unit h⟩
  | pair h hhigh hlow =>
    refine ⟨[_, _], joinPairs_pair h, fun cs => ?_⟩
    rw [List.append_assoc, stringUnits_unit hhigh, stringUnits_unit hlow, Option.map_map]
    rfl

/-- **A text between quotes is read as it is spelled.** -/
theorem string?_spelled {s : String} {us : List Char} (h : Spelled s.toList us)
    (rest : List Char) : string? (us ++ '"' :: rest) = some (s, rest) := by
  have hunits : ∀ {cs us}, Spelled cs us →
      ∃ xs, stringUnits (us ++ '"' :: rest) = some (xs, rest) ∧ joinPairs xs = cs := by
    intro cs us h
    induction h with
    | nil => exact ⟨[], by simp [stringUnits], rfl⟩
    | cons h _ ih =>
      obtain ⟨ys, hys, hjoin⟩ := ih
      obtain ⟨xs, hpair, hxs⟩ := stringUnits_spells h
      exact ⟨xs ++ ys, by rw [List.append_assoc, hxs, hys]; rfl, by rw [hpair, hjoin]⟩
  obtain ⟨xs, hxs, hjoin⟩ := hunits h
  rw [string?, hxs, Option.map_some, hjoin, String.ofList_toList]

/-! ## 3. Numbers -/

/-- What follows a number starts with nothing that would go on with it. -/
def Ends (cs : List Char) : Prop :=
  ∀ c, cs.head? = some c → Decimal.isDigit c = false ∧ c ≠ '.' ∧ c ≠ 'e' ∧ c ≠ 'E'

theorem isDigit_eq (c : Char) : Decimal.isDigit c = c.isDigit := by
  unfold Decimal.isDigit asciiDigit? Char.isDigit
  show (if decide (48 ≤ c.val.toNat) && decide (c.val.toNat ≤ 57) then some (c.val.toNat - 48)
    else none).isSome = (decide (48 ≤ c.val.toNat) && decide (c.val.toNat ≤ 57))
  cases decide (48 ≤ c.val.toNat) && decide (c.val.toNat ≤ 57) <;> rfl

theorem isDigit_of_mem_toDigits {n : Nat} {c : Char} (h : c ∈ Nat.toDigits 10 n) :
    Decimal.isDigit c = true := by
  rw [isDigit_eq]
  exact Nat.isDigit_of_mem_toDigits (by decide) (by decide) h

/-- The digits of a number that is not zero start with another digit. -/
theorem head_toDigits {n : Nat} (h : n ≠ 0) (cs : List Char) : Nat.toDigits 10 n ≠ '0' :: cs := by
  induction n using Nat.strong_induction_on generalizing cs with
  | _ n ih =>
    by_cases hn : n < 10
    · have hdigit : ∀ n < 10, n ≠ 0 → n.digitChar ≠ '0' := by decide
      rw [Nat.toDigits_of_lt_base hn]
      exact fun he => hdigit n hn h (List.cons.inj he).1
    · rw [Nat.toDigits_of_base_le (by decide) (by omega)]
      cases hds : Nat.toDigits 10 (n / 10) with
      | nil => exact absurd hds Nat.toDigits_ne_nil
      | cons d ds =>
        intro he
        rw [List.cons_append] at he
        exact ih (n / 10) (by omega) (by omega) ds ((List.cons.inj he).1 ▸ hds)

/-- The digits at the start end where no digit follows. -/
theorem spanDigits_append {ds rest : List Char} (h : ∀ c ∈ ds, Decimal.isDigit c = true)
    (hrest : Ends rest) : spanDigits (ds ++ rest) = (ds, rest) := by
  have hstop : rest.takeWhile Decimal.isDigit = [] ∧ rest.dropWhile Decimal.isDigit = rest := by
    cases rest with
    | nil => exact ⟨rfl, rfl⟩
    | cons c rest => simp [(hrest c rfl).1]
  rw [spanDigits, List.takeWhile_append_of_pos h, List.dropWhile_append_of_pos h, hstop.1, hstop.2,
    List.append_nil]

/-- The digits of a number are its whole part. -/
theorem spanWhole_toDigits (n : Nat) {rest : List Char} (hrest : Ends rest) :
    spanWhole (Nat.toDigits 10 n ++ rest) = (Nat.toDigits 10 n, rest) := by
  by_cases h : n = 0
  · rw [h, Nat.toDigits_zero]
    rfl
  · rw [spanWhole]
    · exact spanDigits_append (fun c => isDigit_of_mem_toDigits) hrest
    · intro cs hcs
      cases hds : Nat.toDigits 10 n with
      | nil => exact absurd hds Nat.toDigits_ne_nil
      | cons d ds =>
        rw [hds, List.cons_append] at hcs
        exact head_toDigits h ds ((List.cons.inj hcs).1 ▸ hds)

theorem spanFraction_of_ends {rest : List Char} (h : Ends rest) :
    spanFraction rest = ([], rest) := by
  unfold spanFraction
  split
  · exact absurd rfl (h '.' rfl).2.1
  · rfl

theorem spanExponent_of_ends {rest : List Char} (h : Ends rest) :
    spanExponent rest = ([], rest) := by
  cases rest with
  | nil => rfl
  | cons e rest =>
    obtain ⟨_, _, he, hE⟩ := h e rfl
    unfold spanExponent
    exact if_neg (by simp [he, hE])

/-- The number that a row of digits stands for. -/
theorem ofDigits_splitDigits {ds : List Char} (h : ∀ c ∈ ds, Decimal.isDigit c = true) :
    ofDigits (Decimal.splitDigits ds).1 = Nat.ofDigitChars 10 ds 0 := by
  have hsplit : (Decimal.splitDigits ds).1 = ds.map fun c => c.toNat - 0x30 := by
    induction ds with
    | nil => rfl
    | cons c ds ih =>
      have hvalue : asciiDigit? c = some (c.toNat - 0x30) := by
        have hc := h c List.mem_cons_self
        unfold Decimal.isDigit asciiDigit? at hc
        unfold asciiDigit?
        split at hc
        · rename_i hrange
          exact if_pos hrange
        · cases hc
      rw [Decimal.splitDigits, hvalue, List.map_cons,
        ← ih fun d hd => h d (List.mem_cons_of_mem c hd)]
  rw [hsplit, ofDigits, List.foldl_map]
  rfl

/-- **An integer is read as its digits stand for.** -/
theorem number?_digits {n : Nat} (h : n < 10 ^ Decimal.digitLimit) {rest : List Char}
    (hrest : Ends rest) :
    number? (Nat.toDigits 10 n ++ rest) = some (.int n, rest) ∧
      number? ('-' :: Nat.toDigits 10 n ++ rest) = some (.int (-n), rest) := by
  have hdigits : ∀ c ∈ Nat.toDigits 10 n, Decimal.isDigit c = true :=
    fun c => isDigit_of_mem_toDigits
  have hempty : (Nat.toDigits 10 n).isEmpty = false := by
    rw [List.isEmpty_eq_false_iff]
    exact Nat.toDigits_ne_nil
  have hlimit : ¬Decimal.digitLimit < (Nat.toDigits 10 n).length := by
    rw [Nat.not_lt, Nat.length_toDigits_le_iff (by decide) (by decide)]
    exact h
  have hvalue : ofDigits (Decimal.splitDigits (Nat.toDigits 10 n)).1 = n := by
    rw [ofDigits_splitDigits hdigits, Nat.ofDigitChars_toDigits (by decide) (by decide)]
  have hsign : ((Nat.toDigits 10 n ++ rest).head? == some '-') = false := by
    cases hds : Nat.toDigits 10 n with
    | nil => exact absurd hds Nat.toDigits_ne_nil
    | cons d ds =>
      have hd := hdigits d (hds ▸ List.mem_cons_self)
      rw [List.cons_append, List.head?_cons, beq_eq_false_iff_ne]
      intro he
      rw [Option.some.inj he] at hd
      cases hd
  constructor
  · unfold number?
    simp only [hsign, Bool.false_eq_true, if_false, List.length_nil, List.drop_zero,
      spanWhole_toDigits n hrest, spanFraction_of_ends hrest, spanExponent_of_ends hrest, hempty,
      List.isEmpty_nil, Bool.and_self, if_true, hlimit, hvalue]
  · unfold number?
    simp only [List.cons_append, List.head?_cons, BEq.rfl, if_true, List.length_singleton,
      List.drop_succ_cons, List.drop_zero, spanWhole_toDigits n hrest, spanFraction_of_ends hrest,
      spanExponent_of_ends hrest, hempty, Bool.false_eq_true, if_false, List.isEmpty_nil,
      Bool.and_self, hlimit, hvalue, List.isEmpty_cons]

/-! ## 4. Scalars -/

/-- A text that starts with a digit, or with a sign and a digit, starts with no word. -/
theorem findSome?_words {d : Char} (hd : Decimal.isDigit d = true) (cs : List Char) :
    (words.findSome? fun w => (afterWord? w.1 (d :: cs)).map fun rest => (w.2, rest)) = none ∧
      (words.findSome? fun w => (afterWord? w.1 ('-' :: d :: cs)).map fun rest => (w.2, rest)) =
        none := by
  have hne : ∀ c, Decimal.isDigit c = false → (c == d) = false := by
    intro c hc
    rw [beq_eq_false_iff_ne]
    rintro rfl
    rw [hd] at hc
    cases hc
  have hword : ∀ c w cs, Decimal.isDigit c = false → (c :: w).isPrefixOf (d :: cs) = false := by
    intro c w cs hc
    rw [List.isPrefixOf, hne c hc]
    rfl
  have hhead : ∀ w ∈ words, ∃ c rest, w.1.toList = c :: rest ∧ Decimal.isDigit c = false ∧
      (c ≠ '-' ∨ ∃ c' rest', rest = c' :: rest' ∧ Decimal.isDigit c' = false) := by
    simp only [words, List.forall_mem_cons]
    refine ⟨⟨_, _, rfl, rfl, .inl (by decide)⟩, ⟨_, _, rfl, rfl, .inl (by decide)⟩,
      ⟨_, _, rfl, rfl, .inl (by decide)⟩, ⟨_, _, rfl, rfl, .inl (by decide)⟩,
      ⟨_, _, rfl, rfl, .inl (by decide)⟩, ⟨_, _, rfl, rfl, .inr ⟨_, _, rfl, rfl⟩⟩, ?_⟩
    intro w hw
    cases hw
  constructor
  · refine List.findSome?_eq_none_iff.mpr fun w hw => ?_
    obtain ⟨c, rest, hw, hc, _⟩ := hhead w hw
    rw [afterWord?, hw, hword c rest cs hc]
    rfl
  · refine List.findSome?_eq_none_iff.mpr fun w hw => ?_
    obtain ⟨c, rest, hw, _, hsign | ⟨c', rest', rfl, hc'⟩⟩ := hhead w hw
    · rw [afterWord?, hw, List.isPrefixOf, beq_eq_false_iff_ne.mpr hsign]
      rfl
    · rw [afterWord?, hw, List.isPrefixOf, hword c' rest' cs hc', Bool.and_false]
      rfl

theorem scalar?_string {s : String} {us : List Char} (h : Spelled s.toList us)
    (rest : List Char) : scalar? ('"' :: us ++ '"' :: rest) = some (.string s, rest) := by
  have hno : (words.findSome? fun w =>
      (afterWord? w.1 ('"' :: us ++ '"' :: rest)).map fun rest => (w.2, rest)) = none := rfl
  unfold scalar?
  rw [hno]
  show (string? (us ++ '"' :: rest)).map _ = _
  rw [string?_spelled h]
  rfl

theorem scalar?_integer {n : Nat} (h : n < 10 ^ Decimal.digitLimit) {rest : List Char}
    (hrest : Ends rest) :
    scalar? (Nat.toDigits 10 n ++ rest) = some (.int n, rest) ∧
      scalar? ('-' :: Nat.toDigits 10 n ++ rest) = some (.int (-n), rest) := by
  obtain ⟨hplus, hminus⟩ := number?_digits h hrest
  cases hds : Nat.toDigits 10 n with
  | nil => exact absurd hds Nat.toDigits_ne_nil
  | cons d ds =>
    have hd : Decimal.isDigit d = true :=
      isDigit_of_mem_toDigits (n := n) (hds ▸ List.mem_cons_self)
    rw [hds] at hplus hminus
    obtain ⟨hno, hno'⟩ := findSome?_words hd (ds ++ rest)
    have hquote : d ≠ '"' := by
      rintro rfl
      cases hd
    constructor
    · unfold scalar?
      rw [List.cons_append, hno]
      dsimp only
      split
      · rename_i he
        exact absurd (List.cons.inj he).1 hquote
      · exact hplus
    · unfold scalar?
      rw [List.cons_append, List.cons_append, hno']
      exact hminus

/-! ## 5. Values -/

/-- Whether a character may start a value, items or members: it is one of ASCII, no blank, and
    closes nothing. -/
def Opens (c : Char) : Prop :=
  c.toNat < 0x80 ∧ c ∉ [' ', '\t', '\n', '\r', ']', '\x7d']

theorem toNat_lt_of_isDigit {c : Char} (h : Decimal.isDigit c = true) : c.toNat < 0x80 := by
  unfold Decimal.isDigit asciiDigit? at h
  split at h
  · rename_i hrange
    simp only [Bool.and_eq_true, decide_eq_true_eq] at hrange
    omega
  · cases h

theorem opens_of_isDigit {c : Char} (h : Decimal.isDigit c = true) : Opens c := by
  refine ⟨toNat_lt_of_isDigit h, fun hc => ?_⟩
  fin_cases hc <;> cases h

theorem skipBlanks_of_opens {c : Char} (h : Opens c) (cs : List Char) :
    skipBlanks (c :: cs) = c :: cs := by
  have hno := h.2
  simp only [List.mem_cons, not_or] at hno
  rw [skipBlanks, List.dropWhile_cons_of_neg]
  simp [hno]

/-- What is written starts with a character that may start it. -/
theorem Written.exists_head {d : Nat} {p : Phrase} {cs : List Char} (h : Written d p cs) :
    ∃ c rest, cs = c :: rest ∧ Opens c := by
  have hdigits : ∀ n, ∃ c rest, Nat.toDigits 10 n = c :: rest ∧ Opens c := by
    intro n
    cases hds : Nat.toDigits 10 n with
    | nil => exact absurd hds Nat.toDigits_ne_nil
    | cons d ds =>
      exact ⟨d, ds, rfl, opens_of_isDigit (isDigit_of_mem_toDigits (hds ▸ List.mem_cons_self))⟩
  induction h with
  | natural h => exact hdigits _
  | lastItem h hb ih =>
    obtain ⟨c, rest, rfl, hc⟩ := ih
    exact ⟨c, _, rfl, hc⟩
  | item h hb hb' hrest ih =>
    obtain ⟨c, rest, rfl, hc⟩ := ih
    exact ⟨c, _, rfl, hc⟩
  | _ => exact ⟨_, _, rfl, by unfold Opens; decide⟩

theorem ends_cons {c : Char} (h : c = ',' ∨ c = ']' ∨ c = '\x7d') (cs : List Char) :
    Ends (c :: cs) := by
  intro c' hc'
  cases hc'
  rcases h with rfl | rfl | rfl <;> decide

theorem ends_append {b cs : List Char} (hb : Blanks b) (h : Ends cs) : Ends (b ++ cs) := by
  cases b with
  | nil => exact h
  | cons c b =>
    intro c' hc'
    cases hc'
    rcases hb c List.mem_cons_self with rfl | rfl | rfl | rfl <;> decide

/-- What a reader that goes so deep makes of a phrase and what follows it, if it has fuel enough. -/
def Reads (d : Nat) : Phrase → List Char → Prop
  | .value v, cs => ∀ fuel rest, cs.length < fuel → Ends rest →
      value fuel d (cs ++ rest) = .ok (v, rest)
  | .items vs, cs => ∀ fuel rest, cs.length + 1 < fuel →
      items fuel d (cs ++ ']' :: rest) = .ok (vs, rest)
  | .members ms, cs => ∀ fuel before rest, cs.length + 1 < fuel →
      members fuel d before (cs ++ '\x7d' :: rest) = .ok (Members.collect before ms, rest)

theorem exists_succ_of_lt {n fuel : Nat} (h : n < fuel) : ∃ m, fuel = m + 1 ∧ n ≤ m :=
  ⟨fuel - 1, by omega, by omega⟩

section Values

variable {d : Nat} {v : Value} {vs : List Value} {k : String} {ms : Members}
  {cs ks b b' b'' b₃ rest : List Char}

/-- What starts with no bracket is a word, a string or a number. -/
theorem value_eq_scalar {all : List Char} (h : ∀ c, all.head? = some c → c ≠ '[' ∧ c ≠ '\x7b')
    (fuel d : Nat) : value (fuel + 1) d all = orMalformed (scalar? all) := by
  unfold value
  split
  · rename_i hzero
    cases hzero
  · exact absurd rfl (h '[' rfl).1
  · exact absurd rfl (h '[' rfl).1
  · exact absurd rfl (h '\x7b' rfl).2
  · exact absurd rfl (h '\x7b' rfl).2
  · rfl

theorem reads_scalar (hhead : ∀ rest c, (cs ++ rest).head? = some c → c ≠ '[' ∧ c ≠ '\x7b')
    (h : ∀ rest, Ends rest → scalar? (cs ++ rest) = some (v, rest)) : Reads d (.value v) cs := by
  intro fuel rest hfuel hrest
  obtain ⟨m, rfl, _⟩ := exists_succ_of_lt hfuel
  rw [value_eq_scalar (hhead rest), h rest hrest]
  rfl

theorem reads_emptyArray (hb : Blanks b) :
    Reads (d + 1) (.value (.array [])) ('[' :: b ++ [']']) := by
  intro fuel rest hfuel _
  obtain ⟨m, rfl, _⟩ := exists_succ_of_lt hfuel
  have hskip : skipBlanks (b ++ ([']'] ++ rest)) = ']' :: rest := skipBlanks_append hb _
  rw [List.cons_append, List.cons_append, List.append_assoc, value, hskip]
  rfl

theorem reads_array {c : Char} (hb : Blanks b) (hc : Opens c)
    (h : Reads d (.items vs) (c :: cs)) :
    Reads (d + 1) (.value (.array vs)) ('[' :: b ++ (c :: cs) ++ [']']) := by
  intro fuel rest hfuel _
  obtain ⟨m, rfl, hm⟩ := exists_succ_of_lt hfuel
  simp only [List.length_append, List.length_cons, List.length_nil] at hm
  have hskip : skipBlanks (b ++ (c :: cs ++ ([']'] ++ rest))) = c :: (cs ++ ']' :: rest) := by
    rw [skipBlanks_append hb, List.cons_append, skipBlanks_of_opens hc]
    rfl
  have hitems : items m d (c :: (cs ++ ']' :: rest)) = .ok (vs, rest) :=
    h m rest (by rw [List.length_cons]; omega)
  have hopen : c ≠ ']' := by
    rintro rfl
    exact hc.2 (by decide)
  rw [List.cons_append, List.cons_append, List.cons_append, List.append_assoc, List.append_assoc,
    value, hskip]
  split
  · rename_i he
    exact absurd (List.cons.inj he).1 hopen
  · rw [hitems]
    rfl

theorem reads_emptyObject (hb : Blanks b) :
    Reads (d + 1) (.value (.object [])) ('\x7b' :: b ++ ['\x7d']) := by
  intro fuel rest hfuel _
  obtain ⟨m, rfl, _⟩ := exists_succ_of_lt hfuel
  have hskip : skipBlanks (b ++ (['\x7d'] ++ rest)) = '\x7d' :: rest := skipBlanks_append hb _
  rw [List.cons_append, List.cons_append, List.append_assoc, value, hskip]
  rfl

theorem reads_object {c : Char} (hb : Blanks b) (hc : Opens c)
    (h : Reads d (.members ms) (c :: cs)) :
    Reads (d + 1) (.value (.object (Members.collect [] ms))) ('\x7b' :: b ++ (c :: cs) ++ ['\x7d']) := by
  intro fuel rest hfuel _
  obtain ⟨m, rfl, hm⟩ := exists_succ_of_lt hfuel
  simp only [List.length_append, List.length_cons, List.length_nil] at hm
  have hskip : skipBlanks (b ++ (c :: cs ++ (['\x7d'] ++ rest))) =
      c :: (cs ++ '\x7d' :: rest) := by
    rw [skipBlanks_append hb, List.cons_append, skipBlanks_of_opens hc]
    rfl
  have hmembers : members m d [] (c :: (cs ++ '\x7d' :: rest)) =
      .ok (Members.collect [] ms, rest) := h m [] rest (by rw [List.length_cons]; omega)
  have hopen : c ≠ '\x7d' := by
    rintro rfl
    exact hc.2 (by decide)
  rw [List.cons_append, List.cons_append, List.cons_append, List.append_assoc, List.append_assoc,
    value, hskip]
  split
  · rename_i he
    exact absurd (List.cons.inj he).1 hopen
  · rw [hmembers]
    rfl

theorem reads_lastItem (h : Reads d (.value v) cs) (hb : Blanks b) :
    Reads d (.items [v]) (cs ++ b) := by
  intro fuel rest hfuel
  obtain ⟨m, rfl, hm⟩ := exists_succ_of_lt hfuel
  rw [List.length_append] at hm
  have hvalue : value m d (cs ++ (b ++ ']' :: rest)) = .ok (v, b ++ ']' :: rest) :=
    h m _ (by omega) (ends_append hb (ends_cons (.inr (.inl rfl)) rest))
  have hskip : skipBlanks (b ++ ']' :: rest) = ']' :: rest := skipBlanks_append hb _
  rw [List.append_assoc, items, hvalue]
  dsimp only
  rw [hskip]
  rfl

theorem reads_item {c : Char} (h : Reads d (.value v) cs) (hb : Blanks b) (hb' : Blanks b')
    (hc : Opens c) (hrest : Reads d (.items vs) (c :: rest)) :
    Reads d (.items (v :: vs)) (cs ++ b ++ ',' :: b' ++ (c :: rest)) := by
  intro fuel after hfuel
  obtain ⟨m, rfl, hm⟩ := exists_succ_of_lt hfuel
  simp only [List.length_append, List.length_cons] at hm
  have hvalue : value m d (cs ++ (b ++ ',' :: (b' ++ (c :: rest ++ ']' :: after)))) =
      .ok (v, b ++ ',' :: (b' ++ (c :: rest ++ ']' :: after))) :=
    h m _ (by omega) (ends_append hb (ends_cons (.inl rfl) _))
  have hskip : skipBlanks (b ++ ',' :: (b' ++ (c :: rest ++ ']' :: after))) =
      ',' :: (b' ++ (c :: rest ++ ']' :: after)) := skipBlanks_append hb _
  have hskip' : skipBlanks (b' ++ (c :: rest ++ ']' :: after)) = c :: rest ++ ']' :: after := by
    rw [skipBlanks_append hb', List.cons_append, skipBlanks_of_opens hc]
  have hitems : items m d (c :: rest ++ ']' :: after) = .ok (vs, after) :=
    hrest m after (by rw [List.length_cons]; omega)
  simp only [List.append_assoc, List.cons_append] at hvalue hskip hskip' hitems ⊢
  rw [items, hvalue]
  dsimp only
  rw [hskip]
  show (items m d (skipBlanks (b' ++ c :: (rest ++ ']' :: after)))).map _ = _
  rw [hskip', hitems]
  rfl

/-- A member up to its value. -/
theorem members_key (hk : Spelled k.toList ks) (hb : Blanks b) (hb' : Blanks b') {c : Char}
    (hc : Opens c) (cs : List Char) (fuel : Nat) (before : Members) (after : List Char) :
    members (fuel + 1) d before ('"' :: ks ++ '"' :: b ++ ':' :: b' ++ (c :: cs) ++ after) =
      match value fuel d (c :: cs ++ after) with
      | .error e => .error e
      | .ok (v, rest) =>
        match skipBlanks rest with
        | '\x7d' :: rest => .ok (Members.insert k v before, rest)
        | ',' :: rest => members fuel d (Members.insert k v before) (skipBlanks rest)
        | _ => .error .malformed := by
  have hkey := string?_spelled hk (b ++ ':' :: (b' ++ (c :: cs ++ after)))
  have hskip : skipBlanks (b ++ ':' :: (b' ++ (c :: cs ++ after))) =
      ':' :: (b' ++ (c :: cs ++ after)) := skipBlanks_append hb _
  have hskip' : skipBlanks (b' ++ (c :: cs ++ after)) = c :: cs ++ after := by
    rw [skipBlanks_append hb', List.cons_append, skipBlanks_of_opens hc]
  simp only [List.append_assoc, List.cons_append] at hkey hskip hskip' ⊢
  rw [members, hkey]
  dsimp only
  rw [hskip]
  conv_rhs => rw [← hskip']
  rfl

theorem reads_lastMember {c : Char} (hk : Spelled k.toList ks) (hb : Blanks b) (hb' : Blanks b')
    (hc : Opens c) (h : Reads d (.value v) (c :: cs)) (hb'' : Blanks b'') :
    Reads d (.members [(k, v)]) ('"' :: ks ++ '"' :: b ++ ':' :: b' ++ (c :: cs) ++ b'') := by
  intro fuel before rest hfuel
  obtain ⟨m, rfl, hm⟩ := exists_succ_of_lt hfuel
  simp only [List.length_append, List.length_cons] at hm
  have hvalue : value m d (c :: cs ++ (b'' ++ '\x7d' :: rest)) = .ok (v, b'' ++ '\x7d' :: rest) :=
    h m _ (by rw [List.length_cons]; omega)
      (ends_append hb'' (ends_cons (.inr (.inr rfl)) rest))
  have hskip : skipBlanks (b'' ++ '\x7d' :: rest) = '\x7d' :: rest := skipBlanks_append hb'' _
  rw [List.append_assoc, members_key hk hb hb' hc, hvalue]
  dsimp only
  rw [hskip]
  rfl

theorem reads_member {c c' : Char} (hk : Spelled k.toList ks) (hb : Blanks b) (hb' : Blanks b')
    (hc : Opens c) (h : Reads d (.value v) (c :: cs)) (hb'' : Blanks b'') (hb₃ : Blanks b₃)
    (hc' : Opens c') (hrest : Reads d (.members ms) (c' :: rest)) :
    Reads d (.members ((k, v) :: ms))
      ('"' :: ks ++ '"' :: b ++ ':' :: b' ++ (c :: cs) ++ b'' ++ ',' :: b₃ ++ (c' :: rest)) := by
  intro fuel before after hfuel
  obtain ⟨m, rfl, hm⟩ := exists_succ_of_lt hfuel
  simp only [List.length_append, List.length_cons] at hm
  have hkey := members_key (d := d) hk hb hb' hc cs m before
    (b'' ++ ',' :: (b₃ ++ (c' :: rest ++ '\x7d' :: after)))
  have hvalue : value m d (c :: cs ++ (b'' ++ ',' :: (b₃ ++ (c' :: rest ++ '\x7d' :: after)))) =
      .ok (v, b'' ++ ',' :: (b₃ ++ (c' :: rest ++ '\x7d' :: after))) :=
    h m _ (by rw [List.length_cons]; omega) (ends_append hb'' (ends_cons (.inl rfl) _))
  have hskip : skipBlanks (b'' ++ ',' :: (b₃ ++ (c' :: rest ++ '\x7d' :: after))) =
      ',' :: (b₃ ++ (c' :: rest ++ '\x7d' :: after)) := skipBlanks_append hb'' _
  have hskip' : skipBlanks (b₃ ++ (c' :: rest ++ '\x7d' :: after)) =
      c' :: rest ++ '\x7d' :: after := by
    rw [skipBlanks_append hb₃, List.cons_append, skipBlanks_of_opens hc']
  have hmembers : members m d (Members.insert k v before) (c' :: rest ++ '\x7d' :: after) =
      .ok (Members.collect (Members.insert k v before) ms, after) :=
    hrest m _ after (by rw [List.length_cons]; omega)
  simp only [List.append_assoc, List.cons_append] at hkey hvalue hskip hskip' hmembers ⊢
  rw [hkey, hvalue]
  dsimp only
  rw [hskip]
  show members m d (Members.insert k v before) (skipBlanks (b₃ ++ c' :: (rest ++ '\x7d' :: after))) =
    _
  rw [hskip', hmembers]
  rfl

end Values

/-- **The reader takes what is written**, and leaves what follows it. -/
theorem reads_of_written {d : Nat} {p : Phrase} {cs : List Char} (h : Written d p cs) :
    Reads d p cs := by
  induction h with
  | null => exact reads_scalar (by rintro rest c ⟨⟩; decide) fun _ _ => rfl
  | true => exact reads_scalar (by rintro rest c ⟨⟩; decide) fun _ _ => rfl
  | false => exact reads_scalar (by rintro rest c ⟨⟩; decide) fun _ _ => rfl
  | natural h =>
    refine reads_scalar (fun rest c hc => ?_) fun rest hrest => (scalar?_integer h hrest).1
    rw [List.head?_append_of_ne_nil _ Nat.toDigits_ne_nil] at hc
    have hd := isDigit_of_mem_toDigits (List.mem_of_head? hc)
    constructor <;>
    · rintro rfl
      cases hd
  | negative h =>
    exact reads_scalar (by rintro rest c ⟨⟩; decide) fun rest hrest => (scalar?_integer h hrest).2
  | string h =>
    refine reads_scalar (by rintro rest c ⟨⟩; decide) fun rest _ => ?_
    rw [List.append_assoc]
    exact scalar?_string h rest
  | emptyArray hb => exact reads_emptyArray hb
  | array hb h ih =>
    obtain ⟨c, cs, rfl, hc⟩ := h.exists_head
    exact reads_array hb hc ih
  | emptyObject hb => exact reads_emptyObject hb
  | object hb h ih =>
    obtain ⟨c, cs, rfl, hc⟩ := h.exists_head
    exact reads_object hb hc ih
  | lastItem h hb ih => exact reads_lastItem ih hb
  | item h hb hb' hrest ih ihrest =>
    obtain ⟨c, cs, rfl, hc⟩ := hrest.exists_head
    exact reads_item ih hb hb' hc ihrest
  | lastMember hk hb hb' h hb'' ih =>
    obtain ⟨c, cs, rfl, hc⟩ := h.exists_head
    exact reads_lastMember hk hb hb' hc ih hb''
  | member hk hb hb' h hb'' hb₃ hrest ih ihrest =>
    obtain ⟨c, cs, rfl, hc⟩ := h.exists_head
    obtain ⟨c', cs', rfl, hc'⟩ := hrest.exists_head
    exact reads_member hk hb hb' hc ih hb'' hb₃ hc' ihrest

/-! ## 6. Whole texts -/

/-- **A text is read as the value that it stands for**, if the reader goes as deep. -/
theorem parse_of_isText {d : Nat} {v : Value} {cs : List Char} (h : IsText d v cs) :
    parse d cs = .ok v := by
  obtain ⟨before, text, after, hbefore, hafter, hwritten, rfl⟩ := h
  have hends : Ends after := by
    rw [← List.append_nil after]
    refine ends_append hafter fun c hc => ?_
    cases hc
  have hvalue := reads_of_written hwritten (2 * (before ++ text ++ after).length + 2) after
    (by simp only [List.length_append]; omega) hends
  have hskip : skipBlanks (before ++ text ++ after) = text ++ after := by
    obtain ⟨c, rest, rfl, hc⟩ := hwritten.exists_head
    rw [List.append_assoc, skipBlanks_append hbefore, List.cons_append, skipBlanks_of_opens hc]
  have hrest : skipBlanks after = [] := by
    rw [← List.append_nil after, skipBlanks_append hafter]
    rfl
  rw [parse, hskip, hvalue]
  dsimp only
  rw [hrest]
  rfl

/-- Every text is read by a reader that goes as deep as any. -/
theorem parse?_of_isText {d : Nat} {v : Value} {cs : List Char} (h : IsText d v cs) :
    parse? cs = some v := by
  rw [parse?, parse_of_isText h.shallow]
  rfl

/-! ## 7. Bytes -/

theorem nul_notMem_spells {c : Char} {us : List Char} (h : Spells c us) : '\x00' ∉ us := by
  have hunit : ∀ {u us}, HexUnit u us → '\x00' ∉ us := by
    intro u us h
    have hdigit : ∀ n, ¬HexDigit n '\x00' := by
      intro n hn
      cases hexValue?_eq hn
    cases h with
    | digits ha hb hc hd =>
      intro hmem
      simp only [List.mem_cons, List.not_mem_nil, or_false] at hmem
      rcases hmem with rfl | rfl | rfl | rfl
      · exact hdigit _ ha
      · exact hdigit _ hb
      · exact hdigit _ hc
      · exact hdigit _ hd
  cases h with
  | plain h hquote hslash =>
    intro hmem
    rw [List.mem_singleton] at hmem
    subst hmem
    exact absurd h (by decide)
  | short h =>
    intro hmem
    simp only [List.mem_cons, List.not_mem_nil, or_false] at hmem
    rcases hmem with hmem | rfl
    · cases hmem
    · simp [shortEscapes] at h
  | unit h => simp [hunit h]
  | pair h hhigh hlow => simp [hunit hhigh, hunit hlow]

theorem nul_notMem_spelled {s us : List Char} (h : Spelled s us) : '\x00' ∉ us := by
  induction h with
  | nil => exact List.not_mem_nil
  | cons h _ ih => simp [nul_notMem_spells h, ih]

theorem nul_notMem_blanks {b : List Char} (h : Blanks b) : '\x00' ∉ b := by
  intro hmem
  rcases h _ hmem with h | h | h | h <;> cases h

/-- Nothing that is written holds the character zero. -/
theorem Written.nul_notMem {d : Nat} {p : Phrase} {cs : List Char} (h : Written d p cs) :
    '\x00' ∉ cs := by
  have hdigits : ∀ n, '\x00' ∉ Nat.toDigits 10 n := by
    intro n hmem
    cases isDigit_of_mem_toDigits hmem
  induction h with
  | natural h => exact hdigits _
  | negative h => simp [hdigits]
  | string h => simp [nul_notMem_spelled h]
  | emptyArray hb => simp [nul_notMem_blanks hb]
  | array hb h ih => simp [nul_notMem_blanks hb, ih]
  | emptyObject hb => simp [nul_notMem_blanks hb]
  | object hb h ih => simp [nul_notMem_blanks hb, ih]
  | lastItem h hb ih => simp [nul_notMem_blanks hb, ih]
  | item h hb hb' hrest ih ihrest =>
    simp [nul_notMem_blanks hb, nul_notMem_blanks hb', ih, ihrest]
  | lastMember hk hb hb' h hb'' ih =>
    simp [nul_notMem_spelled hk, nul_notMem_blanks hb, nul_notMem_blanks hb',
      nul_notMem_blanks hb'', ih]
  | member hk hb hb' h hb'' hb₃ hrest ih ihrest =>
    simp [nul_notMem_spelled hk, nul_notMem_blanks hb, nul_notMem_blanks hb',
      nul_notMem_blanks hb'', nul_notMem_blanks hb₃, ih, ihrest]
  | _ => decide

set_option linter.auxLemma false in
/-- Bytes without a zero that start with one of ASCII are taken for UTF-8. -/
theorem pieces_of_notMem {a : UInt8} {bs : Bytes} (ha : a.toNat < 0x80) (h : 0 ∉ a :: bs) :
    pieces (a :: bs) = Utf8.decodeFrom true none (a :: bs) := by
  have hne : ∀ b : UInt8, 0x80 ≤ b.toNat → a ≠ b := by
    rintro b hb rfl
    omega
  have hzero : a ≠ 0 := fun e => h (e ▸ List.mem_cons_self)
  have hfirst : (a == 0) = false := beq_eq_false_iff_ne.mpr hzero
  have hsecond : ∀ b ∈ bs, (b == 0) = false := fun b hb =>
    beq_eq_false_iff_ne.mpr fun e => h (List.mem_cons_of_mem _ (e ▸ hb))
  -- the match is opened as it stands: no case analysis is derived for its patterns of bytes
  unfold pieces pieces.match_1
  simp only [hfirst, Bool.false_eq_true, if_false, dif_neg hzero, dif_neg (hne 0xFF (by decide)),
    dif_neg (hne 0xFE (by decide)), dif_neg (hne 0xEF (by decide))]
  match bs with
  | [] => rfl
  | [b] =>
    show (if b == 0 then _ else Utf8.decodeFrom true none [a, b]) = _
    rw [hsecond b List.mem_cons_self, if_neg Bool.false_ne_true]
  | [b, c] => rfl
  | b :: c :: d :: rest =>
    show (if b == 0 then _ else Utf8.decodeFrom true none (a :: b :: c :: d :: rest)) = _
    rw [hsecond b List.mem_cons_self, if_neg Bool.false_ne_true]

/-- The bytes of a text in UTF-8 that starts with a character of ASCII, and holds no zero. -/
theorem pieces_encode {s : String} {c : Char} {rest : List Char} (hs : s.toList = c :: rest)
    (hc : c.toNat < 0x80) (hnul : '\x00' ∉ s.toList) :
    pieces (Utf8.encode s) = s.toList.map Piece.char := by
  have hzero : 0 ∉ Utf8.encode s := Utf8.notMem_encode (c := '\x00') (by decide) hnul
  have hcons := Utf8.encode_of_toList_cons hs hc
  rw [← Utf8.decodeFrom_encode true]
  rw [hcons] at hzero ⊢
  refine pieces_of_notMem ?_ hzero
  rw [UInt8.toNat_ofNat', Nat.mod_eq_of_lt (by omega)]
  exact hc

/-- A text that stands for a value starts with a character of ASCII, and holds no zero. -/
theorem IsText.exists_head {d : Nat} {v : Value} {cs : List Char} (h : IsText d v cs) :
    ∃ c rest, cs = c :: rest ∧ c.toNat < 0x80 ∧ '\x00' ∉ cs := by
  obtain ⟨before, text, after, hbefore, hafter, hwritten, rfl⟩ := h
  have hnul : '\x00' ∉ before ++ text ++ after := by
    simp [nul_notMem_blanks hbefore, nul_notMem_blanks hafter, hwritten.nul_notMem]
  cases before with
  | nil =>
    obtain ⟨c, rest, rfl, hc⟩ := hwritten.exists_head
    exact ⟨c, _, rfl, hc.1, hnul⟩
  | cons b before =>
    refine ⟨b, _, rfl, ?_, hnul⟩
    rcases hbefore b List.mem_cons_self with rfl | rfl | rfl | rfl <;> decide

/-- **The bytes of a text in UTF-8 are read as the value that the text stands for.** -/
theorem decode_of_isText {d : Nat} {v : Value} {s : String} (h : IsText d v s.toList) :
    decode d (Utf8.encode s) = .ok v := by
  obtain ⟨c, rest, hs, hc, hnul⟩ := h.exists_head
  rw [decode, pieces_encode hs hc hnul, exactText?_map_char, String.ofList_toList]
  exact parse_of_isText h

end CodeSession.Json
