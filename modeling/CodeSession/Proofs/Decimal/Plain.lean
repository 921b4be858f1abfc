import CodeSession.Decimal.Reading
import Mathlib.Data.List.TakeWhile

/-!
# Two ways to spell a number

Which texts are read alike in the two ways to dress up a number.

* `AsciiDigits`, `UnderscoresJoin` -- no digit of another script, and no underscore except between
  two digits; `joinDigits?_eq_some_iff` says that the second is what the strict rule for underscores
  checks;
* `PlainNumber`, `PlainInteger` -- texts dressed up in no way that only one of the readers allows;
* `flexible?_eq_lax?`, `flexibleInt_eq_laxInt` -- plain texts are read alike;
* `plainNumber_of_both`, `plainInteger_of_both` -- no other text is read in both ways.
-/

namespace CodeSession.Decimal

open Text

variable {c : Char} {cs ds : List Char}

/-! ## 1. Digits -/

/-- Every digit is one of `0` to `9`. -/
def AsciiDigits (cs : List Char) : Prop :=
  ∀ c ∈ cs, (digit? c).isSome = true → isDigit c = true

theorem isDigit_iff : isDigit c = true ↔ 0x30 ≤ c.toNat ∧ c.toNat ≤ 0x39 := by
  unfold isDigit asciiDigit?
  split
  · rename_i h
    simpa using h
  · rename_i h
    simpa using h

/-- A digit of ASCII is one of `0` to `9`. -/
theorem isDigit_of_digit? (h : (digit? c).isSome = true) (hc : c.toNat < 0x80) :
    isDigit c = true := by
  have hzeros : ∀ z ∈ zeros, z = 0x30 ∨ 0x80 ≤ z := by decide
  rw [digit?, Option.isSome_map, List.find?_isSome] at h
  obtain ⟨z, hz, hrange⟩ := h
  simp only [Bool.and_eq_true, decide_eq_true_eq] at hrange
  rw [isDigit_iff]
  rcases hzeros z hz with rfl | hlarge <;> omega

theorem digit?_of_isDigit (h : isDigit c = true) : digit? c = some (c.toNat - 0x30) := by
  have hc := isDigit_iff.mp h
  have hzero : zeros.find? (fun z => z ≤ c.toNat && c.toNat < z + 10) = some 0x30 := by
    rw [zeros, List.find?_cons_of_pos]
    simp only [Bool.and_eq_true, decide_eq_true_eq]
    omega
  rw [digit?, hzero]
  rfl

/-- Texts without digits of other scripts stay as they are. -/
theorem toAsciiDigits_eq_self (h : AsciiDigits cs) : toAsciiDigits cs = cs := by
  refine (List.map_congr_left fun c hc => ?_).trans (List.map_id cs)
  cases hd : digit? c with
  | none => rfl
  | some d =>
    have hdigit : isDigit c = true := h c hc (by rw [hd]; rfl)
    have hrange := isDigit_iff.mp hdigit
    rw [digit?_of_isDigit hdigit] at hd
    cases hd
    show Char.ofNat (0x30 + (c.toNat - 0x30)) = c
    rw [Nat.add_sub_cancel' hrange.1, Char.ofNat_toNat]

/-! ## 2. Underscores -/

/-- Each underscore stands between two digits. `afterDigit` says that the character before is a
    digit. -/
def UnderscoresJoin (afterDigit : Bool) (cs : List Char) : Prop :=
  ∀ l r, cs = l ++ '_' :: r →
    l.getLast?.elim afterDigit isDigit = true ∧ r.head?.any isDigit = true

theorem underscoresJoin_nil (afterDigit : Bool) : UnderscoresJoin afterDigit [] := by
  intro l r h
  simp at h

theorem underscoresJoin_cons {afterDigit : Bool} :
    UnderscoresJoin afterDigit (c :: cs) ↔
      (c = '_' → afterDigit = true ∧ cs.head?.any isDigit = true) ∧
        UnderscoresJoin (isDigit c) cs := by
  constructor
  · intro h
    refine ⟨fun hc => h [] cs (by rw [hc]; rfl), fun l r hcs => ?_⟩
    have hjoin := h (c :: l) r (by rw [hcs]; rfl)
    rw [List.getLast?_cons] at hjoin
    cases hl : l.getLast? <;> simpa [hl] using hjoin
  · rintro ⟨hhead, htail⟩ l r hcs
    cases l with
    | nil =>
      cases hcs
      exact hhead rfl
    | cons d l =>
      cases hcs
      have hjoin := htail l r rfl
      rw [List.getLast?_cons]
      cases hl : l.getLast? <;> simpa [hl] using hjoin

/-- **The strict rule for underscores** is that each stands between two digits; they go. -/
theorem joinDigits?_eq_some_iff {afterDigit : Bool} :
    joinDigits? afterDigit cs = some ds ↔
      UnderscoresJoin afterDigit cs ∧ cs.filter (· != '_') = ds := by
  fun_induction joinDigits? afterDigit cs generalizing ds with
  | case1 afterDigit => simp [underscoresJoin_nil]
  | case2 afterDigit c cs h ih =>
    -- an underscore between two digits
    rw [Bool.and_eq_true] at h
    have hc : c ≠ '_' := by
      rintro rfl
      exact absurd h.2 (by decide)
    have hjoin : UnderscoresJoin afterDigit ('_' :: c :: cs) ↔ UnderscoresJoin true cs := by
      simp [underscoresJoin_cons, h, hc]
    have hfilter : ('_' :: c :: cs).filter (· != '_') = c :: cs.filter (· != '_') := by simp [hc]
    rw [hjoin, hfilter, Option.map_eq_some_iff]
    simp only [ih, and_assoc, exists_and_left, exists_eq_left']
  | case3 afterDigit c cs h =>
    simp only [reduceCtorEq, false_iff, not_and]
    intro hjoin
    have hdigits := (underscoresJoin_cons.mp hjoin).1 rfl
    exact absurd (Bool.and_eq_true_iff.mpr hdigits) h
  | case4 afterDigit =>
    simp only [reduceCtorEq, false_iff, not_and]
    intro hjoin
    cases ((underscoresJoin_cons.mp hjoin).1 rfl).2
  | case5 afterDigit c cs hmore hlast ih =>
    have hc : c ≠ '_' := by
      rintro rfl
      cases cs with
      | nil => exact hlast rfl rfl
      | cons d cs => exact hmore d cs rfl rfl
    have hjoin : UnderscoresJoin afterDigit (c :: cs) ↔ UnderscoresJoin (isDigit c) cs := by
      simp [underscoresJoin_cons, hc]
    have hfilter : (c :: cs).filter (· != '_') = c :: cs.filter (· != '_') := by simp [hc]
    rw [hjoin, hfilter, Option.map_eq_some_iff]
    simp only [ih, and_assoc, exists_and_left, exists_eq_left']

/-- No underscore stands beside another. -/
theorem not_doubled {afterDigit : Bool} (h : UnderscoresJoin afterDigit cs) :
    (cs.zip (cs.drop 1)).any (fun p => p.1 == '_' && p.2 == '_') = false := by
  induction cs generalizing afterDigit with
  | nil => rfl
  | cons c cs ih =>
    obtain ⟨hhead, htail⟩ := underscoresJoin_cons.mp h
    cases cs with
    | nil => rfl
    | cons d cs =>
      have hpair : (c == '_' && d == '_') = false := by
        rw [Bool.and_eq_false_imp, beq_iff_eq]
        intro hc
        rw [beq_eq_false_iff_ne]
        rintro rfl
        exact absurd (hhead hc).2 (by simp [isDigit, asciiDigit?])
      simpa [hpair] using ih htail

/-- **What the strict rule for underscores allows, the loose one does.** -/
theorem joinLoosely?_of_underscoresJoin (h : UnderscoresJoin false cs) :
    joinLoosely? cs = some (cs.filter (· != '_')) := by
  have hhead : cs.head? ≠ some '_' := by
    intro hc
    obtain ⟨rest, rfl⟩ := List.head?_eq_some_iff.mp hc
    cases (h [] rest rfl).1
  have hlast : cs.getLast? ≠ some '_' := by
    intro hc
    obtain ⟨rest, rfl⟩ := List.getLast?_eq_some_iff.mp hc
    cases (h rest [] rfl).2
  unfold joinLoosely?
  simp only [not_doubled h, Bool.or_false, Bool.or_eq_true, beq_iff_eq, hhead, hlast, or_self,
    if_false]

/-! ## 3. Literals -/

/-- A character that may stand in a literal: one of ASCII other than the underscore. -/
abbrev InLiteral (c : Char) : Prop :=
  c.toNat < 0x80 ∧ c ≠ '_'

theorem inLiteral_of_isDigit (h : isDigit c = true) : InLiteral c := by
  have hrange := isDigit_iff.mp h
  refine ⟨by omega, ?_⟩
  rintro rfl
  exact absurd h (by decide)

theorem inLiteral_of_toLower (h : InLiteral c.toLower) : InLiteral c := by
  unfold Char.toLower at h
  split at h
  · rename_i hupper
    have hrange : 0x41 ≤ c.toNat ∧ c.toNat ≤ 0x5A := hupper
    refine ⟨by omega, ?_⟩
    rintro rfl
    exact absurd hrange (by decide)
  · exact h

/-- A word that is compared without regard to case. -/
theorem inLiteral_of_word {word : String} (h : cs.map Char.toLower = word.toList)
    (hword : word.toList.all (fun c => InLiteral c) = true) : ∀ c ∈ cs, InLiteral c := by
  intro c hc
  have hlower := List.all_eq_true.mp hword _ (h ▸ List.mem_map_of_mem hc)
  exact inLiteral_of_toLower (of_decide_eq_true hlower)

/-- What the signs have and all that follows a sign has, all of the text has. -/
theorem forall_of_splitSign {P : Char → Prop} (hminus : P '-') (hplus : P '+')
    (h : ∀ c ∈ (splitSign cs).2, P c) : ∀ c ∈ cs, P c := by
  unfold splitSign at h
  split at h
  · exact List.forall_mem_cons.mpr ⟨hminus, h⟩
  · exact List.forall_mem_cons.mpr ⟨hplus, h⟩
  · exact h

theorem inLiteral_splitSign (h : ∀ c ∈ (splitSign cs).2, InLiteral c) : ∀ c ∈ cs, InLiteral c :=
  forall_of_splitSign (by decide) (by decide) h

theorem inLiteral_splitDigits (h : ∀ c ∈ (splitDigits cs).2, InLiteral c) :
    ∀ c ∈ cs, InLiteral c := by
  induction cs with
  | nil => exact h
  | cons c cs ih =>
    rw [splitDigits] at h
    split at h
    · rename_i d hd
      exact List.forall_mem_cons.mpr
        ⟨inLiteral_of_isDigit (by rw [isDigit, hd]; rfl), ih h⟩
    · exact h

theorem inLiteral_splitFraction (h : ∀ c ∈ (splitFraction cs).2, InLiteral c) :
    ∀ c ∈ cs, InLiteral c := by
  unfold splitFraction at h
  split at h
  · exact List.forall_mem_cons.mpr ⟨by decide, inLiteral_splitDigits h⟩
  · exact h

theorem inLiteral_exponent? {e : Int} (h : exponent? cs = some e) : ∀ c ∈ cs, InLiteral c := by
  unfold exponent? at h
  split at h
  · exact fun c hc => absurd hc List.not_mem_nil
  · rename_i d cs
    split at h
    · rename_i he
      simp only [Bool.or_eq_true, beq_iff_eq] at he
      have hd : InLiteral d := by rcases he with rfl | rfl <;> decide
      refine List.forall_mem_cons.mpr ⟨hd, inLiteral_splitSign (inLiteral_splitDigits ?_)⟩
      dsimp only at h
      split at h
      · cases h
      · rename_i hend
        rw [hend]
        exact fun c hc => absurd hc List.not_mem_nil
      · cases h
    · cases h

/-- **A literal is one of ASCII, without underscores.** -/
theorem inLiteral_literal? {x : Binary64} (h : literal? cs = some x) : ∀ c ∈ cs, InLiteral c := by
  apply inLiteral_splitSign
  unfold literal? at h
  dsimp only at h
  split at h
  · rename_i hword
    simp only [Bool.or_eq_true, beq_iff_eq] at hword
    rcases hword with hword | hword
    · exact inLiteral_of_word hword (by decide)
    · exact inLiteral_of_word hword (by decide)
  split at h
  · rename_i hword
    exact inLiteral_of_word (beq_iff_eq.mp hword) (by decide)
  split at h
  · cases h
  · obtain ⟨e, he, -⟩ := Option.map_eq_some_iff.mp h
    exact inLiteral_splitDigits (inLiteral_splitFraction (inLiteral_exponent? he))

theorem asciiDigits_of_lt (h : ∀ c ∈ cs, c.toNat < 0x80) : AsciiDigits cs :=
  fun c hc hdigit => isDigit_of_digit? hdigit (h c hc)

theorem filter_eq_self_of_inLiteral (h : ∀ c ∈ cs, InLiteral c) : cs.filter (· != '_') = cs := by
  rw [List.filter_eq_self]
  intro c hc
  simpa using (h c hc).2

/-! ## 4. Numbers -/

/-- A number text that both readers take alike: its digits are ASCII digits, and each underscore
    stands between two of them. -/
def PlainNumber (s : String) : Prop :=
  AsciiDigits (trim isSpace s.toList) ∧ UnderscoresJoin false (trim isSpace s.toList)

variable {s : String}

/-- **A plain text is the same number in both ways.** -/
theorem flexible?_eq_lax? (h : PlainNumber s) : flexible? s = lax? s := by
  obtain ⟨hascii, hjoin⟩ := h
  have hstrict : joinDigits? false (trim isSpace s.toList) =
      some ((trim isSpace s.toList).filter (· != '_')) := joinDigits?_eq_some_iff.mpr ⟨hjoin, rfl⟩
  unfold flexible? lax?
  rw [toAsciiDigits_eq_self hascii, hstrict, Option.bind_some]
  dsimp only
  cases hliteral : literal? (trim isSpace s.toList) with
  | some x => rw [filter_eq_self_of_inLiteral (inLiteral_literal? hliteral), hliteral]
  | none => rw [joinLoosely?_of_underscoresJoin hjoin, Option.bind_some]

/-- What the loose reader takes is ASCII. -/
theorem asciiDigits_of_lax? {x : Binary64} (h : lax? s = some x) :
    AsciiDigits (trim isSpace s.toList) := by
  apply asciiDigits_of_lt
  unfold lax? at h
  dsimp only at h
  split at h
  · rename_i hliteral
    exact fun c hc => (inLiteral_literal? hliteral c hc).1
  · obtain ⟨ds, hds, hliteral⟩ := Option.bind_eq_some_iff.mp h
    have hfilter : (trim isSpace s.toList).filter (· != '_') = ds := by
      unfold joinLoosely? at hds
      dsimp only at hds
      split at hds
      · cases hds
      · exact Option.some.inj hds
    intro c hc
    by_cases hunderscore : c = '_'
    · subst hunderscore
      decide
    · have hmem : c ∈ ds := hfilter ▸ List.mem_filter.mpr ⟨hc, by simpa using hunderscore⟩
      exact (inLiteral_literal? hliteral c hmem).1

/-- **No other text is a number in both ways.** -/
theorem plainNumber_of_both {x y : Binary64} (hflexible : flexible? s = some x)
    (hlax : lax? s = some y) : PlainNumber s := by
  have hascii := asciiDigits_of_lax? hlax
  refine ⟨hascii, ?_⟩
  unfold flexible? at hflexible
  rw [toAsciiDigits_eq_self hascii] at hflexible
  obtain ⟨ds, hds, -⟩ := Option.bind_eq_some_iff.mp hflexible
  exact (joinDigits?_eq_some_iff.mp hds).1

/-! ## 5. Integers -/

/-- An integer text that both readers take alike: its digits are ASCII digits, it has no point, and
    it is no longer than an integer may be. -/
def PlainInteger (s : String) : Prop :=
  AsciiDigits (trim isSpace s.toList) ∧ '.' ∉ trim isSpace s.toList ∧
    (trim isSpace s.toList).length ≤ digitLimit

/-- The integer of a sign and digits with underscores between them. -/
def signedDigits? : Bool × List Char → Option Int
  | (negative, cs) =>
    match joinDigits? false cs with
    | some ds =>
      let n := ofDigits (splitDigits ds).1
      if !ds.isEmpty && ds.all isDigit then some (if negative then -(n : Int) else n) else none
    | none => none

theorem splitSign_suffix (cs : List Char) : (splitSign cs).2 <:+ cs := by
  unfold splitSign
  split
  · exact List.suffix_cons _ _
  · exact List.suffix_cons _ _
  · exact List.suffix_rfl

theorem length_joinDigits? {afterDigit : Bool} (h : joinDigits? afterDigit cs = some ds) :
    ds.length ≤ cs.length := by
  rw [← (joinDigits?_eq_some_iff.mp h).2]
  exact List.length_filter_le _ _

/-- Whether a character may stand among the digits of an integer. -/
def inDigits (c : Char) : Bool :=
  isDigit c || c == '_'

/-- The characters among the digits that are no underscores are digits. -/
theorem all_isDigit_iff {afterDigit : Bool} (h : joinDigits? afterDigit cs = some ds) :
    ds.all isDigit = true ↔ ∀ c ∈ cs, inDigits c = true := by
  rw [← (joinDigits?_eq_some_iff.mp h).2, List.all_eq_true]
  simp only [List.mem_filter, bne_iff_ne, and_imp, inDigits, Bool.or_eq_true, beq_iff_eq]
  refine forall₂_congr fun c _ => ?_
  rw [ne_eq, ← or_iff_not_imp_left, or_comm]

/-- A character that does not belong among the digits is refused. -/
theorem signedDigits?_eq_none (negative : Bool) (h : ¬∀ c ∈ cs, inDigits c = true) :
    signedDigits? (negative, cs) = none := by
  unfold signedDigits?
  dsimp only
  split
  · rename_i hdigits
    exact if_neg fun hall => h ((all_isDigit_iff hdigits).mp (Bool.and_eq_true_iff.mp hall).2)
  · rfl

/-- The strict reader, for texts that are not too long. -/
theorem flexibleInt_eq (hascii : AsciiDigits (trim isSpace s.toList))
    (hlength : (trim isSpace s.toList).length ≤ digitLimit) :
    (flexibleInt s).toOption = signedDigits? (splitSign (trim isSpace s.toList)) := by
  unfold flexibleInt
  rw [toAsciiDigits_eq_self hascii]
  have hrest := (splitSign_suffix (trim isSpace s.toList)).length_le.trans hlength
  generalize splitSign (trim isSpace s.toList) = parts at hrest
  obtain ⟨negative, rest⟩ := parts
  dsimp only at hrest ⊢
  have hclass : (fun c => isDigit c || c == '_') = inDigits := rfl
  rw [hclass]
  by_cases hall : ∀ c ∈ rest, inDigits c = true
  · rw [List.takeWhile_eq_self_iff.mpr hall]
    cases hdigits : joinDigits? false rest with
    | none => simp [signedDigits?, hdigits, Except.toOption]
    | some digits =>
      have hshort := (length_joinDigits? hdigits).trans hrest
      have hdigit := (all_isDigit_iff hdigits).mpr hall
      cases hempty : digits.isEmpty <;>
        simp [signedDigits?, hdigits, hdigit, hempty, Nat.not_lt.mpr hshort, Except.toOption]
  · -- the digits end before the text does
    have hrun : (rest.takeWhile inDigits).length < rest.length := by
      have hbefore := List.takeWhile_prefix inDigits (l := rest)
      refine lt_of_le_of_ne hbefore.length_le fun h => hall ?_
      exact List.takeWhile_eq_self_iff.mp (hbefore.eq_of_length h)
    refine Eq.trans ?_ (signedDigits?_eq_none negative hall).symm
    split
    · rfl
    split
    · rfl
    split
    · rfl
    · rfl

/-- The loose reader, for texts without a point. -/
theorem laxInt_eq (hdot : '.' ∉ trim isSpace s.toList)
    (hlength : (trim isSpace s.toList).length ≤ digitLimit) :
    (laxInt s).toOption = signedDigits? (splitSign (trim isSpace s.toList)) := by
  unfold laxInt signedDigits?
  have hrest : '.' ∉ (splitSign (trim isSpace s.toList)).2 := fun h =>
    hdot ((splitSign_suffix _).subset h)
  have hwhole : (splitSign (trim isSpace s.toList)).2.takeWhile (· != '.') =
      (splitSign (trim isSpace s.toList)).2 := by
    rw [List.takeWhile_eq_self_iff]
    intro c hc
    rw [bne_iff_ne]
    rintro rfl
    exact hrest hc
  dsimp only
  rw [if_neg (Nat.not_lt.mpr hlength), hwhole]
  cases hdigits : joinDigits? false (splitSign (trim isSpace s.toList)).2 with
  | none => rfl
  | some digits =>
    simp only [beq_self_eq_true, Bool.true_or, Bool.true_and]
    split <;> rfl

/-- **A plain text is the same integer in both ways.** -/
theorem flexibleInt_eq_laxInt (h : PlainInteger s) :
    (flexibleInt s).toOption = (laxInt s).toOption := by
  obtain ⟨hascii, hdot, hlength⟩ := h
  rw [flexibleInt_eq hascii hlength, laxInt_eq hdot hlength]

/-- A character of the digits, a zero or a point is one of ASCII. -/
theorem lt_of_inDigits (h : inDigits c = true) : c.toNat < 0x80 := by
  rw [inDigits, Bool.or_eq_true, beq_iff_eq] at h
  rcases h with h | rfl
  · exact (inLiteral_of_isDigit h).1
  · decide

/-- A text is as ASCII as its part before the point, if only zeros follow the point. -/
theorem lt_of_fraction (hwhole : ∀ c ∈ cs.takeWhile (· != '.'), c.toNat < 0x80)
    (hfraction : ∀ c ∈ (cs.dropWhile (· != '.')).drop 1, c = '0') :
    ∀ c ∈ cs, c.toNat < 0x80 := by
  intro c hc
  rw [← List.takeWhile_append_dropWhile (p := (· != '.')) (l := cs), List.mem_append] at hc
  rcases hc with hc | hc
  · exact hwhole c hc
  · cases hrest : cs.dropWhile (· != '.') with
    | nil =>
      rw [hrest] at hc
      exact absurd hc List.not_mem_nil
    | cons d rest =>
      rw [hrest] at hc hfraction
      rcases List.mem_cons.mp hc with rfl | hc
      · have hd : (c != '.') = false := by
          have hhead := List.head?_dropWhile_not (· != '.') cs
          rw [hrest] at hhead
          simpa using hhead
        rw [bne_eq_false_iff_eq.mp hd]
        decide
      · rw [hfraction c hc]
        decide

/-- What the loose reader takes is ASCII, and not too long. -/
theorem asciiDigits_of_laxInt {n : Int} (h : (laxInt s).toOption = some n) :
    AsciiDigits (trim isSpace s.toList) ∧ (trim isSpace s.toList).length ≤ digitLimit := by
  unfold laxInt at h
  dsimp only at h
  split at h
  · cases h
  rename_i hlength
  refine ⟨asciiDigits_of_lt (forall_of_splitSign (by decide) (by decide) ?_),
    Nat.not_lt.mp hlength⟩
  split at h
  · rename_i digits hdigits
    split at h
    · rename_i hfits
      simp only [Bool.and_eq_true, Bool.or_eq_true, beq_iff_eq] at hfits
      obtain ⟨⟨hfraction, -⟩, hall⟩ := hfits
      have hwhole := fun c hc => lt_of_inDigits ((all_isDigit_iff hdigits).mp hall c hc)
      rcases hfraction with hnone | ⟨-, hzeros⟩
      · rwa [(List.takeWhile_prefix _).eq_of_length hnone] at hwhole
      · refine lt_of_fraction hwhole fun c hc => ?_
        simpa using List.all_eq_true.mp hzeros c hc
    · cases h
  · cases h

/-- A point is no digit of any script, and no sign. -/
theorem dot_mem_splitSign (h : '.' ∈ cs) : '.' ∈ (splitSign (toAsciiDigits cs)).2 := by
  have hmem : '.' ∈ toAsciiDigits cs := List.mem_map.mpr ⟨'.', h, by decide +kernel⟩
  by_contra hnot
  have hall : ∀ c ∈ toAsciiDigits cs, c ≠ '.' :=
    forall_of_splitSign (by decide) (by decide) fun c hc hdot => hnot (hdot ▸ hc)
  exact hall '.' hmem rfl

/-- What the strict reader takes has no point. -/
theorem not_mem_of_flexibleInt {n : Int} (h : (flexibleInt s).toOption = some n) :
    '.' ∉ trim isSpace s.toList := by
  intro hdot
  unfold flexibleInt at h
  dsimp only at h
  split at h
  · cases h
  split at h
  · cases h
  split at h
  · cases h
  split at h
  · cases h
  · -- the digits reach to the end, where the point would stop them
    rename_i hlength
    have hwhole := (List.takeWhile_prefix _).eq_of_length_le (Nat.not_lt.mp hlength)
    have hdigit := List.takeWhile_eq_self_iff.mp hwhole '.' (dot_mem_splitSign hdot)
    exact absurd hdigit (by decide)

/-- **No other text is an integer in both ways.** -/
theorem plainInteger_of_both {m n : Int} (hflexible : (flexibleInt s).toOption = some m)
    (hlax : (laxInt s).toOption = some n) : PlainInteger s :=
  ⟨(asciiDigits_of_laxInt hlax).1, not_mem_of_flexibleInt hflexible,
    (asciiDigits_of_laxInt hlax).2⟩

end CodeSession.Decimal
