import CodeSession.Json.Printer
import CodeSession.Proofs.Json.Reading

/-!
# Printed values are read back

A printed value is a text that stands for the value, if any text does.

* `Value.Plain` -- the values that texts stand for: without binary64 numbers, with integers of no
  more digits than a reader takes, and objects in which a name stands once;
* `plain_of_written` -- texts stand for no others;
* `written_print`, `parse?_toText` -- a printed value is written as the grammar has it, and read
  back.
-/

namespace CodeSession.Json

open Text

/-! ## 1. Plain values -/

mutual

/-- Whether texts stand for a value. -/
def Value.Plain : Value → Prop
  | .int n => n.natAbs < 10 ^ Decimal.digitLimit
  | .float _ => False
  | .array vs => PlainItems vs
  | .object ms => PlainMembers ms ∧ (ms.map Prod.fst).Nodup
  | _ => True

/-- Whether texts stand for the items of a list. -/
def PlainItems : List Value → Prop
  | [] => True
  | v :: vs => v.Plain ∧ PlainItems vs

/-- Whether texts stand for the values of members. -/
def PlainMembers : List (String × Value) → Prop
  | [] => True
  | (_, v) :: ms => v.Plain ∧ PlainMembers ms

end

theorem plainItems_iff {vs : List Value} : PlainItems vs ↔ ∀ v ∈ vs, v.Plain := by
  induction vs with
  | nil => simp [PlainItems]
  | cons v vs ih => simp [PlainItems, ih]

theorem plainMembers_iff {ms : Members} : PlainMembers ms ↔ ∀ m ∈ ms, m.2.Plain := by
  induction ms with
  | nil => simp [PlainMembers]
  | cons m ms ih => simp [PlainMembers, ih]

namespace Members

theorem mem_insert {k : String} {v : Value} {ms : Members} {m : String × Value}
    (h : m ∈ insert k v ms) : m = (k, v) ∨ m ∈ ms := by
  induction ms with
  | nil => exact .inl (List.mem_singleton.mp h)
  | cons n ms ih =>
    obtain ⟨k', v'⟩ := n
    rw [insert] at h
    split at h
    · rename_i hk
      subst hk
      rcases List.mem_cons.mp h with h | h
      · exact .inl h
      · exact .inr (List.mem_cons_of_mem _ h)
    · rcases List.mem_cons.mp h with h | h
      · exact .inr (h ▸ List.mem_cons_self)
      · exact (ih h).imp_right (List.mem_cons_of_mem _)

/-- A name that stands in no member is put in at the end. -/
theorem insert_of_notMem {k : String} {ms : Members} (h : k ∉ ms.map Prod.fst) (v : Value) :
    insert k v ms = ms ++ [(k, v)] := by
  induction ms with
  | nil => rfl
  | cons m ms ih =>
    obtain ⟨k', v'⟩ := m
    rw [List.map_cons, List.mem_cons, not_or] at h
    rw [insert, if_neg (Ne.symm h.1), ih h.2]
    rfl

theorem nodup_insert {ms : Members} (h : (ms.map Prod.fst).Nodup) (k : String) (v : Value) :
    ((insert k v ms).map Prod.fst).Nodup := by
  by_cases hk : k ∈ ms.map Prod.fst
  · have hsame : (insert k v ms).map Prod.fst = ms.map Prod.fst := by
      clear h
      induction ms with
      | nil => cases hk
      | cons m ms ih =>
        obtain ⟨k', v'⟩ := m
        rw [insert]
        split
        · rfl
        · rename_i hne
          rw [List.map_cons, List.map_cons,
            ih ((List.mem_cons.mp hk).resolve_left fun he => hne he.symm)]
    rw [hsame]
    exact h
  · rw [insert_of_notMem hk, List.map_append, List.map_singleton, ← List.concat_eq_append]
    exact List.Nodup.concat hk h

/-- Members whose names stand once are collected as they are. -/
theorem collect_of_nodup {ms : Members} {before : Members}
    (h : ((before ++ ms).map Prod.fst).Nodup) : collect before ms = before ++ ms := by
  induction ms generalizing before with
  | nil => exact (List.append_nil before).symm
  | cons m ms ih =>
    have hnew : m.1 ∉ before.map Prod.fst := by
      rw [List.map_append, List.nodup_append] at h
      exact fun hmem => h.2.2 _ hmem _ List.mem_cons_self rfl
    have hsplit : before ++ m :: ms = (before ++ [m]) ++ ms := by
      rw [List.append_assoc, List.singleton_append]
    show collect (insert m.1 m.2 before) ms = _
    rw [insert_of_notMem hnew, hsplit]
    exact ih (hsplit ▸ h)

/-- What is collected are members written, each name once. -/
theorem plain_collect {ms before : Members} (h : PlainMembers ms) (hb : PlainMembers before)
    (hnodup : (before.map Prod.fst).Nodup) :
    PlainMembers (collect before ms) ∧ ((collect before ms).map Prod.fst).Nodup := by
  induction ms generalizing before with
  | nil => exact ⟨hb, hnodup⟩
  | cons m ms ih =>
    refine ih h.2 (plainMembers_iff.mpr fun m' hm' => ?_) (nodup_insert hnodup _ _)
    rcases mem_insert hm' with rfl | hm'
    · exact h.1
    · exact plainMembers_iff.mp hb m' hm'

end Members

/-- What texts stand for in a phrase. -/
def Phrase.Plain : Phrase → Prop
  | .value v => v.Plain
  | .items vs => PlainItems vs
  | .members ms => PlainMembers ms

/-- **Texts stand for plain values alone.** -/
theorem plain_of_written {d : Nat} {p : Phrase} {cs : List Char} (h : Written d p cs) : p.Plain := by
  induction h with
  | natural h =>
    show (_ : Int).natAbs < _
    rw [Int.natAbs_natCast]
    exact h
  | negative h =>
    show (-_ : Int).natAbs < _
    rw [Int.natAbs_neg, Int.natAbs_natCast]
    exact h
  | emptyObject hb => exact ⟨trivial, List.nodup_nil⟩
  | array hb h ih => exact ih
  | object hb h ih => exact Members.plain_collect ih trivial List.nodup_nil
  | lastItem h hb ih => exact ⟨ih, trivial⟩
  | item h hb hb' hrest ih ihrest => exact ⟨ih, ihrest⟩
  | lastMember hk hb hb' h hb'' ih => exact ⟨ih, trivial⟩
  | member hk hb hb' h hb'' hb₃ hrest ih ihrest => exact ⟨ih, ihrest⟩
  | _ => trivial

theorem IsText.plain {d : Nat} {v : Value} {cs : List Char} (h : IsText d v cs) : v.Plain := by
  obtain ⟨_, _, _, _, _, hwritten, _⟩ := h
  exact plain_of_written hwritten

/-! ## 2. Printed strings and numbers -/

theorem hexDigit_hexDigit {n : Nat} (h : n < 16) : HexDigit n (hexDigit n) := by
  have hall : ∀ n < 16, "0123456789abcdef".toList[n]? = some (hexDigit n) := by decide
  exact .inl (hall n h)

/-- A unit is printed as its four digits. -/
theorem hexUnit_hex {n : Nat} (h : n < 0x10000) : HexUnit n (hex 4 n) := by
  have hdigits : hex 4 n = [hexDigit (n / 16 / 16 / 16 % 16), hexDigit (n / 16 / 16 % 16),
      hexDigit (n / 16 % 16), hexDigit (n % 16)] := rfl
  have hvalue : n = ((n / 16 / 16 / 16 % 16 * 16 + n / 16 / 16 % 16) * 16 + n / 16 % 16) * 16 +
      n % 16 := by omega
  have hlt : ∀ m, m % 16 < 16 := fun m => Nat.mod_lt m (by decide)
  rw [hdigits]
  conv_lhs => rw [hvalue]
  exact .digits (hexDigit_hexDigit (hlt _)) (hexDigit_hexDigit (hlt _)) (hexDigit_hexDigit (hlt _))
    (hexDigit_hexDigit (hlt _))

/-- A character is printed in one of its spellings. -/
theorem spells_escapeChar (c : Char) : Spells c (escapeChar c) := by
  have hvalid : c.toNat < 0xD800 ∨ 0xDFFF < c.toNat ∧ c.toNat < 0x110000 := c.valid
  have hshort : ∀ d e, (c == d) = true → (e, d) ∈ shortEscapes → Spells c ['\\', e] := by
    intro d e hd hmem
    rw [beq_iff_eq.mp hd]
    exact .short hmem
  unfold escapeChar
  split
  · rename_i h
    exact hshort _ _ h (by decide)
  split
  · rename_i h
    exact hshort _ _ h (by decide)
  split
  · rename_i h
    exact hshort _ _ h (by decide)
  split
  · rename_i h
    exact hshort _ _ h (by decide)
  split
  · rename_i h
    exact hshort _ _ h (by decide)
  split
  · rename_i h
    exact hshort _ _ h (by decide)
  split
  · rename_i h
    exact hshort _ _ h (by decide)
  rename_i hquote hslash _ _ _ _ _
  split
  · rename_i h
    simp only [Bool.and_eq_true, decide_eq_true_eq] at h
    exact .plain h.1 (fun he => hquote (beq_iff_eq.mpr he)) fun he => hslash (beq_iff_eq.mpr he)
  split
  · rename_i h
    exact .unit (hexUnit_hex h)
  · exact .pair (by omega) (hexUnit_hex (by omega)) (hexUnit_hex (by omega))

theorem spelled_escape (cs : List Char) : Spelled cs (cs.flatMap escapeChar) := by
  induction cs with
  | nil => exact .nil
  | cons c cs ih => exact .cons (spells_escapeChar c) ih

theorem written_printInt {d : Nat} {n : Int} (h : n.natAbs < 10 ^ Decimal.digitLimit) :
    Written d (.value (.int n)) (toString n).toList := by
  rw [Int.toString_eq_repr]
  cases n with
  | ofNat n =>
    rw [show (Int.ofNat n).repr = n.repr from rfl, Nat.toList_repr]
    exact .natural h
  | negSucc n =>
    rw [show (Int.negSucc n).repr = "-" ++ (n + 1).repr from rfl, String.toList_append,
      Nat.toList_repr]
    exact .negative h

/-! ## 3. Printed values -/

theorem blanks_newLine (level : Nat) : Blanks (newLine level) := by
  intro c hc
  rcases List.mem_cons.mp hc with rfl | hc
  · exact .inr (.inr (.inl rfl))
  · exact .inl (List.eq_of_mem_replicate hc)

theorem blanks_space : Blanks [' '] :=
  fun _ hc => .inl (List.mem_singleton.mp hc)

theorem colon_eq : ": ".toList = [':', ' '] := rfl

mutual

/-- How many arrays and objects a value has within one another. -/
def Value.nesting : Value → Nat
  | .array vs => nestingItems vs + 1
  | .object ms => nestingMembers ms + 1
  | _ => 0

/-- The most that an item of a list has. -/
def nestingItems : List Value → Nat
  | [] => 0
  | v :: vs => max v.nesting (nestingItems vs)

/-- The most that the value of a member has. -/
def nestingMembers : List (String × Value) → Nat
  | [] => 0
  | (_, v) :: ms => max v.nesting (nestingMembers ms)

end

mutual

/-- **A printed value is written as the grammar has it**, and nested as the value is. -/
theorem written_print (level : Nat) : ∀ (v : Value) {d : Nat}, v.Plain → v.nesting ≤ d →
    Written d (.value v) (print level v)
  | .null, _, _, _ => .null
  | .bool true, _, _, _ => .true
  | .bool false, _, _, _ => .false
  | .int _, _, h, _ => written_printInt h
  | .float _, _, h, _ => by cases h
  | .string s, _, _, _ => .string (spelled_escape s.toList)
  | .array [], 0, _, hd => by cases hd
  | .array [], _ + 1, _, _ => .emptyArray blanks_nil
  | .array (v :: vs), 0, _, hd => by cases hd
  | .array (v :: vs), d + 1, h, hd => by
    obtain ⟨hv, hvs⟩ := Nat.max_le.mp (Nat.le_of_succ_le_succ hd)
    have hitems := written_printItems (level + 1) vs h.2 hvs
      (written_print (level + 1) v h.1 hv) (blanks_newLine level)
    have hall := Written.array (blanks_newLine (level + 1)) hitems
    simpa only [print, List.append_assoc, List.cons_append] using hall
  | .object [], 0, _, hd => by cases hd
  | .object [], _ + 1, _, _ => .emptyObject blanks_nil
  | .object ((k, v) :: ms), 0, _, hd => by cases hd
  | .object ((k, v) :: ms), d + 1, h, hd => by
    obtain ⟨hv, hms⟩ := Nat.max_le.mp (Nat.le_of_succ_le_succ hd)
    have hmembers := written_printMembers (level + 1) ms h.1.2 hms k
      (written_print (level + 1) v h.1.1 hv) (blanks_newLine level)
    have hall := Written.object (blanks_newLine (level + 1)) hmembers
    have hcollect : Members.collect [] ((k, v) :: ms) = (k, v) :: ms :=
      Members.collect_of_nodup h.2
    rw [hcollect] at hall
    simpa only [print, List.append_assoc, List.cons_append] using hall

/-- The items after the first one. -/
theorem written_printItems (level : Nat) : ∀ (vs : List Value) {d : Nat}, PlainItems vs →
    nestingItems vs ≤ d → ∀ {v : Value} {cs b : List Char}, Written d (.value v) cs → Blanks b →
      Written d (.items (v :: vs)) (cs ++ printItems level vs ++ b)
  | [], _, _, _, v, cs, b, hv, hb => by
    rw [printItems, List.append_nil]
    exact .lastItem hv hb
  | w :: vs, d, h, hd, v, cs, b, hv, hb => by
    obtain ⟨hw, hvs⟩ := Nat.max_le.mp hd
    have hrest := written_printItems level vs h.2 hvs (written_print level w h.1 hw) hb
    have hall := Written.item hv blanks_nil (blanks_newLine level) hrest
    simpa only [printItems, List.append_assoc, List.cons_append, List.nil_append] using hall

/-- The members after the first one. -/
theorem written_printMembers (level : Nat) : ∀ (ms : List (String × Value)) {d : Nat},
    PlainMembers ms → nestingMembers ms ≤ d → ∀ (k : String) {v : Value} {cs b : List Char},
      Written d (.value v) cs → Blanks b → Written d (.members ((k, v) :: ms))
        (printString k ++ ": ".toList ++ cs ++ printMembers level ms ++ b)
  | [], _, _, _, k, v, cs, b, hv, hb => by
    have hall := Written.lastMember (spelled_escape k.toList) blanks_nil blanks_space hv hb
    simpa only [colon_eq, printMembers, printString, List.append_assoc, List.cons_append,
      List.nil_append] using hall
  | (k', w) :: ms, d, h, hd, k, v, cs, b, hv, hb => by
    obtain ⟨hw, hms⟩ := Nat.max_le.mp hd
    have hrest := written_printMembers level ms h.2 hms k' (written_print level w h.1 hw) hb
    have hall := Written.member (spelled_escape k.toList) blanks_nil blanks_space hv blanks_nil
      (blanks_newLine level) hrest
    simpa only [colon_eq, printMembers, printString, List.append_assoc, List.cons_append,
      List.nil_append] using hall

end

/-- A printed value is a text that is nested as the value is. -/
theorem isText_toText {v : Value} (h : v.Plain) : IsText v.nesting v v.toText.toList := by
  refine ⟨[], print 0 v, [], blanks_nil, blanks_nil, written_print 0 v h (Nat.le_refl _), ?_⟩
  rw [Value.toText, String.toList_ofList, List.nil_append, List.append_nil]

/-- **A printed value is read back.** -/
theorem parse?_toText {v : Value} (h : v.Plain) : parse? v.toText.toList = some v :=
  parse?_of_isText (isText_toText h)

end CodeSession.Json
