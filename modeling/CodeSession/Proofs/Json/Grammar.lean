import CodeSession.Decimal.Reading
import CodeSession.Json.Value
import Mathlib.Data.Nat.Digits.Defs

/-!
# The grammar of JSON texts

Which texts stand for which values, told by the grammar alone. Numbers are integers here, of no more
digits than a reader takes.

* `Spells`, `Spelled` -- the spellings of a character and of a text between the quotes: as it is, by
  a short escape, or by the units of UTF-16 in hexadecimal;
* `Written` -- what stands for a value, for the items of an array and for the members of an object,
  with blanks wherever they may stand, and how often it is nested at most (`Written.shallow`);
* `Members.collect` -- the members of an object from those written: of members with one name the
  last value counts, at the first one's place;
* `IsText` -- a whole text, with blanks around the value.
-/

namespace CodeSession.Json

/-! ## 1. Blanks -/

/-- Blanks between the parts of a text. -/
def Blanks (cs : List Char) : Prop :=
  ∀ c ∈ cs, c = ' ' ∨ c = '\t' ∨ c = '\n' ∨ c = '\r'

theorem blanks_nil : Blanks [] := by
  intro c h
  cases h

/-! ## 2. Strings -/

/-- A hexadecimal digit, in lower or upper case. -/
def HexDigit (n : Nat) (c : Char) : Prop :=
  "0123456789abcdef".toList[n]? = some c ∨ "0123456789ABCDEF".toList[n]? = some c

/-- A unit of sixteen bits as four hexadecimal digits. -/
inductive HexUnit : Nat → List Char → Prop where
  | digits {i j k l : Nat} {a b c d : Char} (ha : HexDigit i a) (hb : HexDigit j b)
    (hc : HexDigit k c) (hd : HexDigit l d) :
    HexUnit (((i * 16 + j) * 16 + k) * 16 + l) [a, b, c, d]

/-- The letters of the short escapes, and what they stand for. -/
def shortEscapes : List (Char × Char) :=
  [('"', '"'), ('\\', '\\'), ('/', '/'), ('b', '\x08'), ('f', '\x0c'), ('n', '\n'), ('r', '\r'),
   ('t', '\t')]

/-- The spellings of a character between quotes. -/
inductive Spells (c : Char) : List Char → Prop where
  | plain (h : 0x20 ≤ c.toNat) (hquote : c ≠ '"') (hslash : c ≠ '\\') : Spells c [c]
  | short {e : Char} (h : (e, c) ∈ shortEscapes) : Spells c ['\\', e]
  | unit {us : List Char} (h : HexUnit c.toNat us) : Spells c ('\\' :: 'u' :: us)
  | pair {hs ls : List Char} (h : 0x10000 ≤ c.toNat)
    (hhigh : HexUnit (0xD800 + (c.toNat - 0x10000) / 0x400) hs)
    (hlow : HexUnit (0xDC00 + (c.toNat - 0x10000) % 0x400) ls) :
    Spells c ('\\' :: 'u' :: hs ++ '\\' :: 'u' :: ls)

/-- The spellings of a text between quotes. -/
inductive Spelled : List Char → List Char → Prop where
  | nil : Spelled [] []
  | cons {c : Char} {s us cs : List Char} (h : Spells c us) (hrest : Spelled s cs) :
    Spelled (c :: s) (us ++ cs)

/-! ## 3. Values -/

/-- The members with more put in, in order. -/
def Members.collect (before ms : Members) : Members :=
  ms.foldl (fun all m => Members.insert m.1 m.2 all) before

/-- What is written: a value, the items of an array, or the members of an object. -/
inductive Phrase where
  | value (v : Value)
  | items (vs : List Value)
  | members (ms : Members)

/-- What stands for a value, and for items and members up to the closing bracket, with at most so many
    arrays and objects within one another. -/
inductive Written : Nat → Phrase → List Char → Prop where
  | null {d : Nat} : Written d (.value .null) "null".toList
  | true {d : Nat} : Written d (.value (.bool true)) "true".toList
  | false {d : Nat} : Written d (.value (.bool false)) "false".toList
  | natural {d n : Nat} (h : n < 10 ^ Decimal.digitLimit) :
    Written d (.value (.int n)) (Nat.toDigits 10 n)
  | negative {d n : Nat} (h : n < 10 ^ Decimal.digitLimit) :
    Written d (.value (.int (-n))) ('-' :: Nat.toDigits 10 n)
  | string {d : Nat} {s : String} {cs : List Char} (h : Spelled s.toList cs) :
    Written d (.value (.string s)) ('"' :: cs ++ ['"'])
  | emptyArray {d : Nat} {b : List Char} (hb : Blanks b) :
    Written (d + 1) (.value (.array [])) ('[' :: b ++ [']'])
  | array {d : Nat} {vs : List Value} {b cs : List Char} (hb : Blanks b)
    (h : Written d (.items vs) cs) : Written (d + 1) (.value (.array vs)) ('[' :: b ++ cs ++ [']'])
  | emptyObject {d : Nat} {b : List Char} (hb : Blanks b) :
    Written (d + 1) (.value (.object [])) ('\x7b' :: b ++ ['\x7d'])
  | object {d : Nat} {ms : Members} {b cs : List Char} (hb : Blanks b)
    (h : Written d (.members ms) cs) :
    Written (d + 1) (.value (.object (Members.collect [] ms))) ('\x7b' :: b ++ cs ++ ['\x7d'])
  | lastItem {d : Nat} {v : Value} {cs b : List Char} (h : Written d (.value v) cs)
    (hb : Blanks b) : Written d (.items [v]) (cs ++ b)
  | item {d : Nat} {v : Value} {vs : List Value} {cs b b' rest : List Char}
    (h : Written d (.value v) cs) (hb : Blanks b) (hb' : Blanks b')
    (hrest : Written d (.items vs) rest) :
    Written d (.items (v :: vs)) (cs ++ b ++ ',' :: b' ++ rest)
  | lastMember {d : Nat} {k : String} {v : Value} {ks b b' cs b'' : List Char}
    (hk : Spelled k.toList ks) (hb : Blanks b) (hb' : Blanks b') (h : Written d (.value v) cs)
    (hb'' : Blanks b'') :
    Written d (.members [(k, v)]) ('"' :: ks ++ '"' :: b ++ ':' :: b' ++ cs ++ b'')
  | member {d : Nat} {k : String} {v : Value} {ms : Members} {ks b b' cs b'' b₃ rest : List Char}
    (hk : Spelled k.toList ks) (hb : Blanks b) (hb' : Blanks b') (h : Written d (.value v) cs)
    (hb'' : Blanks b'') (hb₃ : Blanks b₃) (hrest : Written d (.members ms) rest) :
    Written d (.members ((k, v) :: ms))
      ('"' :: ks ++ '"' :: b ++ ':' :: b' ++ cs ++ b'' ++ ',' :: b₃ ++ rest)

/-- A whole text that stands for a value, with at most so many arrays and objects within one
    another. -/
def IsText (depth : Nat) (v : Value) (cs : List Char) : Prop :=
  ∃ before text after, Blanks before ∧ Blanks after ∧ Written depth (.value v) text ∧
    cs = before ++ text ++ after

/-! ## 4. Depths -/

/-- What is written within one another so many times at most is so for any greater number. -/
theorem Written.mono {d : Nat} {p : Phrase} {cs : List Char} (h : Written d p cs) {e : Nat}
    (hle : d ≤ e) : Written e p cs := by
  induction h generalizing e with
  | null => exact .null
  | true => exact .true
  | false => exact .false
  | natural h => exact .natural h
  | negative h => exact .negative h
  | string h => exact .string h
  | emptyArray hb =>
    obtain ⟨e, rfl⟩ := Nat.exists_eq_add_of_lt hle
    exact .emptyArray hb
  | array hb h ih =>
    obtain ⟨e, rfl⟩ := Nat.exists_eq_add_of_lt hle
    exact .array hb (ih (Nat.le_add_right _ _))
  | emptyObject hb =>
    obtain ⟨e, rfl⟩ := Nat.exists_eq_add_of_lt hle
    exact .emptyObject hb
  | object hb h ih =>
    obtain ⟨e, rfl⟩ := Nat.exists_eq_add_of_lt hle
    exact .object hb (ih (Nat.le_add_right _ _))
  | lastItem h hb ih => exact .lastItem (ih hle) hb
  | item h hb hb' hrest ih ihrest => exact .item (ih hle) hb hb' (ihrest hle)
  | lastMember hk hb hb' h hb'' ih => exact .lastMember hk hb hb' (ih hle) hb''
  | member hk hb hb' h hb'' hb₃ hrest ih ihrest =>
    exact .member hk hb hb' (ih hle) hb'' hb₃ (ihrest hle)

/-- **Nothing is written within one another more often than it is long.** -/
theorem Written.shallow {d : Nat} {p : Phrase} {cs : List Char} (h : Written d p cs) :
    Written cs.length p cs := by
  induction h with
  | null => exact .null
  | true => exact .true
  | false => exact .false
  | natural h => exact .natural h
  | negative h => exact .negative h
  | string h => exact .string h
  | emptyArray hb => exact .emptyArray hb
  | array hb h ih =>
    refine Written.mono (.array hb ih) ?_
    simp only [List.length_append, List.length_cons, List.length_nil]
    omega
  | emptyObject hb => exact .emptyObject hb
  | object hb h ih =>
    refine Written.mono (.object hb ih) ?_
    simp only [List.length_append, List.length_cons, List.length_nil]
    omega
  | lastItem h hb ih => exact .lastItem (ih.mono (by simp)) hb
  | item h hb hb' hrest ih ihrest =>
    refine .item (ih.mono ?_) hb hb' (ihrest.mono ?_) <;>
    · simp only [List.length_append, List.length_cons]
      omega
  | lastMember hk hb hb' h hb'' ih =>
    refine .lastMember hk hb hb' (ih.mono ?_) hb''
    simp only [List.length_append, List.length_cons]
    omega
  | member hk hb hb' h hb'' hb₃ hrest ih ihrest =>
    refine .member hk hb hb' (ih.mono ?_) hb'' hb₃ (ihrest.mono ?_) <;>
    · simp only [List.length_append, List.length_cons]
      omega

theorem IsText.mono {d : Nat} {v : Value} {cs : List Char} (h : IsText d v cs) {e : Nat}
    (hle : d ≤ e) : IsText e v cs := by
  obtain ⟨before, text, after, hbefore, hafter, hwritten, hcs⟩ := h
  exact ⟨before, text, after, hbefore, hafter, hwritten.mono hle, hcs⟩

theorem IsText.shallow {d : Nat} {v : Value} {cs : List Char} (h : IsText d v cs) :
    IsText cs.length v cs := by
  obtain ⟨before, text, after, hbefore, hafter, hwritten, rfl⟩ := h
  refine ⟨before, text, after, hbefore, hafter, hwritten.shallow.mono ?_, rfl⟩
  simp only [List.length_append]
  omega

end CodeSession.Json
