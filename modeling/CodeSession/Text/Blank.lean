/-!
# Blank characters and stripping

The characters that count as white space at the ends of a text, and the text without them:

* `isBlank` -- the blank characters;
* `trim p` -- a list without the characters of class `p` at its two ends; what is left starts outside
  the class (`trim_head`).
-/

namespace CodeSession.Text

/-! ## 1. The class -/

/-- A blank character: the controls U+0009-000D and U+001C-001F, the space, and the separators
    of Unicode. -/
def isBlank (c : Char) : Bool :=
  let n := c.toNat
  (0x09 ≤ n && n ≤ 0x0D) || (0x1C ≤ n && n ≤ 0x20) || n == 0x85 || n == 0xA0 || n == 0x1680
    || (0x2000 ≤ n && n ≤ 0x200A) || n == 0x2028 || n == 0x2029 || n == 0x202F || n == 0x205F
    || n == 0x3000

/-! ## 2. Trimming -/

/-- The list without the members of the class at its two ends. -/
def trim {α : Type} (p : α → Bool) (xs : List α) : List α :=
  ((xs.dropWhile p).reverse.dropWhile p).reverse

/-- What `dropWhile` leaves starts outside the class. -/
theorem head_dropWhile {α : Type} (p : α → Bool) :
    ∀ (xs : List α) (x : α), (xs.dropWhile p).head? = some x → p x = false
  | [], _, h => by simp at h
  | y :: ys, x, h => by
    by_cases hy : p y = true
    · simp only [List.dropWhile_cons, hy, if_true] at h
      exact head_dropWhile p ys x h
    · simp only [List.dropWhile_cons, hy] at h
      simp at h
      subst h
      simpa using hy

/-- A list that starts outside the class loses nothing to `dropWhile`. -/
theorem dropWhile_eq_self {α : Type} (p : α → Bool) (xs : List α)
    (h : ∀ x, xs.head? = some x → p x = false) : xs.dropWhile p = xs := by
  cases xs with
  | nil => rfl
  | cons x xs => simp [h x rfl]

/-- A trimmed list starts outside the class. -/
theorem trim_head {α : Type} (p : α → Bool) (xs : List α) (x : α)
    (h : (trim p xs).head? = some x) : p x = false := by
  apply head_dropWhile p xs x
  have hs : (xs.dropWhile p).reverse.dropWhile p <:+ (xs.dropWhile p).reverse :=
    List.dropWhile_suffix p
  have hp : trim p xs <+: xs.dropWhile p := by
    have := List.reverse_prefix.2 hs
    simpa [trim] using this
  obtain ⟨t, ht⟩ := hp
  cases hx : trim p xs with
  | nil => rw [hx] at h; cases h
  | cons y ys =>
    rw [hx] at h ht
    cases h
    rw [← ht]
    rfl

/-- A list that starts and ends outside the class loses nothing. -/
theorem trim_eq_self {α : Type} {p : α → Bool} {xs : List α}
    (hhead : ∀ x, xs.head? = some x → p x = false)
    (hlast : ∀ x, xs.getLast? = some x → p x = false) : trim p xs = xs := by
  have hend : xs.reverse.dropWhile p = xs.reverse := by
    apply dropWhile_eq_self
    intro x hx
    rw [List.head?_reverse] at hx
    exact hlast x hx
  rw [trim, dropWhile_eq_self p xs hhead, hend, List.reverse_reverse]

/-- The text without the blank characters at its two ends. -/
def strip (s : String) : String :=
  String.ofList (trim isBlank s.toList)

end CodeSession.Text
