/-!
# Parts between separators

A text cut at every separator. No part holds one (`notMem_of_mem_parts`), and the parts with
separators between them are the text again (`join_parts`); parts that hold no separator are found
again (`parts_join`).
-/

namespace CodeSession.Text

/-- The parts between separators; `part` is the part under way, reversed. -/
def partsFrom (separator : Char) (part : List Char) : List Char → List (List Char)
  | [] => [part.reverse]
  | c :: cs =>
    if c = separator then part.reverse :: partsFrom separator [] cs
    else partsFrom separator (c :: part) cs

/-- The parts between separators. -/
def parts (separator : Char) (cs : List Char) : List (List Char) :=
  partsFrom separator [] cs

/-- Parts with a separator between neighbours. -/
def join (separator : Char) : List (List Char) → List Char
  | [] => []
  | [p] => p
  | p :: q :: rest => p ++ separator :: join separator (q :: rest)

theorem join_cons_of_ne_nil (separator : Char) (p : List Char) {rest : List (List Char)}
    (h : rest ≠ []) : join separator (p :: rest) = p ++ separator :: join separator rest := by
  cases rest with
  | nil => exact absurd rfl h
  | cons q qs => rfl

theorem partsFrom_ne_nil (separator : Char) (part cs : List Char) :
    partsFrom separator part cs ≠ [] := by
  induction cs generalizing part with
  | nil => simp [partsFrom]
  | cons c cs ih =>
    by_cases h : c = separator
    · simp [partsFrom, h]
    · simpa [partsFrom, h] using ih (c :: part)

theorem join_partsFrom (separator : Char) (part cs : List Char) :
    join separator (partsFrom separator part cs) = part.reverse ++ cs := by
  induction cs generalizing part with
  | nil => simp [partsFrom, join]
  | cons c cs ih =>
    by_cases h : c = separator
    · subst h
      simp [partsFrom, join_cons_of_ne_nil _ _ (partsFrom_ne_nil c [] cs), ih]
    · simp [partsFrom, h, ih]

theorem notMem_of_mem_partsFrom (separator : Char) (part cs : List Char)
    (hpart : separator ∉ part) : ∀ p ∈ partsFrom separator part cs, separator ∉ p := by
  induction cs generalizing part with
  | nil =>
    intro p hp
    simp only [partsFrom, List.mem_singleton] at hp
    subst hp
    simpa using hpart
  | cons c cs ih =>
    intro p hp
    by_cases h : c = separator
    · simp only [partsFrom, h, if_true, List.mem_cons] at hp
      rcases hp with rfl | hp
      · simpa using hpart
      · exact ih [] (by simp) p hp
    · simp only [partsFrom, h, if_false] at hp
      exact ih (c :: part) (by simp [hpart, Ne.symm h]) p hp

/-- No part holds a separator. -/
theorem notMem_of_mem_parts {separator : Char} {cs p : List Char}
    (h : p ∈ parts separator cs) : separator ∉ p :=
  notMem_of_mem_partsFrom separator [] cs (by simp) p h

/-- **Cutting loses nothing.** -/
theorem join_parts (separator : Char) (cs : List Char) :
    join separator (parts separator cs) = cs := by
  simp [parts, join_partsFrom]

theorem partsFrom_append (separator : Char) (part cs ds : List Char) :
    partsFrom separator part (cs ++ separator :: ds) =
      partsFrom separator part cs ++ parts separator ds := by
  induction cs generalizing part with
  | nil => simp [partsFrom, parts]
  | cons c cs ih =>
    by_cases h : c = separator
    · simp [partsFrom, h, ih]
    · simp [partsFrom, h, ih]

/-- Texts with a separator between them are cut there. -/
theorem parts_append (separator : Char) (cs ds : List Char) :
    parts separator (cs ++ separator :: ds) = parts separator cs ++ parts separator ds :=
  partsFrom_append separator [] cs ds

theorem partsFrom_of_notMem {separator : Char} {part cs : List Char} (h : separator ∉ cs) :
    partsFrom separator part cs = [part.reverse ++ cs] := by
  induction cs generalizing part with
  | nil => simp [partsFrom]
  | cons c cs ih =>
    rw [List.mem_cons, not_or] at h
    simp [partsFrom, Ne.symm h.1, ih h.2]

/-- **Parts without separators are found again.** -/
theorem parts_join {separator : Char} {ps : List (List Char)} (hne : ps ≠ [])
    (h : ∀ p ∈ ps, separator ∉ p) : parts separator (join separator ps) = ps := by
  induction ps with
  | nil => exact absurd rfl hne
  | cons p ps ih =>
    have hp : parts separator p = [p] := by
      rw [parts, partsFrom_of_notMem (h p List.mem_cons_self)]
      rfl
    cases ps with
    | nil => exact hp
    | cons q ps =>
      rw [join_cons_of_ne_nil separator p (List.cons_ne_nil _ _), parts_append, hp,
        ih (List.cons_ne_nil _ _) fun x hx => h x (List.mem_cons_of_mem _ hx)]
      rfl

end CodeSession.Text
