import Mathlib.Data.List.Basic
import Mathlib.Data.List.Infix

/-!
# Cutting at a separator

A list cut where a separator of several items first occurs, and at all its occurrences.

* `cut` -- what stands before the first occurrence and what follows it;
* `split` -- what stands between the occurrences;
* `cut_append`, `split_append` -- a separator whose first item does not occur again in it is found
  where it was put, after a list that does not hold it: no occurrence can begin in the list and end
  in the separator;
* `eq_of_cut`, `not_infix_of_mem_split` -- what is found is there, and no separator is left.
-/

namespace CodeSession.Text

variable {α : Type} {sep a r xs t : List α} {c : α}

/-! ## 1. Occurrences -/

/-- Items other than its first one hide no separator. -/
theorem infix_append_iff_of_notMem (h : c ∉ a) : c :: t <:+: a ++ xs ↔ c :: t <:+: xs := by
  induction a with
  | nil => rfl
  | cons x a ih =>
    rw [List.mem_cons, not_or] at h
    rw [List.cons_append, List.infix_cons_iff, List.cons_prefix_cons, ih h.2]
    exact ⟨fun hor => hor.resolve_left fun hx => h.1 hx.1, Or.inr⟩

/-- A separator begins at its first item or later. -/
theorem infix_cons_self_iff : c :: t <:+: c :: xs ↔ t <+: xs ∨ c :: t <:+: xs := by
  rw [List.infix_cons_iff, List.cons_prefix_cons, and_iff_right rfl]

/-! ## 2. Cuts -/

variable [DecidableEq α]

/-- What stands before the first occurrence of a separator, and what follows it. -/
def cut (sep : List α) : List α → Option (List α × List α)
  | [] => none
  | x :: xs =>
    if sep <+: x :: xs then some ([], xs.drop (sep.length - 1))
    else (cut sep xs).map fun p => (x :: p.1, p.2)

theorem length_of_cut (h : cut sep xs = some (a, r)) : r.length < xs.length := by
  induction xs generalizing a with
  | nil => cases h
  | cons x xs ih =>
    rw [cut] at h
    split at h
    · cases h
      rw [List.length_drop, List.length_cons]
      omega
    · obtain ⟨p, hp, hpair⟩ := Option.map_eq_some_iff.mp h
      cases hpair
      exact (ih hp).trans (Nat.lt_succ_self _)

/-- What stands between the occurrences of a separator. -/
def split (sep : List α) (xs : List α) : List (List α) :=
  match _h : cut sep xs with
  | none => [xs]
  | some (a, r) => a :: split sep r
termination_by xs.length
decreasing_by exact length_of_cut _h

theorem split_eq (sep xs : List α) :
    split sep xs =
      match cut sep xs with
      | none => [xs]
      | some (a, r) => a :: split sep r := by
  rw [split]
  split <;> rename_i h <;> rw [h]

/-! ## 3. What is found -/

/-- What is found is there. -/
theorem eq_of_cut (h : cut (c :: t) xs = some (a, r)) : xs = a ++ c :: (t ++ r) := by
  induction xs generalizing a with
  | nil => cases h
  | cons x xs ih =>
    rw [cut] at h
    split at h
    · rename_i hfound
      obtain ⟨s, hs⟩ := hfound
      cases hs
      cases h
      simp
    · obtain ⟨p, hp, hpair⟩ := Option.map_eq_some_iff.mp h
      cases hpair
      rw [List.cons_append, ← ih hp]

/-- It is the first occurrence that is found. -/
theorem not_infix_of_cut (h : cut (c :: t) xs = some (a, r)) : ¬c :: t <:+: a := by
  induction xs generalizing a with
  | nil => cases h
  | cons x xs ih =>
    have heq := eq_of_cut h
    rw [cut] at h
    split at h
    · cases h
      rw [List.infix_nil]
      exact List.cons_ne_nil _ _
    · rename_i hstart
      obtain ⟨p, hp, hpair⟩ := Option.map_eq_some_iff.mp h
      cases hpair
      rw [List.infix_cons_iff, not_or]
      refine ⟨fun hfirst => hstart ?_, ih hp⟩
      rw [heq]
      exact hfirst.trans (List.prefix_append _ _)

/-- A separator that does not occur is not found, and no other. -/
theorem cut_eq_none_iff : cut (c :: t) xs = none ↔ ¬c :: t <:+: xs := by
  induction xs with
  | nil => simp [cut]
  | cons x xs ih =>
    rw [List.infix_cons_iff, not_or, cut]
    split
    · rename_i hfound
      simp [hfound]
    · rename_i hstart
      rw [Option.map_eq_none_iff, ih, and_iff_right hstart]

/-- **The separator is found where it was put.** -/
theorem cut_append (hc : c ∉ t) (ha : ¬c :: t <:+: a) (r : List α) :
    cut (c :: t) (a ++ c :: (t ++ r)) = some (a, r) := by
  induction a with
  | nil =>
    have hfound : c :: t <+: c :: (t ++ r) := ⟨r, rfl⟩
    rw [List.nil_append, cut, if_pos hfound, List.length_cons, Nat.add_sub_cancel, List.drop_left]
  | cons x a ih =>
    rw [List.infix_cons_iff, not_or] at ha
    have hstart : ¬c :: t <+: x :: (a ++ c :: (t ++ r)) := by
      intro h
      obtain ⟨rfl, htail⟩ := List.cons_prefix_cons.mp h
      have hshort : ¬t <+: a := fun ht => ha.1 (List.cons_prefix_cons.mpr ⟨rfl, ht⟩)
      rcases List.prefix_or_prefix_of_prefix htail (List.prefix_append a _) with ht | ⟨s, hs⟩
      · exact hshort ht
      · -- the rest of the separator would begin with its first item again
        rw [← hs, List.prefix_append_right_inj] at htail
        cases s with
        | nil =>
          rw [List.append_nil] at hs
          exact hshort (hs ▸ List.prefix_rfl)
        | cons y s =>
          obtain ⟨rfl, -⟩ := List.cons_prefix_cons.mp htail
          exact hc (hs ▸ List.mem_append_right a List.mem_cons_self)
    rw [List.cons_append, cut, if_neg hstart, ih ha.2]
    rfl

example : cut [1, 2] [3, 1, 1, 2, 4, 1, 2] = some ([3, 1], [4, 1, 2]) := by decide

/-- **A list is found before the separator that was put after it.** -/
theorem split_append (hc : c ∉ t) (ha : ¬c :: t <:+: a) (r : List α) :
    split (c :: t) (a ++ c :: (t ++ r)) = a :: split (c :: t) r := by
  rw [split_eq, cut_append hc ha]

theorem split_of_not_infix (h : ¬c :: t <:+: xs) : split (c :: t) xs = [xs] := by
  rw [split_eq, cut_eq_none_iff.mpr h]

/-- **No separator is left** in what stands between them. -/
theorem not_infix_of_mem_split (h : a ∈ split (c :: t) xs) : ¬c :: t <:+: a := by
  fun_induction split (c :: t) xs with
  | case1 xs hnone =>
    rw [List.mem_singleton.mp h]
    exact cut_eq_none_iff.mp hnone
  | case2 xs b r hcut ih =>
    rcases List.mem_cons.mp h with rfl | hr
    · exact not_infix_of_cut hcut
    · exact ih hr

end CodeSession.Text
