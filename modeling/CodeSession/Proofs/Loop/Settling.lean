import CodeSession.Proofs.Loop.Turns

/-!
# Loops that settle

What a loop does by itself is made of single steps. What each step preserves holds at the end.

* `settle_induction` -- settling: turns, and moves of the surroundings;
* `advance_induction` -- the clock moves on: besides these, the clock is set to a later time.
-/

namespace CodeSession.Loop

variable {σ κ ρ ε : Type} {b : Behaviour σ κ ρ ε}
  {surroundings : Loop σ κ ρ ε → Option (Loop σ κ ρ ε)} {P : Loop σ κ ρ ε → Prop}

/-! ## 1. Settling -/

theorem settleFor_induction (hturn : ∀ l, P l → P (l.turned b))
    (hmove : ∀ l l', P l → surroundings l = some l' → P l') (n : Nat) {l : Loop σ κ ρ ε} (h : P l) :
    P (settleFor b surroundings n l) := by
  induction n generalizing l with
  | zero => exact h
  | succ n ih =>
    unfold settleFor
    split
    · rename_i l' hl'
      have hl : l.turned b = l' := by simp [turned, hl']
      exact ih (hl ▸ hturn l h)
    · split
      · rename_i l' hl'
        exact ih (hmove l l' h hl')
      · exact h

/-- **What turns and moves of the surroundings preserve holds once a loop has settled.** -/
theorem settle_induction (hturn : ∀ l, P l → P (l.turned b))
    (hmove : ∀ l l', P l → surroundings l = some l' → P l') {l : Loop σ κ ρ ε} (h : P l) :
    P (l.settle b surroundings) :=
  settleFor_induction hturn hmove patience h

/-! ## 2. The clock -/

/-- Until a time at which no timer is due the clock is set and no timer fires. -/
theorem fireAt_of_not_due {l : Loop σ κ ρ ε} {time : Nat}
    (hdue : ∀ due, l.nextDue = some due → ¬due ≤ time) : l.fireAt time = { l with now := time } := by
  have hnone : l.timers.filter (·.due ≤ time) = [] := by
    refine List.filter_eq_nil_iff.mpr fun timer hmem => ?_
    cases hmin : l.nextDue with
    | none =>
      rw [nextDue, List.min?_eq_none_iff, List.map_eq_nil_iff] at hmin
      rw [hmin] at hmem
      cases hmem
    | some due =>
      have hle : due ≤ timer.due := (List.min?_eq_some_iff.mp hmin).2 _ (List.mem_map_of_mem hmem)
      have hlt := hdue due hmin
      simp only [decide_eq_true_eq]
      omega
  simp [fireAt, hnone]

/-- **What turns, moves of the surroundings and the passing of time preserve holds once the clock has
    moved on.** The surroundings do not set the clock. -/
theorem advance_induction (hturn : ∀ l, P l → P (l.turned b))
    (hmove : ∀ l l', P l → surroundings l = some l' → P l' ∧ l'.now = l.now)
    (hwait : ∀ l ticks, P l → P (l.fireAt (l.now + ticks))) (ticks : Nat) {l : Loop σ κ ρ ε}
    (h : P l) : P (l.advance b surroundings ticks) := by
  suffices hfor : ∀ target n (l : Loop σ κ ρ ε), P l → l.now ≤ target →
      P (advanceFor b surroundings target n l) from hfor _ _ l h (Nat.le_add_right _ _)
  intro target n
  induction n with
  | zero => exact fun l h _ => h
  | succ n ih =>
    intro l h hnow
    -- the clock is set to a later time
    have hset : ∀ time, l.now ≤ time → P (l.fireAt time) := by
      intro time hle
      have hsum : l.now + (time - l.now) = time := by omega
      exact hsum ▸ hwait l (time - l.now) h
    have hlast : (∀ due, l.nextDue = some due → ¬due ≤ target) → P { l with now := target } :=
      fun hdue => fireAt_of_not_due hdue ▸ hset target hnow
    unfold advanceFor
    split
    · rename_i due hmin
      split
      · rename_i hle
        have hstop : P (l.fireAt (max l.now due)) := hset _ (Nat.le_max_left _ _)
        have hsettled : P ((l.fireAt (max l.now due)).settle b surroundings) ∧
            ((l.fireAt (max l.now due)).settle b surroundings).now = max l.now due := by
          refine settle_induction (P := fun z => P z ∧ z.now = max l.now due)
            (fun z hz => ⟨hturn z hz.1, (now_turned b z).trans hz.2⟩) (fun z z' hz hz' => ?_)
            ⟨hstop, rfl⟩
          obtain ⟨hp, he⟩ := hmove z z' hz.1 hz'
          exact ⟨hp, he.trans hz.2⟩
        refine ih _ hsettled.1 ?_
        rw [hsettled.2]
        omega
      · rename_i hlt
        refine hlast fun d hd => ?_
        rw [hmin] at hd
        cases hd
        exact hlt
    · rename_i hmin
      refine hlast fun d hd => ?_
      rw [hmin] at hd
      cases hd

end CodeSession.Loop
