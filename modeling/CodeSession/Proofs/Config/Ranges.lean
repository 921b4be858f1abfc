import CodeSession.Proofs.Config.Sources
import Mathlib.Data.EReal.Basic

/-!
# The numbers of settings

The numbers among the settings are in range, whatever they were read from: a given number, integer
or truth value, or a text in one of the two ways to spell a number.

* `Binary64.value?` -- the extended real number that a binary64 number is; NaN is none;
* `isPositive_iff`, `isNonNegative_iff` -- the two checks compare these numbers, so NaN passes
  neither;
* `Source.number?`, `Source.integer?` -- the number that a source spells;
* `numbers_of_load` -- the numbers of settings are those that the sources spell, and in range; and
  all numbers in range can be settings.
-/

namespace CodeSession

open Validation Json Text

/-! ## 1. Values -/

namespace Binary64

/-- The size of a number of units. -/
noncomputable def magnitude (units : Nat) : ℝ :=
  units / one

/-- The number that a binary64 number is; NaN is none. -/
noncomputable def value? : Binary64 → Option EReal
  | nan => none
  | infinite negative => some (if negative then ⊥ else ⊤)
  | finite negative units =>
    some ((if negative then -magnitude units else magnitude units : ℝ) : EReal)

theorem one_pos : (0 : ℝ) < one := by
  have hone : 0 < one := by decide +kernel
  exact_mod_cast hone

theorem magnitude_nonneg (units : Nat) : 0 ≤ magnitude units :=
  div_nonneg (Nat.cast_nonneg units) one_pos.le

theorem magnitude_pos_iff {units : Nat} : 0 < magnitude units ↔ units ≠ 0 := by
  rw [magnitude, div_pos_iff_of_pos_right one_pos, Nat.cast_pos, Nat.pos_iff_ne_zero]

theorem magnitude_nonpos_iff {units : Nat} : magnitude units ≤ 0 ↔ units = 0 := by
  rw [← not_lt, magnitude_pos_iff, not_not]

variable {x : Binary64}

/-- **The check for numbers above zero** is passed by just these. -/
theorem isPositive_iff : x.isPositive = true ↔ ∃ r, x.value? = some r ∧ 0 < r := by
  cases x with
  | nan => simp [isPositive, value?]
  | infinite negative => cases negative <;> simp [isPositive, value?]
  | finite negative units =>
    cases negative with
    | true => simp [isPositive, value?, magnitude_nonneg]
    | false => simp [isPositive, value?, magnitude_pos_iff]

/-- **The check for numbers not below zero** is passed by just these, a negative zero among them. -/
theorem isNonNegative_iff : x.isNonNegative = true ↔ ∃ r, x.value? = some r ∧ 0 ≤ r := by
  cases x with
  | nan => simp [isNonNegative, value?]
  | infinite negative => cases negative <;> simp [isNonNegative, value?]
  | finite negative units =>
    cases negative with
    | true => simp [isNonNegative, value?, magnitude_nonpos_iff]
    | false => simp [isNonNegative, value?, magnitude_nonneg]

end Binary64

/-! ## 2. Numbers from sources -/

namespace Source

/-- The number that a source spells. -/
def number? : Source → Option Binary64
  | given v => (Validation.number v).toOption
  | environment s => Decimal.flexible? s

/-- The integer that a source spells. -/
def integer? : Source → Option Int
  | given v => (Validation.integer v).toOption
  | environment s => (Decimal.flexibleInt s).toOption

variable {β : Type} {name : String} {s : Source} {b : β}

theorem toOption_eq_some_iff {ε α : Type} {a : Except ε α} {x : α} :
    a.toOption = some x ↔ a = .ok x := by
  cases a <;> simp [Except.toOption]

theorem answer_number_eq_ok_iff {check : Binary64 → Checked β} :
    answer name Validation.number numberOfText check s = .ok (.ok b) ↔
      ∃ x, s.number? = some x ∧ check x = .ok b := by
  cases s with
  | given v => simp only [answer_given_eq_ok_iff, number?, toOption_eq_some_iff]
  | environment s =>
    rw [answer_environment_eq_ok_iff, number?, numberOfText]
    cases Decimal.flexible? s <;> simp

theorem answer_integer_eq_ok_iff {check : Int → Checked β} :
    answer name Validation.integer integerOfText check s = .ok (.ok b) ↔
      ∃ n, s.integer? = some n ∧ check n = .ok b := by
  cases s with
  | given v => simp only [answer_given_eq_ok_iff, integer?, toOption_eq_some_iff]
  | environment s =>
    rw [answer_environment_eq_ok_iff, integer?, integerOfText]
    cases Decimal.flexibleInt s with
    | ok n => simp [Except.toOption]
    | error t => cases t <;> simp [Except.toOption]

end Source

section

variable {x y : Binary64} {n : Int} {m : Nat}

theorem aboveZero_eq_ok_iff :
    aboveZero x = .ok y ↔ (∃ r, y.value? = some r ∧ 0 < r) ∧ x = y := by
  rw [← Binary64.isPositive_iff, aboveZero]
  split
  · rename_i hx
    rw [Except.ok.injEq]
    exact ⟨fun h => ⟨h ▸ hx, h⟩, fun h => h.2⟩
  · rename_i hx
    exact ⟨fun h => (by cases h), fun h => absurd (h.2 ▸ h.1) hx⟩

theorem notBelowZero_eq_ok_iff :
    notBelowZero x = .ok y ↔ (∃ r, y.value? = some r ∧ 0 ≤ r) ∧ x = y := by
  rw [← Binary64.isNonNegative_iff, notBelowZero]
  split
  · rename_i hx
    rw [Except.ok.injEq]
    exact ⟨fun h => ⟨h ▸ hx, h⟩, fun h => h.2⟩
  · rename_i hx
    exact ⟨fun h => (by cases h), fun h => absurd (h.2 ▸ h.1) hx⟩

theorem between_eq_ok_iff {low high : Nat} :
    between low high n = .ok m ↔ (low ≤ m ∧ m ≤ high) ∧ n = m := by
  unfold between
  split
  · simp only [Checked.refuse, reduceCtorEq, false_iff]
    omega
  split
  · simp only [Checked.refuse, reduceCtorEq, false_iff]
    omega
  · rw [Except.ok.injEq]
    omega

end

namespace Setting

variable {s : Source}

theorem take?_requestTimeout {x : Binary64} :
    requestTimeout.take? s = some x ↔ s.number? = some x ∧ ∃ r, x.value? = some r ∧ 0 < r := by
  rw [take?_eq_some_iff, answer, Source.answer_number_eq_ok_iff]
  simp only [aboveZero_eq_ok_iff, exists_eq_right_right]

theorem take?_autoNavigateDelay {x : Binary64} :
    autoNavigateDelay.take? s = some x ↔
      s.number? = some x ∧ ∃ r, x.value? = some r ∧ 0 ≤ r := by
  rw [take?_eq_some_iff, answer, Source.answer_number_eq_ok_iff]
  simp only [notBelowZero_eq_ok_iff, exists_eq_right_right]

theorem take?_uiPort {m : Nat} :
    uiPort.take? s = some m ↔ s.integer? = some (m : Int) ∧ 1 ≤ m ∧ m ≤ 65535 := by
  rw [take?_eq_some_iff, answer, Source.answer_integer_eq_ok_iff]
  simp only [between_eq_ok_iff, exists_eq_right_right]

end Setting

/-! ## 3. The numbers of settings -/

/-- Numbers that settings can have. -/
def NumbersFit (timeout delay : Binary64) (port : Nat) : Prop :=
  (∃ r, timeout.value? = some r ∧ 0 < r) ∧ (∃ r, delay.value? = some r ∧ 0 ≤ r) ∧
    1 ≤ port ∧ port ≤ 65535

variable {env : Environment} {given : Members} {c : Config}

/-- The numbers of settings are those that the sources spell, and in range. -/
theorem spelled_of_load (hload : Config.load env given = .ok c) :
    (Setting.requestTimeout.source env given).number? = some c.requestTimeout ∧
      (Setting.autoNavigateDelay.source env given).number? = some c.autoNavigateDelay ∧
      (Setting.uiPort.source env given).integer? = some (c.uiPort : Int) ∧
      NumbersFit c.requestTimeout c.autoNavigateDelay c.uiPort := by
  have hall := load_eq_ok_iff.mp hload
  obtain ⟨htimeout, hpositive⟩ := Setting.take?_requestTimeout.mp (hall .requestTimeout)
  obtain ⟨hdelay, hnonneg⟩ := Setting.take?_autoNavigateDelay.mp (hall .autoNavigateDelay)
  obtain ⟨hport, hbetween⟩ := Setting.take?_uiPort.mp (hall .uiPort)
  exact ⟨htimeout, hdelay, hport, hpositive, hnonneg, hbetween⟩

/-- **The numbers of settings are in range**, wherever they come from. With the other settings from
    the same sources, three numbers are those of settings just if they are the ones that the sources
    spell and in range; so none is brought into range, and none that is in range is refused. -/
theorem numbers_of_load (hload : Config.load env given = .ok c) :
    NumbersFit c.requestTimeout c.autoNavigateDelay c.uiPort ∧
      ∀ env' given', (∀ f ∈ [Setting.apiBaseUrl, .uiHost, .logLevel],
          f.source env' given' = f.source env given) →
        ∀ timeout delay port,
          (∃ d, Config.load env' given' = .ok d ∧ d.requestTimeout = timeout ∧
            d.autoNavigateDelay = delay ∧ d.uiPort = port) ↔
          (Setting.requestTimeout.source env' given').number? = some timeout ∧
            (Setting.autoNavigateDelay.source env' given').number? = some delay ∧
            (Setting.uiPort.source env' given').integer? = some (port : Int) ∧
            NumbersFit timeout delay port := by
  refine ⟨(spelled_of_load hload).2.2.2, fun env' given' hsame timeout delay port => ⟨?_, ?_⟩⟩
  · rintro ⟨d, hd, rfl, rfl, rfl⟩
    exact spelled_of_load hd
  · rintro ⟨htimeout, hdelay, hport, hpositive, hnonneg, hbetween⟩
    have hall := load_eq_ok_iff.mp hload
    refine ⟨{ c with requestTimeout := timeout, autoNavigateDelay := delay, uiPort := port },
      load_eq_ok_iff.mpr fun f => ?_, rfl, rfl, rfl⟩
    cases f with
    | requestTimeout => exact Setting.take?_requestTimeout.mpr ⟨htimeout, hpositive⟩
    | autoNavigateDelay => exact Setting.take?_autoNavigateDelay.mpr ⟨hdelay, hnonneg⟩
    | uiPort => exact Setting.take?_uiPort.mpr ⟨hport, hbetween⟩
    | apiBaseUrl =>
      rw [hsame .apiBaseUrl (by simp)]
      exact hall .apiBaseUrl
    | uiHost =>
      rw [hsame .uiHost (by simp)]
      exact hall .uiHost
    | logLevel =>
      rw [hsame .logLevel (by simp)]
      exact hall .logLevel

/-- Numbers in the texts of a variable and of a given value; no settings have a timeout that is not
    a number. -/
theorem numbers_of_dressedTexts :
    Config.load [("REQUEST_TIMEOUT", " +1_2e1\t")] [("ui_port", .string "8_000.0")] =
        .ok .standard ∧
      NumbersFit Config.standard.requestTimeout Config.standard.autoNavigateDelay 8000 ∧
      ∀ d, Config.load [("REQUEST_TIMEOUT", "nan")] [] ≠ .ok d := by
  have hload : Config.load [("REQUEST_TIMEOUT", " +1_2e1\t")] [("ui_port", .string "8_000.0")] =
      .ok .standard := by decide +kernel
  obtain ⟨hfit, hothers⟩ := numbers_of_load hload
  refine ⟨hload, hfit, fun d hd => ?_⟩
  have hsame : ∀ f ∈ [Setting.apiBaseUrl, .uiHost, .logLevel],
      f.source [("REQUEST_TIMEOUT", "nan")] [] =
        f.source [("REQUEST_TIMEOUT", " +1_2e1\t")] [("ui_port", .string "8_000.0")] := by
    simp only [List.forall_mem_cons, List.not_mem_nil, false_imp_iff, implies_true, and_true]
    exact ⟨rfl, rfl, rfl⟩
  obtain ⟨hnumber, -, -, ⟨r, hr, -⟩, -⟩ := (hothers _ _ hsame _ _ _).mp ⟨d, hd, rfl, rfl, rfl⟩
  have hnan : (Setting.requestTimeout.source [("REQUEST_TIMEOUT", "nan")] []).number? =
      some .nan := by decide +kernel
  rw [hnan] at hnumber
  rw [← Option.some.inj hnumber] at hr
  cases hr

end CodeSession
