import CodeSession.Proofs.Config.Address
import CodeSession.Proofs.Config.Ranges
import CodeSession.Proofs.Decimal.Plain

/-!
# Variables and given values

When a text means the same in a variable as it does given, and that nothing but the variables of
what is not given matters.

* `Setting.Plain` -- the texts that are read alike: all texts, if the setting is a text; plain
  numbers and integers, if it is a number;
* `Setting.kept` -- the level of messages is kept in upper case if it comes from the variable;
* `take?_environment_of_plain` -- a plain text is taken from a variable as it is given;
* `plain_of_both` -- no other text is accepted both ways;
* `agree_of_text` -- the settings agree, or there are none either way, just if the text is plain or
  there are none either way; two environments that agree on what is not given give the same;
* `portText_disagrees` -- a text that is an integer only when it is given.
-/

namespace CodeSession

open Validation Json Text Decimal

namespace Setting

/-! ## 1. One setting -/

/-- A text that counts as much in the variable as it does given. -/
def Plain : Setting → String → Prop
  | requestTimeout, s => PlainNumber s
  | autoNavigateDelay, s => PlainNumber s
  | uiPort, s => PlainInteger s
  | apiBaseUrl, _ => True
  | uiHost, _ => True
  | logLevel, _ => True

/-- What a variable gives in the place of a given value. -/
def kept : (f : Setting) → f.Kind → f.Kind
  | logLevel => upper
  | requestTimeout => id
  | autoNavigateDelay => id
  | uiPort => id
  | apiBaseUrl => id
  | uiHost => id

end Setting

variable {f : Setting} {s : String}

theorem number?_string (s : String) : (Source.given (.string s)).number? = lax? s := by
  unfold Source.number? Validation.number
  dsimp only
  split <;> rename_i h <;> rw [h] <;> rfl

theorem integer?_string (s : String) :
    (Source.given (.string s)).integer? = (laxInt s).toOption := by
  simp only [Source.integer?, Validation.integer]
  cases laxInt s with
  | ok n => rfl
  | error t => cases t <;> rfl

theorem number?_of_plain (h : PlainNumber s) :
    (Source.environment s).number? = (Source.given (.string s)).number? :=
  (flexible?_eq_lax? h).trans (number?_string s).symm

theorem integer?_of_plain (h : PlainInteger s) :
    (Source.environment s).integer? = (Source.given (.string s)).integer? :=
  (flexibleInt_eq_laxInt h).trans (integer?_string s).symm

/-- **A plain text is taken from a variable as it is given.** -/
theorem take?_environment_of_plain (h : f.Plain s) :
    f.take? (.environment s) = (f.take? (.given (.string s))).map f.kept := by
  cases f with
  | requestTimeout =>
    have htake : ∀ x, Setting.requestTimeout.take? (.environment s) = some x ↔
        Setting.requestTimeout.take? (.given (.string s)) = some x := fun x => by
      rw [Setting.take?_requestTimeout, Setting.take?_requestTimeout, number?_of_plain h]
    exact (Option.ext htake).trans (Option.map_id_apply).symm
  | autoNavigateDelay =>
    have htake : ∀ x, Setting.autoNavigateDelay.take? (.environment s) = some x ↔
        Setting.autoNavigateDelay.take? (.given (.string s)) = some x := fun x => by
      rw [Setting.take?_autoNavigateDelay, Setting.take?_autoNavigateDelay, number?_of_plain h]
    exact (Option.ext htake).trans (Option.map_id_apply).symm
  | uiPort =>
    have htake : ∀ n, Setting.uiPort.take? (.environment s) = some n ↔
        Setting.uiPort.take? (.given (.string s)) = some n := fun n => by
      rw [Setting.take?_uiPort, Setting.take?_uiPort, integer?_of_plain h]
    exact (Option.ext htake).trans (Option.map_id_apply).symm
  | apiBaseUrl =>
    have htake : ∀ w, Setting.apiBaseUrl.take? (.environment s) = some w ↔
        Setting.apiBaseUrl.take? (.given (.string s)) = some w := fun w => by
      rw [take?_apiBaseUrl, take?_apiBaseUrl]
      rfl
    exact (Option.ext htake).trans (Option.map_id_apply).symm
  | uiHost => rfl
  | logLevel => rfl

/-- **No other text is accepted both ways.** -/
theorem plain_of_both {a b : f.Kind} (hvariable : f.take? (.environment s) = some a)
    (hgiven : f.take? (.given (.string s)) = some b) : f.Plain s := by
  cases f with
  | requestTimeout =>
    obtain ⟨hlax, -⟩ := Setting.take?_requestTimeout.mp hgiven
    rw [number?_string] at hlax
    exact plainNumber_of_both (Setting.take?_requestTimeout.mp hvariable).1 hlax
  | autoNavigateDelay =>
    obtain ⟨hlax, -⟩ := Setting.take?_autoNavigateDelay.mp hgiven
    rw [number?_string] at hlax
    exact plainNumber_of_both (Setting.take?_autoNavigateDelay.mp hvariable).1 hlax
  | uiPort =>
    obtain ⟨hlax, -⟩ := Setting.take?_uiPort.mp hgiven
    rw [integer?_string] at hlax
    exact plainInteger_of_both (Setting.take?_uiPort.mp hvariable).1 hlax
  | apiBaseUrl => trivial
  | uiHost => trivial
  | logLevel => trivial

/-! ## 2. All settings -/

/-- The settings with one of them replaced. -/
def Config.replace (c : Config) (f : Setting) (a : f.Kind) : Config :=
  Config.ofValues (Function.update c.value f a)

/-- There are no settings. -/
def Refused (a : Except ConfigTrouble Config) : Prop :=
  ∀ c, a ≠ .ok c

/-- The settings with a text in the variable, `a`, are those with the text given, `b`, but that the
    variable has its way to keep it; or there are none either way. -/
def Agree (f : Setting) (a b : Except ConfigTrouble Config) : Prop :=
  (∃ c d, a = .ok c ∧ b = .ok d ∧ c.value f = f.kept (d.value f) ∧
    ∀ g : Setting, g ≠ f → c.value g = d.value g) ∨
  (Refused a ∧ Refused b)

variable {env : Environment} {given : Members}

theorem value_replace_self (c : Config) (f : Setting) (a : f.Kind) :
    (c.replace f a).value f = a := by
  rw [Config.replace, value_ofValues, Function.update_self]

theorem value_replace_of_ne {f g : Setting} (h : g ≠ f) (c : Config) (a : f.Kind) :
    (c.replace f a).value g = c.value g := by
  rw [Config.replace, value_ofValues, Function.update_of_ne h]

/-- A plain text gives settings in the variable just if it gives settings when it is given. -/
theorem agree_of_plain (hnone : Members.find? f.name given = none) (hplain : f.Plain s) :
    Agree f (Config.load ((f.variableName, s) :: env) given)
      (Config.load env (given.insert f.name (.string s))) := by
  have htake := take?_environment_of_plain hplain
  by_cases hgiven : ∃ d, Config.load env (given.insert f.name (.string s)) = .ok d
  · obtain ⟨d, hd⟩ := hgiven
    obtain ⟨hself, hothers⟩ := (load_insert_eq_ok_iff f _).mp hd
    rw [hself, Option.map_some] at htake
    refine .inl ⟨d.replace f (f.kept (d.value f)), d, ?_, hd, value_replace_self _ _ _,
      fun g hg => value_replace_of_ne hg _ _⟩
    rw [load_cons_eq_ok_iff hnone, value_replace_self]
    refine ⟨htake, fun g hg => ?_⟩
    rw [value_replace_of_ne hg]
    exact hothers g hg
  · refine .inr ⟨fun c hc => hgiven ?_, fun d hd => hgiven ⟨d, hd⟩⟩
    obtain ⟨hself, hothers⟩ := (load_cons_eq_ok_iff hnone _).mp hc
    rw [hself] at htake
    obtain ⟨b, hb, -⟩ := Option.map_eq_some_iff.mp htake.symm
    refine ⟨c.replace f b, ?_⟩
    rw [load_insert_eq_ok_iff, value_replace_self]
    refine ⟨hb, fun g hg => ?_⟩
    rw [value_replace_of_ne hg]
    exact hothers g hg

/-- **When a variable and a given value agree.** A text in the variable of a setting for which
    nothing is given gives the same settings as the same text given, or there are none either way,
    just if the text is plain or there are none either way. And only the variables of settings for
    which nothing is given matter, for the settings as for the trouble there is with them. -/
theorem agree_of_text (hnone : Members.find? f.name given = none) (env : Environment)
    (s : String) :
    (Agree f (Config.load ((f.variableName, s) :: env) given)
        (Config.load env (given.insert f.name (.string s))) ↔
      f.Plain s ∨ Refused (Config.load ((f.variableName, s) :: env) given) ∧
        Refused (Config.load env (given.insert f.name (.string s)))) ∧
      ∀ env₁ env₂ given', (∀ g : Setting, Members.find? g.name given' = none →
          env₁.lookup g.variableName = env₂.lookup g.variableName) →
        Config.load env₁ given' = Config.load env₂ given' := by
  refine ⟨⟨?_, ?_⟩, fun env₁ env₂ given' hsame => load_congr fun g => ?_⟩
  · rintro (⟨c, d, hc, hd, -⟩ | hrefused)
    · exact .inl (plain_of_both ((load_cons_eq_ok_iff hnone _).mp hc).1
        ((load_insert_eq_ok_iff f _).mp hd).1)
    · exact .inr hrefused
  · rintro (hplain | hrefused)
    · exact agree_of_plain hnone hplain
    · exact .inr hrefused
  · unfold Setting.source
    cases hg : Members.find? g.name given' with
    | some v => rfl
    | none =>
      dsimp only
      rw [Environment.get, Environment.get, hsame g hg]

/-- A port with blanks, a sign and an underscore counts as much in the variable as it does given;
    and if another is given, a variable that holds none does no harm. -/
theorem agree_of_paddedPort :
    Members.find? "ui_port" [] = none ∧ PlainInteger " +8_000 " ∧
      Agree .uiPort (Config.load [("UI_PORT", " +8_000 ")] [])
        (Config.load [] [("ui_port", .string " +8_000 ")]) ∧
      Config.load [("UI_PORT", " +8_000 ")] [] = .ok .standard ∧
      Config.load [("UI_PORT", "none")] [("ui_port", .int 8000)] =
        Config.load [] [("ui_port", .int 8000)] := by
  have htrim : trim isSpace " +8_000 ".toList = ['+', '8', '_', '0', '0', '0'] := by
    decide +kernel
  have hplain : PlainInteger " +8_000 " := by
    unfold PlainInteger AsciiDigits
    rw [htrim]
    simp only [List.forall_mem_cons, List.not_mem_nil, false_imp_iff, implies_true, and_true]
    decide +kernel
  have hnone : Members.find? Setting.uiPort.name [] = none := rfl
  obtain ⟨hagree, hgiven⟩ := agree_of_text hnone [] " +8_000 "
  refine ⟨rfl, hplain, hagree.mpr (.inl hplain), by decide +kernel, hgiven _ _ _ fun g hg => ?_⟩
  cases g with
  | uiPort => exact absurd hg (by decide)
  | apiBaseUrl => rfl
  | requestTimeout => rfl
  | autoNavigateDelay => rfl
  | uiHost => rfl
  | logLevel => rfl

/-- **A variable and a given value do not always agree.** A port with a fraction of zeros is one
    only if it is given, and so is a number with an underscore that is not between two digits; a
    number in the digits of another script is one only in the variable. -/
theorem portText_disagrees :
    Config.load [("UI_PORT", "8000.0")] [] = .error (.notAnInteger "8000.0") ∧
      Config.load [] [("ui_port", .string "8000.0")] = .ok .standard ∧
      ¬Agree .uiPort (Config.load [("UI_PORT", "8000.0")] [])
        (Config.load [] [("ui_port", .string "8000.0")]) ∧
      Config.load [("AUTO_NAVIGATE_DELAY", "1_.5")] [] = .error (.notANumber "1_.5") ∧
      Config.load [] [("auto_navigate_delay", .string "1_.5")] = .ok .standard ∧
      Config.load [("REQUEST_TIMEOUT", "١٢٠")] [] = .ok .standard ∧
      Config.load [] [("request_timeout", .string "١٢٠")] =
        .error (.issues [⟨[.field "request_timeout"], .unreadableNumber⟩]) := by
  have hvariable : Config.load [("UI_PORT", "8000.0")] [] = .error (.notAnInteger "8000.0") := by
    decide +kernel
  have hgiven : Config.load [] [("ui_port", .string "8000.0")] = .ok .standard := by
    decide +kernel
  refine ⟨hvariable, hgiven, ?_, by decide +kernel, by decide +kernel, by decide +kernel,
    by decide +kernel⟩
  rw [hvariable, hgiven]
  rintro (⟨c, d, hc, -⟩ | ⟨-, hrefused⟩)
  · cases hc
  · exact hrefused _ rfl

end CodeSession
