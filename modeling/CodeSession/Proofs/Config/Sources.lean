import CodeSession.Config

/-!
# Where settings come from

The settings depend on one source each, a given value or the text of a variable, and on nothing
else.

* `Setting.source` -- the source of a setting: the value given for it, else its variable, else the
  text that stands for the variable if it is not set;
* `Setting.take?` -- what a setting takes from a source, if it accepts it;
* `load_eq_ofSources` -- the settings, or the trouble there is with them, are a function of the six
  sources;
* `load_eq_ok_iff` -- there are settings just if each setting accepts its source, and they are what
  the sources give;
* `load_congr`, `load_insert_eq_ok_iff` -- other sources do not matter; one setting is given anew.
-/

namespace CodeSession

open Validation Json Text

instance decidableEqExcept {ε α : Type} [DecidableEq ε] [DecidableEq α] :
    DecidableEq (Except ε α)
  | .ok a, .ok b => decidable_of_iff (a = b) (by rw [Except.ok.injEq])
  | .error d, .error e => decidable_of_iff (d = e) (by rw [Except.error.injEq])
  | .ok _, .error _ => .isFalse nofun
  | .error _, .ok _ => .isFalse nofun

/-! ## 1. Settings by name -/

/-- The settings. -/
inductive Setting where
  | apiBaseUrl
  | requestTimeout
  | autoNavigateDelay
  | uiHost
  | uiPort
  | logLevel
  deriving DecidableEq, Repr

/-- What a setting is read from: a given value, or the text of its variable. -/
inductive Source where
  | given (v : Value)
  | environment (text : String)

namespace Setting

/-- The name under which a setting is given. -/
def name : Setting → String
  | apiBaseUrl => "api_base_url"
  | requestTimeout => "request_timeout"
  | autoNavigateDelay => "auto_navigate_delay"
  | uiHost => "ui_host"
  | uiPort => "ui_port"
  | logLevel => "log_level"

/-- The variable of a setting. -/
def variableName : Setting → String
  | apiBaseUrl => "API_BASE_URL"
  | requestTimeout => "REQUEST_TIMEOUT"
  | autoNavigateDelay => "AUTO_NAVIGATE_DELAY"
  | uiHost => "UI_HOST"
  | uiPort => "UI_PORT"
  | logLevel => "LOG_LEVEL"

/-- The text that counts if the variable is not set. -/
def defaultText : Setting → String
  | apiBaseUrl => "http://localhost:8080"
  | requestTimeout => "120.0"
  | autoNavigateDelay => "1.5"
  | uiHost => "0.0.0.0"
  | uiPort => "8000"
  | logLevel => "INFO"

theorem name_inj {f g : Setting} : f.name = g.name ↔ f = g := by
  cases f <;> cases g <;> decide

theorem variableName_inj {f g : Setting} : f.variableName = g.variableName ↔ f = g := by
  cases f <;> cases g <;> decide

/-- The kind of values that a setting has. -/
abbrev Kind : Setting → Type
  | requestTimeout | autoNavigateDelay => Binary64
  | uiPort => Nat
  | apiBaseUrl | uiHost | logLevel => String

/-- Where a setting comes from. -/
def source (f : Setting) (env : Environment) (given : Members) : Source :=
  match Members.find? f.name given with
  | some v => .given v
  | none => .environment (env.get f.variableName f.defaultText)

end Setting

/-- The value of a setting. -/
def Config.value (c : Config) : (f : Setting) → f.Kind
  | .apiBaseUrl => c.apiBaseUrl
  | .requestTimeout => c.requestTimeout
  | .autoNavigateDelay => c.autoNavigateDelay
  | .uiHost => c.uiHost
  | .uiPort => c.uiPort
  | .logLevel => c.logLevel

/-- The settings with a value for each. -/
def Config.ofValues (v : (f : Setting) → f.Kind) : Config :=
  ⟨v .apiBaseUrl, v .requestTimeout, v .autoNavigateDelay, v .uiHost, v .uiPort, v .logLevel⟩

theorem value_ofValues (v : (f : Setting) → f.Kind) (f : Setting) :
    (Config.ofValues v).value f = v f := by
  cases f <;> rfl

/-! ## 2. What a source gives -/

/-- What two steps give. -/
theorem bind_eq_ok_iff {ε α β : Type} {x : Except ε α} {f : α → Except ε β} {b : β} :
    x >>= f = .ok b ↔ ∃ a, x = .ok a ∧ f a = .ok b := by
  cases x with
  | ok a => exact ⟨fun h => ⟨a, rfl, h⟩, fun ⟨_, ha, h⟩ => (by cases ha; exact h)⟩
  | error e => exact ⟨fun h => (by cases h), fun ⟨_, ha, _⟩ => (by cases ha)⟩

/-- A number in the text of a variable. -/
def numberOfText (s : String) : Except ConfigTrouble Binary64 :=
  match Decimal.flexible? s with
  | some x => .ok x
  | none => .error (.notANumber s)

/-- An integer in the text of a variable. -/
def integerOfText (s : String) : Except ConfigTrouble Int :=
  match Decimal.flexibleInt s with
  | .ok n => .ok n
  | .error .notANumber => .error (.notAnInteger s)
  | .error (.tooLong count) => .error (.tooManyDigits count)

theorem variableNumber_eq (env : Environment) (name default : String) :
    variableNumber env name default = numberOfText (env.get name default) :=
  rfl

theorem variableInteger_eq (env : Environment) (name default : String) :
    variableInteger env name default = integerOfText (env.get name default) :=
  rfl

/-- A source as a checked value: a given value is read, the text of a variable is parsed, and both
    are checked. -/
def Source.answer {α β : Type} (name : String) (read : Value → Checked α)
    (parse : String → Except ConfigTrouble α) (check : α → Checked β) :
    Source → Except ConfigTrouble (Checked β)
  | .given v => .ok ((read v >>= check).under (.field name))
  | .environment s => (parse s).map fun a => (check a).under (.field name)

namespace Setting

/-- What a setting makes of a source. -/
def answer : (f : Setting) → Source → Except ConfigTrouble (Checked f.Kind)
  | apiBaseUrl => Source.answer "api_base_url" text .ok baseUrl
  | requestTimeout => Source.answer "request_timeout" number numberOfText aboveZero
  | autoNavigateDelay => Source.answer "auto_navigate_delay" number numberOfText notBelowZero
  | uiHost => Source.answer (β := String) "ui_host" text .ok .ok
  | uiPort => Source.answer "ui_port" integer integerOfText (between 1 65535)
  | logLevel => Source.answer (β := String) "log_level" text (fun s => .ok (upper s)) .ok

/-- What a setting takes from a source, if it accepts it. -/
def take? (f : Setting) (s : Source) : Option f.Kind :=
  match f.answer s with
  | .ok (.ok a) => some a
  | _ => none

theorem take?_eq_some_iff {f : Setting} {s : Source} {a : f.Kind} :
    f.take? s = some a ↔ f.answer s = .ok (.ok a) := by
  unfold take?
  split
  · rename_i b hb
    rw [hb]
    constructor
    · rintro ⟨⟩
      rfl
    · rintro ⟨⟩
      rfl
  · rename_i hother
    exact ⟨fun h => (by cases h), fun h => absurd h (hother a)⟩

end Setting

section

variable {α β : Type} {name : String} {read : Value → Checked α}
  {parse : String → Except ConfigTrouble α} {check : α → Checked β} {b : β}

theorem answer_given_eq_ok_iff {v : Value} :
    Source.answer name read parse check (.given v) = .ok (.ok b) ↔
      ∃ a, read v = .ok a ∧ check a = .ok b := by
  rw [← bind_eq_ok_iff, Source.answer, Except.ok.injEq]
  cases read v >>= check <;> simp [Checked.under]

theorem answer_environment_eq_ok_iff {s : String} :
    Source.answer name read parse check (.environment s) = .ok (.ok b) ↔
      ∃ a, parse s = .ok a ∧ check a = .ok b := by
  rw [Source.answer]
  cases parse s with
  | error e => simp [Except.map]
  | ok a =>
    simp only [Except.map, Except.ok.injEq, exists_eq_left']
    cases check a <;> simp [Checked.under]

end

/-! ## 3. The settings from their sources -/

/-- The settings from what is made of the source of each: a text that is no number ends the reading,
    and all issues are told. -/
def Config.ofAnswers (url : Except ConfigTrouble (Checked String))
    (timeout delay : Except ConfigTrouble (Checked Binary64))
    (host : Except ConfigTrouble (Checked String)) (port : Except ConfigTrouble (Checked Nat))
    (level : Except ConfigTrouble (Checked String)) : Except ConfigTrouble Config := do
  let url ← url
  let timeout ← timeout
  let delay ← delay
  let host ← host
  let port ← port
  let level ← level
  match Checked.both url (Checked.both timeout (Checked.both delay
      (Checked.both host (Checked.both port level)))) with
  | .ok (url, timeout, delay, host, port, level) =>
    return ⟨url, timeout, delay, host, port, level⟩
  | .error is => throw (.issues is)

/-- The settings from a source for each. -/
def Config.ofSources (src : Setting → Source) : Except ConfigTrouble Config :=
  Config.ofAnswers (Setting.apiBaseUrl.answer (src .apiBaseUrl))
    (Setting.requestTimeout.answer (src .requestTimeout))
    (Setting.autoNavigateDelay.answer (src .autoNavigateDelay))
    (Setting.uiHost.answer (src .uiHost)) (Setting.uiPort.answer (src .uiPort))
    (Setting.logLevel.answer (src .logLevel))

variable {env env' : Environment} {given given' : Members} {c : Config}

/-- A field depends on the source of its setting. -/
theorem configField_eq_answer {α β : Type} (f : Setting) (read : Value → Checked α)
    (parse : String → Except ConfigTrouble α) (check : α → Checked β) :
    configField f.name given read (parse (env.get f.variableName f.defaultText)) check =
      Source.answer f.name read parse check (f.source env given) := by
  unfold configField Setting.source
  cases Members.find? f.name given with
  | some v => rfl
  | none => rfl

/-- **The settings are a function of the six sources.** -/
theorem load_eq_ofSources (env : Environment) (given : Members) :
    Config.load env given = Config.ofSources fun f => f.source env given := by
  have hurl : configField "api_base_url" given text
      (.ok (env.get "API_BASE_URL" "http://localhost:8080")) baseUrl =
        Setting.apiBaseUrl.answer (Setting.apiBaseUrl.source env given) :=
    configField_eq_answer .apiBaseUrl text .ok baseUrl
  have htimeout : configField "request_timeout" given number
      (variableNumber env "REQUEST_TIMEOUT" "120.0") aboveZero =
        Setting.requestTimeout.answer (Setting.requestTimeout.source env given) := by
    rw [variableNumber_eq]
    exact configField_eq_answer .requestTimeout number numberOfText aboveZero
  have hdelay : configField "auto_navigate_delay" given number
      (variableNumber env "AUTO_NAVIGATE_DELAY" "1.5") notBelowZero =
        Setting.autoNavigateDelay.answer (Setting.autoNavigateDelay.source env given) := by
    rw [variableNumber_eq]
    exact configField_eq_answer .autoNavigateDelay number numberOfText notBelowZero
  have hhost : configField (β := String) "ui_host" given text
      (.ok (env.get "UI_HOST" "0.0.0.0")) .ok =
        Setting.uiHost.answer (Setting.uiHost.source env given) :=
    configField_eq_answer .uiHost text .ok .ok
  have hport : configField "ui_port" given integer (variableInteger env "UI_PORT" "8000")
      (between 1 65535) = Setting.uiPort.answer (Setting.uiPort.source env given) := by
    rw [variableInteger_eq]
    exact configField_eq_answer .uiPort integer integerOfText (between 1 65535)
  have hlevel : configField (β := String) "log_level" given text
      (.ok (upper (env.get "LOG_LEVEL" "INFO"))) .ok =
        Setting.logLevel.answer (Setting.logLevel.source env given) :=
    configField_eq_answer .logLevel text (fun s => .ok (upper s)) .ok
  have hload : Config.load env given = Config.ofAnswers _ _ _ _ _ _ := rfl
  rw [hload, hurl, htimeout, hdelay, hhost, hport, hlevel]
  rfl

theorem ofAnswers_eq_ok_iff {url host level : Except ConfigTrouble (Checked String)}
    {timeout delay : Except ConfigTrouble (Checked Binary64)}
    {port : Except ConfigTrouble (Checked Nat)} :
    Config.ofAnswers url timeout delay host port level = .ok c ↔
      url = .ok (.ok c.apiBaseUrl) ∧ timeout = .ok (.ok c.requestTimeout) ∧
      delay = .ok (.ok c.autoNavigateDelay) ∧ host = .ok (.ok c.uiHost) ∧
      port = .ok (.ok c.uiPort) ∧ level = .ok (.ok c.logLevel) := by
  constructor
  · unfold Config.ofAnswers
    simp only [bind_eq_ok_iff]
    rintro ⟨_, rfl, _, rfl, _, rfl, _, rfl, _, rfl, _, rfl, h⟩
    split at h
    · rename_i hboth
      cases h
      simp only [Checked.both_eq_ok_iff] at hboth
      obtain ⟨rfl, rfl, rfl, rfl, rfl, rfl⟩ := hboth
      exact ⟨rfl, rfl, rfl, rfl, rfl, rfl⟩
    · cases h
  · rintro ⟨rfl, rfl, rfl, rfl, rfl, rfl⟩
    rfl

theorem ofSources_eq_ok_iff {src : Setting → Source} :
    Config.ofSources src = .ok c ↔ ∀ f : Setting, f.take? (src f) = some (c.value f) := by
  unfold Config.ofSources
  simp only [ofAnswers_eq_ok_iff, Setting.take?_eq_some_iff]
  constructor
  · rintro ⟨hurl, htimeout, hdelay, hhost, hport, hlevel⟩ f
    cases f with
    | apiBaseUrl => exact hurl
    | requestTimeout => exact htimeout
    | autoNavigateDelay => exact hdelay
    | uiHost => exact hhost
    | uiPort => exact hport
    | logLevel => exact hlevel
  · exact fun h => ⟨h .apiBaseUrl, h .requestTimeout, h .autoNavigateDelay, h .uiHost, h .uiPort,
      h .logLevel⟩

/-- **There are settings just if each accepts its source**, and they are what the sources give. -/
theorem load_eq_ok_iff :
    Config.load env given = .ok c ↔
      ∀ f : Setting, f.take? (f.source env given) = some (c.value f) := by
  rw [load_eq_ofSources, ofSources_eq_ok_iff]

/-! ## 4. Other sources -/

/-- The same sources give the same settings, or the same trouble. -/
theorem load_congr (h : ∀ f : Setting, f.source env given = f.source env' given') :
    Config.load env given = Config.load env' given' := by
  rw [load_eq_ofSources, load_eq_ofSources, funext h]

/-- A value that is given is the source. -/
theorem source_insert_self (f : Setting) (v : Value) :
    f.source env (given.insert f.name v) = .given v := by
  rw [Setting.source, Members.find?_insert_self]

/-- A value that is given leaves the other sources as they are. -/
theorem source_insert_of_ne {f g : Setting} (h : g ≠ f) (v : Value) :
    g.source env (given.insert f.name v) = g.source env given := by
  have hname : f.name ≠ g.name := fun hf => h (Setting.name_inj.mp hf).symm
  rw [Setting.source, Setting.source, Members.find?_insert_of_ne hname]

/-- A variable is the source if nothing is given. -/
theorem source_cons_self {f : Setting} (hnone : Members.find? f.name given = none) (s : String) :
    f.source ((f.variableName, s) :: env) given = .environment s := by
  simp [Setting.source, hnone, Environment.get]

/-- A variable leaves the other sources as they are. -/
theorem source_cons_of_ne {f g : Setting} (h : g ≠ f) (s : String) :
    g.source ((f.variableName, s) :: env) given = g.source env given := by
  have hname : (g.variableName == f.variableName) = false := by
    simpa using fun hf => h (Setting.variableName_inj.mp hf)
  simp only [Setting.source, Environment.get, List.lookup_cons, hname]

/-- **The settings with one source in the place of another**: they are what that source gives, and
    else what they are without it. -/
theorem load_eq_ok_iff_of_source {f : Setting} {s : Source} (hself : f.source env' given' = s)
    (hothers : ∀ g : Setting, g ≠ f → g.source env' given' = g.source env given) :
    Config.load env' given' = .ok c ↔ f.take? s = some (c.value f) ∧
      ∀ g : Setting, g ≠ f → g.take? (g.source env given) = some (c.value g) := by
  rw [load_eq_ok_iff]
  constructor
  · intro h
    constructor
    · rw [← hself]
      exact h f
    · intro g hg
      rw [← hothers g hg]
      exact h g
  · rintro ⟨hf, hrest⟩ g
    by_cases hg : g = f
    · subst hg
      rw [hself]
      exact hf
    · rw [hothers g hg]
      exact hrest g hg

theorem load_insert_eq_ok_iff (f : Setting) (v : Value) :
    Config.load env (given.insert f.name v) = .ok c ↔ f.take? (.given v) = some (c.value f) ∧
      ∀ g : Setting, g ≠ f → g.take? (g.source env given) = some (c.value g) :=
  load_eq_ok_iff_of_source (source_insert_self f v) fun _ hg => source_insert_of_ne hg v

theorem load_cons_eq_ok_iff {f : Setting} (hnone : Members.find? f.name given = none)
    (s : String) :
    Config.load ((f.variableName, s) :: env) given = .ok c ↔
      f.take? (.environment s) = some (c.value f) ∧
      ∀ g : Setting, g ≠ f → g.take? (g.source env given) = some (c.value g) :=
  load_eq_ok_iff_of_source (source_cons_self hnone s) fun _ hg => source_cons_of_ne hg s

/-- The settings if nothing is given and no variable is set. -/
def Config.standard : Config :=
  ⟨"http://localhost:8080", .finite false (120 * Binary64.one),
    .finite false (3 * (Binary64.one / 2)), "0.0.0.0", 8000, "INFO"⟩

example : Config.load [] [] = .ok .standard := by decide +kernel

end CodeSession
