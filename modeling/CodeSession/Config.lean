import CodeSession.Text.Blank
import CodeSession.Text.Upper
import CodeSession.Validation.Number

/-!
# Settings

The settings of the client. Each comes from a given value, else from its environment variable,
else it has a default; either way it is checked, and all issues are reported in the order of the
fields. A variable that should hold a number and does not ends the reading at its field
(`ConfigTrouble`).

* `Config.load` -- the settings of an environment and some given values;
* `baseUrl` -- the rule for the address of the backend.
-/

namespace CodeSession

open Validation Json Text

/-- The variables of an environment. -/
abbrev Environment := List (String × String)

/-- The value of a variable, or a default. -/
def Environment.get (env : Environment) (name default : String) : String :=
  (env.lookup name).getD default

/-! ## 1. Troubles -/

/-- Why there are no settings. -/
inductive ConfigTrouble where
  | issues (is : List Issue)
  | notANumber (text : String)
  | notAnInteger (text : String)
  | tooManyDigits (count : Nat)
  deriving DecidableEq, Repr

/-- What is said about a trouble. -/
def ConfigTrouble.message : ConfigTrouble → String
  | .issues is => report is
  | .notANumber s => "could not convert string to float: " ++ quoted s
  | .notAnInteger s => "invalid literal for int() with base 10: " ++ quoted s
  | .tooManyDigits count =>
    "Exceeds the limit (" ++ toString Decimal.digitLimit
      ++ " digits) for integer string conversion: value has " ++ toString count
      ++ " digits; use sys.set_int_max_str_digits() to increase the limit"

/-! ## 2. Fields -/

/-- The characters without the slashes at their end. -/
def dropSlashes (cs : List Char) : List Char :=
  (cs.reverse.dropWhile (· == '/')).reverse

/-- The address of the backend: blanks at the ends go, the scheme must be one of two, and slashes
    at the end go. -/
def baseUrl (s : String) : Checked String :=
  let cs := trim isBlank s.toList
  if "http://".toList.isPrefixOf cs || "https://".toList.isPrefixOf cs then
    .ok (String.ofList (dropSlashes cs))
  else .refuse .badBaseUrl

/-- A number in an environment variable. -/
def variableNumber (env : Environment) (name default : String) : Except ConfigTrouble Binary64 :=
  let s := env.get name default
  match Decimal.flexible? s with
  | some x => .ok x
  | none => .error (.notANumber s)

/-- An integer in an environment variable. -/
def variableInteger (env : Environment) (name default : String) : Except ConfigTrouble Int :=
  let s := env.get name default
  match Decimal.flexibleInt s with
  | .ok n => .ok n
  | .error .notANumber => .error (.notAnInteger s)
  | .error (.tooLong count) => .error (.tooManyDigits count)

/-- A field: the given value is read, the default is computed only without one, and both are
    checked. -/
def configField {α β : Type} (name : String) (given : Members) (read : Value → Checked α)
    (default : Except ConfigTrouble α) (check : α → Checked β) :
    Except ConfigTrouble (Checked β) :=
  match Members.find? name given with
  | some v => .ok ((read v >>= check).under (.field name))
  | none => default.map fun a => (check a).under (.field name)

/-! ## 3. The settings -/

/-- The settings of the client. -/
structure Config where
  apiBaseUrl : String
  requestTimeout : Binary64
  autoNavigateDelay : Binary64
  uiHost : String
  uiPort : Nat
  logLevel : String
  deriving DecidableEq, Repr

/-- The settings of an environment and some given values. -/
def Config.load (env : Environment) (given : Members) : Except ConfigTrouble Config := do
  let url ← configField "api_base_url" given text
    (.ok (env.get "API_BASE_URL" "http://localhost:8080")) baseUrl
  let timeout ← configField "request_timeout" given number
    (variableNumber env "REQUEST_TIMEOUT" "120.0") aboveZero
  let delay ← configField "auto_navigate_delay" given number
    (variableNumber env "AUTO_NAVIGATE_DELAY" "1.5") notBelowZero
  let host ← configField "ui_host" given text (.ok (env.get "UI_HOST" "0.0.0.0")) .ok
  let port ← configField "ui_port" given integer
    (variableInteger env "UI_PORT" "8000") (between 1 65535)
  let level ← configField "log_level" given text (.ok (upper (env.get "LOG_LEVEL" "INFO"))) .ok
  match Checked.both url (Checked.both timeout (Checked.both delay
      (Checked.both host (Checked.both port level)))) with
  | .ok (url, timeout, delay, host, port, level) =>
    return ⟨url, timeout, delay, host, port, level⟩
  | .error is => throw (.issues is)

end CodeSession
