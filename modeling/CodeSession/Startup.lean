import CodeSession.Config

/-!
# Start-up

What the program does before it serves: it reads the settings, sets the log level, writes two log
lines, and opens the window.
-/

namespace CodeSession.Startup

open Text

/-- The log levels and their numbers. -/
def levels : List (String × Nat) :=
  [("CRITICAL", 50), ("FATAL", 50), ("ERROR", 40), ("WARN", 30), ("WARNING", 30), ("INFO", 20),
   ("DEBUG", 10), ("NOTSET", 0)]

/-- The level as long as nobody sets it. -/
def initialLevel : Nat := 30

/-- The level of an informative line. -/
def informative : Nat := 20

/-- Where the window is served. -/
structure Window where
  title : String
  host : String
  port : Nat
  deriving DecidableEq, Repr

/-- Why the program does not start. -/
inductive Trouble where
  | config (t : ConfigTrouble)
  | unknownLevel (name : String)
  deriving DecidableEq, Repr

/-- What is said about a trouble. -/
def Trouble.message : Trouble → String
  | .config t => t.message
  | .unknownLevel name => "Unknown level: " ++ quoted name

/-- A start: the window or a trouble, the log level afterwards and the log lines without their
    times. -/
structure Report where
  window : Except Trouble Window
  level : Nat
  log : List String

/-- A log line without its time. -/
def logLine (text : String) : String :=
  "src.main - INFO - " ++ text

/-- The start in an environment. -/
def start (env : Environment) : Report :=
  match Config.load env [] with
  | .error t => ⟨.error (.config t), initialLevel, []⟩
  | .ok config =>
    match levels.lookup config.logLevel with
    | none => ⟨.error (.unknownLevel config.logLevel), initialLevel, []⟩
    | some level =>
      let lines :=
        [logLine ("Backend API at " ++ config.apiBaseUrl),
         logLine ("Session UI available at http://localhost:" ++ toString config.uiPort ++ "/")]
      ⟨.ok ⟨"CodeIntel", config.uiHost, config.uiPort⟩, level,
        if level ≤ informative then lines else []⟩

end CodeSession.Startup
