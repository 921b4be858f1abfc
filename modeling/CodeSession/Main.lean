import CodeSession.Startup

/-!
# The command line

Starts the program in the environment of its process: writes the log lines, each with the
milliseconds of the clock, and says where the window is served, or why it is not.
-/

namespace CodeSession.Main

/-- The variables that the settings come from. -/
def settingNames : List String :=
  ["API_BASE_URL", "REQUEST_TIMEOUT", "AUTO_NAVIGATE_DELAY", "UI_HOST", "UI_PORT", "LOG_LEVEL"]

/-- The variables of the process, as far as they are set. -/
def readEnvironment : IO Environment :=
  settingNames.filterMapM fun name => do
    return (← IO.getEnv name).map fun value => (name, value)

end CodeSession.Main

/-- Start, and report. -/
def main : IO UInt32 := do
  let report := CodeSession.Startup.start (← CodeSession.Main.readEnvironment)
  for line in report.log do
    IO.println (toString (← IO.monoMsNow) ++ " - " ++ line)
  match report.window with
  | .ok window =>
    IO.println (window.title ++ " on " ++ window.host ++ ":" ++ toString window.port)
    return 0
  | .error trouble =>
    IO.eprintln trouble.message
    return 1
