import CodeSession.Choice

/-! # Tabs -/

namespace CodeSession

/-- What the session window can show. -/
inductive Tab where
  | chat
  | inspect
  | ingest
  deriving DecidableEq, Repr

/-- The name of a tab. -/
def Tab.name : Tab → String
  | .chat => "chat"
  | .inspect => "inspect"
  | .ingest => "ingest"

instance : Choice Tab where
  title := "Tab"
  all := [.chat, .inspect, .ingest]
  name := Tab.name

end CodeSession
