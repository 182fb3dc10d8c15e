/-!
# Log levels

How urgent an event is. Levels are ordered from the most urgent to the least, and a reader of the
log picks the least urgent one to be shown.
-/

namespace PeerLink

/-- How urgent an event is. -/
inductive Level
  | error
  | warn
  | info
  | debug
  | trace
  deriving DecidableEq, Repr, Inhabited

namespace Level

/-- The name of a level. -/
def name : Level → String
  | error => "ERROR"
  | warn => "WARN"
  | info => "INFO"
  | debug => "DEBUG"
  | trace => "TRACE"

/-- The place of a level, the most urgent first. -/
def rank : Level → Nat
  | error => 1
  | warn => 2
  | info => 3
  | debug => 4
  | trace => 5

/-- The level with a name in capital letters. -/
def ofName? (s : String) : Option Level :=
  [error, warn, info, debug, trace].find? fun l => l.name == s

theorem ofName?_name (l : Level) : ofName? l.name = some l := by
  cases l <;> decide

end Level

/-- An event of the log: its level, the part of the program that speaks, and what it says. -/
structure LogEntry where
  level : Level
  message : String
  /-- The part of the program that speaks, if it says so. -/
  component : Option String := none
  deriving DecidableEq, Repr, Inhabited

end PeerLink
