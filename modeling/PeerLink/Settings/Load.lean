import PeerLink.Log.Level
import PeerLink.Settings.File
import PeerLink.Text.Quoted

/-!
# Loading settings

Settings come from three places. The environment wins over the file, and the file over what a
setting has from the start. A file that cannot be read or understood counts as none, and so does a
variable of the environment whose text is no value of its setting. The log says what was used.

## Main results

* `Settings.load_fst`: the settings are those of the file with the overrides applied;
* `Settings.number?_eq_some_iff`: which texts are numbers.
-/

namespace PeerLink.Settings

/-- The variables of the environment that override settings, as far as they are set. -/
structure Environment where
  nodeId : Option String := none
  listen : Option String := none
  idleTimeoutMs : Option String := none
  maxFrameSize : Option String := none
  deriving DecidableEq, Repr, Inhabited

/-- How the text of a file is understood: as settings, as none, or not at all. -/
abbrev Reading := String → Except String (Option Settings)

/-- The settings of a file, where `none` stands for a file that is no text. -/
def ofFile (read : Reading) (content : Option String) : Settings :=
  match content.map read with
  | some (.ok (some s)) => s
  | _ => {}

/-! ## Overrides -/

/-- The number of a variable. -/
def number? (text : String) : Option Nat := (Text.natural? 10 maxNumber text.toList).toOption

/-- A number of a variable has decimal digits, may have a plus sign in front of them, and fits
into 64 bits. -/
theorem number?_eq_some_iff {text : String} {n : Nat} : number? text = some n ↔
    (∃ digits, (text.toList = digits ∨ text.toList = '+' :: digits) ∧
      Text.IsDecimal digits n) ∧ n ≤ 18446744073709551615 := by
  have hmax : maxNumber = 18446744073709551615 := rfl
  rw [← hmax, ← Text.natural?_eq_ok_iff, number?]
  cases Text.natural? 10 maxNumber text.toList with
  | error e => simp [Except.toOption]
  | ok m => simp [Except.toOption]

/-- Any text is a name. -/
def overrideNodeId (v : Option String) (s : Settings) : Settings :=
  match v with
  | none => s
  | some name => { s with nodeId := name }

def overrideListen (v : Option String) (s : Settings) : Settings :=
  match v.bind Address.parse? with
  | none => s
  | some address => { s with listen := address }

def overrideIdleTimeout (v : Option String) (s : Settings) : Settings :=
  match v.bind number? with
  | none => s
  | some ms => { s with idleTimeoutMs := ms }

def overrideMaxFrameSize (v : Option String) (s : Settings) : Settings :=
  match v.bind number? with
  | none => s
  | some size => { s with session := { s.session with maxFrameSize := size } }

/-- The settings with every override of the environment. -/
def override (env : Environment) (s : Settings) : Settings :=
  overrideMaxFrameSize env.maxFrameSize
    (overrideIdleTimeout env.idleTimeoutMs
      (overrideListen env.listen (overrideNodeId env.nodeId s)))

/-! ## The log of loading -/

/-- What is said about the file. -/
def fileEntry (read : Reading) (path : String) (content : Option String) : LogEntry :=
  match content.map read with
  | none => { level := .warn, message := s!"Config file {path} not found, using defaults" }
  | some (.error reason) =>
    { level := .warn
      message := s!"Failed to parse config file {path} ({reason}), using defaults" }
  | some (.ok _) => { level := .info, message := s!"Loaded configuration from {path}" }

/-- What is said about an address of the environment. -/
def listenEntry (text : String) : LogEntry :=
  match Address.parse? text with
  | some address =>
    { level := .info
      message := s!"Listen address overridden by environment: {address.text}" }
  | none =>
    { level := .warn
      message := "Ignoring invalid COMM_LISTEN_ADDR " ++ Text.quote text
        ++ ": invalid socket address syntax" }

/-- What is said about the environment; numbers that are none are passed over in silence. -/
def environmentEntries (env : Environment) : List LogEntry :=
  let info (message : String) : LogEntry := { level := .info, message := message }
  (env.nodeId.map fun name => info s!"Node ID overridden by environment: {name}").toList
    ++ (env.listen.map listenEntry).toList
    ++ ((env.idleTimeoutMs.bind number?).map fun ms =>
      info s!"Idle timeout overridden by environment: {ms}ms").toList
    ++ ((env.maxFrameSize.bind number?).map fun size =>
      info s!"Max frame size overridden by environment: {size}").toList

/-- What is said about the settings that are used. -/
def finalEntry (s : Settings) : LogEntry :=
  { level := .info
    message := s!"Final comm configuration: node_id={s.nodeId}, listen={s.listen.text}, "
      ++ s!"idle_timeout={s.idleTimeout.text}, max_frame_size={s.session.maxFrameSize}" }

/-- Loads settings from a file, whose path is shown as `path`, and the environment. -/
def load (read : Reading) (path : String) (content : Option String) (env : Environment) :
    Settings × List LogEntry :=
  let settings := (ofFile read content).override env
  (settings, fileEntry read path content :: environmentEntries env ++ [finalEntry settings])

@[simp] theorem load_fst (read : Reading) (path : String) (content : Option String)
    (env : Environment) : (load read path content env).1 = (ofFile read content).override env :=
  rfl

end PeerLink.Settings
