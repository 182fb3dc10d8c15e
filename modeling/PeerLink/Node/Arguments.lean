import PeerLink.Address.Reader
import PeerLink.Duration.Human
import PeerLink.Text.Number

/-!
# Arguments of a node

What a node is told when it is started. Every option has a long name and a value, which stands
behind an equals sign or is the next argument. Two flags ask for the version or for help and end
the reading.

A value is not looked at before the next option is found or the arguments end, so of two faults an
argument that is no option comes first.

## Main results

* `Node.Arguments.read_nil`: without arguments every option has its default.
-/

namespace PeerLink.Node

/-- The options of a node. -/
inductive OptionName
  | listen
  | connect
  | count
  | payloadSize
  | interval
  | idleTimeout
  | logLevel
  | config
  deriving DecidableEq, Repr

namespace OptionName

/-- The long name of an option. -/
def long : OptionName → String
  | listen => "listen"
  | connect => "connect"
  | count => "count"
  | payloadSize => "payload-size"
  | interval => "interval"
  | idleTimeout => "idle-timeout"
  | logLevel => "log-level"
  | config => "config"

/-- What stands for the value of an option. -/
def placeholder : OptionName → String
  | listen => "LISTEN"
  | connect => "CONNECT"
  | count => "COUNT"
  | payloadSize => "PAYLOAD_SIZE"
  | interval => "INTERVAL"
  | idleTimeout => "IDLE_TIMEOUT"
  | logLevel => "LOG_LEVEL"
  | config => "CONFIG"

/-- What an option is for. -/
def purpose : OptionName → String
  | listen => "Listen address, e.g. 0.0.0.0:47100 (overrides config)"
  | connect => "Connect to a peer and send messages instead of listening"
  | count => "Number of messages to send in connect mode"
  | payloadSize => "Payload size in bytes for each message"
  | interval => "Delay between messages, e.g. 100ms"
  | idleTimeout => "Idle eviction threshold, e.g. 30s (overrides config)"
  | logLevel => "Log level (trace, debug, info, warn, error)"
  | config => "Configuration file path"

/-- The value an option has unless it is given, where it has one. -/
def standard : OptionName → Option String
  | count => some "10"
  | payloadSize => some "64"
  | interval => some "100ms"
  | logLevel => some "info"
  | config => some "config.yaml"
  | _ => none

/-- All options. -/
def all : List OptionName :=
  [listen, connect, count, payloadSize, interval, idleTimeout, logLevel, config]

/-- The option with a long name. -/
def ofLong? (name : String) : Option OptionName := all.find? fun o => o.long == name

/-- An option with its value as it is shown. -/
def shown (o : OptionName) : String := s!"--{o.long} <{o.placeholder}>"

end OptionName

/-- What a node is told when it is started. -/
structure Arguments where
  /-- Where to listen; wins over the settings. -/
  listen : Option Address := none
  /-- Whom to connect to instead of listening. -/
  connect : Option Address := none
  /-- How many messages to send. -/
  count : Nat := 10
  /-- How many bytes each message has. -/
  payloadSize : Nat := 64
  /-- How long to wait behind each message. -/
  interval : Duration := .ofMillis 100
  /-- How long a client may be idle; wins over the settings. -/
  idleTimeout : Option Duration := none
  /-- The least urgent events that are logged. -/
  logLevel : String := "info"
  /-- The settings file. -/
  config : String := "config.yaml"
  deriving DecidableEq, Repr, Inhabited

/-- Why arguments cannot be used. -/
inductive ArgumentError
  | unexpected (argument : String)
  | invalid (option : OptionName) (value reason : String)
  | missingValue (option : OptionName)
  | repeated (option : OptionName)
  /-- A flag with a value. -/
  | surplus (flag value : String)
  deriving DecidableEq, Repr

/-- The text of the cause. -/
def ArgumentError.message : ArgumentError → String
  | unexpected argument => s!"unexpected argument '{argument}' found"
  | invalid option value reason => s!"invalid value '{value}' for '{option.shown}': {reason}"
  | missingValue option =>
    s!"a value is required for '{option.shown}' but none was supplied"
  | repeated option => s!"the argument '{option.shown}' cannot be used multiple times"
  | surplus flag value => s!"unexpected value '{value}' for '{flag}' found; no more were expected"

/-- What the arguments ask for. -/
inductive Request
  | run (arguments : Arguments)
  | version
  | help
  deriving DecidableEq, Repr

/-! ## Values -/

/-- The largest count of messages. -/
def maxCount : Int := UInt32.size - 1

/-- A count of messages. -/
def readCount (value : String) : Except String Nat :=
  match Text.integer? 64 value.toList with
  | .error e => .error e.message
  | .ok n =>
    if 0 ≤ n ∧ n ≤ maxCount then .ok n.toNat else .error s!"{n} is not in 0..={maxCount}"

/-- A size in bytes. -/
def readSize (value : String) : Except String Nat :=
  (Text.natural? 10 (UInt64.size - 1) value.toList).mapError Text.NumberError.message

/-- An address. -/
def readAddress (value : String) : Except String Address :=
  match Address.parse? value with
  | none => .error "invalid socket address syntax"
  | some a => .ok a

/-- A span of time. -/
def readSpan (value : String) : Except String Duration :=
  (Duration.ofHuman value).mapError Duration.HumanError.message

/-- The arguments with the value of an option; the path of a file cannot be empty. -/
def Arguments.set (a : Arguments) (option : OptionName) (value : String) :
    Except ArgumentError Arguments :=
  let invalid (reason : String) : ArgumentError := .invalid option value reason
  match option with
  | .listen => (readAddress value).mapError invalid |>.map fun v => { a with listen := some v }
  | .connect => (readAddress value).mapError invalid |>.map fun v => { a with connect := some v }
  | .count => (readCount value).mapError invalid |>.map fun v => { a with count := v }
  | .payloadSize => (readSize value).mapError invalid |>.map fun v => { a with payloadSize := v }
  | .interval => (readSpan value).mapError invalid |>.map fun v => { a with interval := v }
  | .idleTimeout =>
    (readSpan value).mapError invalid |>.map fun v => { a with idleTimeout := some v }
  | .logLevel => .ok { a with logLevel := value }
  | .config =>
    if value.isEmpty then .error (.missingValue option) else .ok { a with config := value }

/-! ## Reading -/

/-- The arguments that have been read so far. -/
structure Reading where
  arguments : Arguments := {}
  /-- The options whose values have been looked at. -/
  given : List OptionName := []
  /-- The last option, and its value once that has been found. -/
  pending : Option (OptionName × Option String) := none

namespace Reading

/-- Takes the value of an option, which must be its only one. -/
def assign (r : Reading) (option : OptionName) (value : String) :
    Except ArgumentError Reading :=
  if r.given.contains option then .error (.repeated option)
  else (r.arguments.set option value).map fun a =>
    { arguments := a, given := option :: r.given, pending := none }

/-- Looks at the value of the last option. -/
def settle (r : Reading) : Except ArgumentError Reading :=
  match r.pending with
  | none => .ok r
  | some (option, none) => .error (.missingValue option)
  | some (option, some value) => r.assign option value

end Reading

/-- An argument by its form. -/
inductive ArgumentForm
  /-- Two dashes, behind which there are no options. -/
  | separator
  /-- A long name, with the value behind an equals sign if there is one. -/
  | long (name : String) (value : Option String)
  /-- Letters behind a dash, the first of which counts. -/
  | short (letter : Char)
  | word

/-- The form of an argument. A lone dash is a word. -/
def ArgumentForm.of (argument : String) : ArgumentForm :=
  match argument.toList with
  | ['-', '-'] => separator
  | '-' :: '-' :: rest =>
    let name := rest.takeWhile (· != '=')
    match rest.drop name.length with
    | [] => long (String.ofList name) none
    | _ :: value => long (String.ofList name) (some (String.ofList value))
  | '-' :: c :: _ => short c
  | _ => word

/-- What a flag asks for. -/
def flag? (name : String) : Option Request :=
  if name == "version" then some .version else if name == "help" then some .help else none

/-- What a letter asks for. -/
def letterFlag? (letter : Char) : Option Request :=
  if letter == 'V' then some .version else if letter == 'h' then some .help else none

/-- Reads arguments. -/
def Arguments.read (r : Reading) : List String → Except ArgumentError Request
  | [] => r.settle.map fun r => .run r.arguments
  | argument :: rest =>
    match ArgumentForm.of argument with
    | .separator =>
      match rest with
      | [] => r.settle.map fun r => .run r.arguments
      | word :: _ => .error (.unexpected word)
    | .short letter =>
      match letterFlag? letter with
      | some request => r.settle.map fun _ => request
      | none => .error (.unexpected (String.ofList ['-', letter]))
    | .long name value =>
      match OptionName.ofLong? name, flag? name, value with
      | some option, _, some value =>
        match r.settle.bind fun r => r.assign option value with
        | .error e => .error e
        | .ok r => read r rest
      | some option, _, none =>
        match r.settle with
        | .error e => .error e
        | .ok r => read { r with pending := some (option, none) } rest
      | none, some _, some value => .error (.surplus s!"--{name}" value)
      | none, some request, none => r.settle.map fun _ => request
      | none, none, _ => .error (.unexpected s!"--{name}")
    | .word =>
      match r.pending with
      | some (option, none) => read { r with pending := some (option, some argument) } rest
      | _ => .error (.unexpected argument)

/-- What arguments ask for. -/
def Request.ofArguments (arguments : List String) : Except ArgumentError Request :=
  Arguments.read {} arguments

@[simp] theorem Arguments.read_nil : Request.ofArguments [] = .ok (.run {}) := rfl

end PeerLink.Node
