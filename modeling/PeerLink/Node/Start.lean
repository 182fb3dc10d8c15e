import PeerLink.Log.Filter
import PeerLink.Node.Arguments
import PeerLink.Node.Network
import PeerLink.Settings.Load

/-!
# Starting a node

A node reads its arguments, says in its log that it starts, loads its settings, and then either
connects to a peer, to which it will send messages, or listens for peers. Everything that can stop
it on this way is a value of `Course`, as are the two ways on.
-/

namespace PeerLink.Node

/-- The name of the program. -/
def programName : String := "comm-node"

/-- The version of the program. -/
def version : String := "0.1.0"

/-- What a node finds when it is started. -/
structure Surroundings where
  arguments : List String
  /-- The variables that override settings. -/
  overrides : Settings.Environment
  /-- The text of a file, if there is one. -/
  fileText : String → Option String
  /-- How settings files are understood. -/
  understand : Settings.Reading
  network : Network

/-- How it goes on with a node. -/
inductive Course
  /-- It ends. `output` is printed, `complaint` is printed apart from the log. -/
  | ended (exit : Nat) (output : List String) (complaint : Option String)
  /-- It is connected to a peer. -/
  | connected (peer : Address)
  /-- It listens on an address. -/
  | listening (address : Address)
  deriving Repr

/-- A node that has been started. -/
structure Started where
  course : Course
  /-- What it was told. -/
  arguments : Arguments := {}
  settings : Settings := {}
  filter : Log.Filter := ⟨none⟩
  /-- Its log, with the events that the filter does not show. -/
  log : List LogEntry := []

/-- The events that are shown. -/
def Started.shown (s : Started) : List LogEntry := s.log.filter fun e => s.filter.shows e.level

/-- What wrong arguments lead to. -/
def argumentsExit : Nat := 2

/-- What a failure leads to. -/
def failureExit : Nat := 1

/-- What an impossible setting leads to. -/
def abortExit : Nat := 101

/-- A line of help on an option. -/
def optionHelp (o : OptionName) : List String :=
  let standard := match o.standard with
    | none => ""
    | some value => s!" [default: {value}]"
  [s!"      {o.shown}", s!"          {o.purpose}{standard}"]

/-- The help text. -/
def help : List String :=
  ["Session-backed node-to-node communication node", "", s!"Usage: {programName} [OPTIONS]", "",
    "Options:"]
    ++ OptionName.all.flatMap optionHelp
    ++ ["  -h, --help", "          Print help", "  -V, --version", "          Print version"]

/-- The settings with what the arguments say instead. -/
def applyArguments (a : Arguments) (s : Settings) : Settings :=
  let s := match a.listen with
    | none => s
    | some address => { s with listen := address }
  match a.idleTimeout with
  | none => s
  | some d => { s with idleTimeoutMs := min d.millis Settings.maxNumber }

/-- Ends a node because of a failure. -/
def fail (text : String) : Course := .ended failureExit [] (some s!"Error: {text}")

/-- Ends a node because its event channel cannot be made. -/
def abort : Course := .ended abortExit [] (some "the capacity of the event channel is impossible")

/-- Connects to a peer; the event channel comes first. -/
def connect (net : Network) (s : Settings) (peer : Address) : Course × List LogEntry :=
  if !s.session.hasChannel then (abort, [])
  else
    let entry : LogEntry := { level := .debug, message := s!"Connecting session to {peer.text}" }
    match net.connect peer with
    | .error fault => (fail (TransportError.io fault).message, [entry])
    | .ok () => (.connected peer, [entry])

/-- Listens for peers; the event channel comes last. -/
def listen (net : Network) (s : Settings) : Course × List LogEntry :=
  match net.listen s.listen with
  | .error fault => (fail fault.message, [])
  | .ok address =>
    let entry : LogEntry :=
      { level := .info, message := s!"Node {s.nodeId} listening on {address.text}" }
    (if s.session.hasChannel then .listening address else abort, [entry])

/-- Starts a node that was told what to do. -/
def startWith (w : Surroundings) (a : Arguments) (filter : Log.Filter) : Started :=
  let first : LogEntry := { level := .info, message := s!"Starting comm node v{version}" }
  let (loaded, entries) :=
    Settings.load w.understand (Text.quotePath a.config) (w.fileText a.config) w.overrides
  let settings := applyArguments a loaded
  let (course, more) := match a.connect with
    | some peer => connect w.network settings peer
    | none => listen w.network settings
  { course := course, arguments := a, settings := settings, filter := filter
    log := first :: entries ++ more }

/-- Starts a node. -/
def start (w : Surroundings) : Started :=
  match Request.ofArguments w.arguments with
  | .error e => { course := .ended argumentsExit [] (some s!"error: {e.message}") }
  | .ok .version => { course := .ended 0 [s!"{programName} {version}"] none }
  | .ok .help => { course := .ended 0 help none }
  | .ok (.run a) =>
    match Log.Filter.parse a.logLevel with
    | .error e => { course := fail e.message, arguments := a }
    | .ok filter => startWith w a filter

end PeerLink.Node
