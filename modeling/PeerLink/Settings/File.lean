import PeerLink.Address.Reader
import PeerLink.Settings.Basic
import PeerLink.Yaml.Value

/-!
# The settings file

A settings file is a YAML document. The settings are the record `comm` within the record
`services`; both may be missing or absent, and so may every setting.
-/

namespace PeerLink.Settings

open Yaml

/-- Why a file holds no settings. -/
inductive FileFault
  /-- It is not one YAML document. -/
  | document
  /-- A value is of another kind than the setting it is meant for. -/
  | value
  deriving DecidableEq, Repr

/-- The text of the fault. -/
def FileFault.message : FileFault → String
  | .document => "not a single YAML document"
  | .value => "a value of another kind was expected"

/-- The settings of sessions that a node stands for. -/
def readSession? (d : Document) (n : Node) : Option SessionConfig := do
  let known := ["max_frame_size", "read_buffer_size", "event_channel_capacity", "tcp_nodelay"]
  let fields ← d.fields? known n
  let default : SessionConfig := {}
  return {
    maxFrameSize := ← Document.field? fields "max_frame_size" (d.natural? maxNumber)
      default.maxFrameSize
    readBufferSize := ← Document.field? fields "read_buffer_size" (d.natural? maxNumber)
      default.readBufferSize
    eventChannelCapacity := ← Document.field? fields "event_channel_capacity"
      (d.natural? maxNumber) default.eventChannelCapacity
    tcpNodelay := ← Document.field? fields "tcp_nodelay" d.flag? default.tcpNodelay }

/-- The settings that a node stands for. -/
def readSettings? (d : Document) (n : Node) : Option Settings := do
  let known := ["node_id", "listen_addr", "idle_timeout_ms", "sweep_interval_ms",
    "connect_timeout_ms", "session"]
  let fields ← d.fields? known n
  let default : Settings := {}
  let millis (name : String) (otherwise : Nat) : Option Nat :=
    Document.field? fields name (d.natural? maxNumber) otherwise
  return {
    nodeId := ← Document.field? fields "node_id" d.text? default.nodeId
    listen := ← Document.field? fields "listen_addr" (fun n => (d.text? n).bind Address.parse?)
      default.listen
    idleTimeoutMs := ← millis "idle_timeout_ms" default.idleTimeoutMs
    sweepIntervalMs := ← millis "sweep_interval_ms" default.sweepIntervalMs
    connectTimeoutMs := ← millis "connect_timeout_ms" default.connectTimeoutMs
    session := ← Document.field? fields "session" (readSession? d) default.session }

/-- A record of one field that may be missing or absent. -/
def readSection? {α : Type} (d : Document) (name : String) (read : Node → Option (Option α))
    (n : Node) : Option (Option α) := do
  let fields ← d.fields? [name] n
  let inner ← Document.field? fields name (d.optional? read) none
  return inner.join

/-- The settings that a document holds, if it holds any. -/
def ofDocument? (d : Document) : Option (Option Settings) :=
  match d.root with
  | none => some none
  | some root =>
    readSection? d "services" (readSection? d "comm" fun n => (readSettings? d n).map some) root

/-- The settings in the text of a file, if there are any. -/
def parse (text : String) : Except FileFault (Option Settings) :=
  match Document.parse? text with
  | none => .error .document
  | some d =>
    match ofDocument? d with
    | none => .error .value
    | some settings => .ok settings

end PeerLink.Settings
