import PeerLink.Address.Basic
import PeerLink.Duration
import PeerLink.Session.Basic

/-!
# Settings of a node

What a node can be told by its configuration: its name, the address it listens on, its times, and
how its sessions are set up. Every setting has a value from the start.
-/

namespace PeerLink

/-- The settings of a node. -/
structure Settings where
  /-- The name of the node in its log. -/
  nodeId : String := "comm-node"
  /-- Where peers can connect. -/
  listen : Address := .unspecified 47100
  /-- How long a client may be idle, in milliseconds. -/
  idleTimeoutMs : Nat := 30000
  /-- How often idle clients are looked for, in milliseconds. -/
  sweepIntervalMs : Nat := 1000
  /-- How long a connection may take, in milliseconds. -/
  connectTimeoutMs : Nat := 5000
  /-- How sessions are set up. -/
  session : SessionConfig := {}
  deriving DecidableEq, Repr, Inhabited

namespace Settings

/-- The largest number that a setting can have. -/
def maxNumber : Nat := UInt64.size - 1

/-- How long a client may be idle. -/
def idleTimeout (s : Settings) : Duration := .ofMillis s.idleTimeoutMs

/-- How often idle clients are looked for. -/
def sweepInterval (s : Settings) : Duration := .ofMillis s.sweepIntervalMs

/-- How long a connection may take. -/
def connectTimeout (s : Settings) : Duration := .ofMillis s.connectTimeoutMs

/-- A ticker for the sweeps can be made. -/
def hasTicker (s : Settings) : Bool := ⟨0⟩ < s.sweepInterval

end Settings

end PeerLink
