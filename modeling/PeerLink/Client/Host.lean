import PeerLink.Activity
import PeerLink.Address.Basic
import PeerLink.Client.Outcome
import PeerLink.Frame.Message
import PeerLink.Log.Level
import PeerLink.Pending.Board
import PeerLink.Slots

/-!
# What clients need of a session

Clients work with any session that takes payloads, keeps a board of the operations it handed out,
two slots and three stamps, and can be closed. `SessionHost` names these parts. What a caller
leaves with an operation, to be told about its end, is an `Ack`.
-/

namespace PeerLink

mutual

/-- What is to happen when a send ends. -/
inductive Ack
  /-- Nothing. -/
  | silent
  /-- The end of send `number` is noted. -/
  | watch (number : Nat)
  /-- The end is noted under a name, and then the client goes on. -/
  | tell (name : String) (client : Nat) (next : Option FollowUp)

/-- What a client does once it has been told. -/
inductive FollowUp
  | close
  | forceClose
  /-- Notes the state of the client. -/
  | state
  | sendBuffer (wire : Bytes)
  | sendMessage (message : Message) (ack : Option Ack)

end

/-- What an ack leaves behind. -/
inductive AckNote
  /-- Send `number` ended. -/
  | watched (number : Nat) (result : SendResult)
  | told (name : String) (result : SendResult)
  | closed (name : String) (answer : Bool)
  | sent (name : String) (answer : SendAnswer)
  | state (name : String) (closed : Bool) (stats : Stats)

/-- A session as its clients see it. -/
class SessionHost (σ : Type) where
  /-- The number that texts show for the session. -/
  label : σ → String
  /-- The address of the other side, where the session has one. -/
  remote? : σ → Option Address
  /-- The session has been closed. -/
  isClosed : σ → Bool
  slots : σ → Slots
  setSlots : σ → Slots → σ
  stamps : σ → Stamps
  /-- The operations handed out by `send`. -/
  board : σ → Board Ack
  setBoard : σ → Board Ack → σ
  /-- Takes a payload and hands out the number of its operation; nothing if the caller is
  aborted. -/
  send : σ → Payload → Option (Nat × σ)
  /-- Closes the session; says whether this call did it. -/
  close : σ → Bool × σ
  log : σ → LogEntry → σ

end PeerLink
