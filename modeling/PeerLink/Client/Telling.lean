import PeerLink.Client.Closing
import PeerLink.Client.Sending

/-!
# Telling clients about the end of a send

When an operation ends, the ack that was left with it runs. It notes how the send ended, and the
client it belongs to may go on at once: close, or send again with an ack of its own. None of
this ends another operation, so acks do not nest.
-/

namespace PeerLink

namespace ClientGroup

variable {σ : Type} [SessionHost σ]

/-- What client `n` does once it has been told under `name`. -/
def follow (g : ClientGroup σ) (name : String) (n : Nat) : FollowUp → Option (ClientGroup σ)
  | .close =>
    let (answer, g) := g.close n
    some (g.note (.closed name answer))
  | .forceClose => some (g.forceClose n)
  | .state =>
    match g.client? n with
    | none => some g
    | some c => some (g.note (.state name c.gate.isClosed c.stats))
  | .sendBuffer wire => do
    let (answer, g) ← g.send { client := n, payload := .buffer wire }
    some (g.note (.sent name answer))
  | .sendMessage message ack => do
    let (answer, g) ← g.send { client := n, payload := .message message, ack := ack }
    some (g.note (.sent name answer))

/-- Runs an ack with the result of its send. -/
def tell (g : ClientGroup σ) (ack : Ack) (result : SendResult) : Option (ClientGroup σ) :=
  match ack with
  | .silent => some g
  | .watch number => some (g.note (.watched number result))
  | .tell name n next =>
    let g := g.note (.told name result)
    match next with
    | none => some g
    | some f => g.follow name n f

/-- Uses the completer of an operation and runs the ack; says what the completer answers, or
nothing if it has been used up. -/
def complete (g : ClientGroup σ) (operation : Nat) (result : SendResult) :
    Option (Option Bool × ClientGroup σ) :=
  match (SessionHost.board g.session).complete operation result with
  | (.usedUp, _) => some (none, g)
  | (.late, board) =>
    some (some false, { g with session := SessionHost.setBoard g.session board })
  | (.recorded ack, board) =>
    let g := { g with session := SessionHost.setBoard g.session board }
    match ack with
    | none => some (some true, g)
    | some ack => (g.tell ack result).map fun g => (some true, g)

/-- Drops the completer of an operation: if it has not been used, the operation ends as canceled.
Says whether it was still there. -/
def cancel (g : ClientGroup σ) (operation : Nat) : Option (Bool × ClientGroup σ) :=
  if (SessionHost.board g.session).isOpen operation then
    let g := g.log .trace "Pending send dropped unresolved; canceling"
    (g.complete operation (.error .canceled)).map fun (_, g) => (true, g)
  else some (false, g)

/-- The notes left since `count` notes had been left, in order. -/
def notesSince (g : ClientGroup σ) (count : Nat) : List AckNote :=
  (g.notes.take (g.notes.length - count)).reverse

end ClientGroup

/-! ## Calls of a client -/

/-- What can be asked of a client. -/
inductive ClientCommand
  | close
  | forceClose
  | isClosed
  | describe
  | capabilities
  | sendBuffer (wire : Bytes)
  | sendMessage (target : Option String) (message : Message) (ack : Option Ack)
  | sendRaw
  | handshake

/-- Which ways of sending a client has. -/
structure Capabilities where
  isAsync : Bool
  structuredAsyncSend : Bool
  rawSyncSend : Bool
  deriving DecidableEq, Repr

/-- The client of a session sends structured messages and hears of their end later. It has no
raw connection. -/
def Capabilities.ofSessions : Capabilities := ⟨true, true, false⟩

/-- The answer to a command. -/
inductive ClientReply
  | nothing
  | flag (answer : Bool)
  /-- Whether the client, and whether its session is closed. -/
  | closed (client session : Bool)
  | text (s : String)
  | capabilities (c : Capabilities)
  | sent (answer : SendAnswer)
  | failed (error : ClientError)

namespace ClientGroup

variable {σ : Type} [SessionHost σ]

/-- Carries out a command of client `n`; nothing if the caller is aborted. -/
def perform (g : ClientGroup σ) (n : Nat) : ClientCommand → Option (ClientReply × ClientGroup σ)
  | .close =>
    let (answer, g) := g.close n
    some (.flag answer, g)
  | .forceClose => some (.nothing, g.forceClose n)
  | .isClosed =>
    let closed := ((g.client? n).map (·.gate.isClosed)).getD true
    some (.closed closed (SessionHost.isClosed g.session), g)
  | .describe => some (.text (g.describeAt n), g)
  | .capabilities => some (.capabilities .ofSessions, g)
  | .sendBuffer wire => do
    let (answer, g) ← g.send { client := n, payload := .buffer wire }
    some (.sent answer, g)
  | .sendMessage target message ack => do
    let call : SendCall :=
      { client := n, target := target, payload := .message message, ack := ack }
    let (answer, g) ← g.send call
    some (.sent answer, g)
  | .sendRaw => some (.failed (.unsupported "send_raw" (g.describeAt n)), g)
  | .handshake => some (.failed (.unsupported "do_handshake" (g.describeAt n)), g)

end ClientGroup

end PeerLink
