import PeerLink.Client.Telling

/-!
# Sending nodes

A node that is connected to a peer sends a number of messages of one size through a client, one
after the other. It stops early when a send tells it to connect anew, and then closes its client by
force, or when a send is refused. With every send it leaves an ack, so that it can report in the
end how many of the sends that were under way ended well.

The steps of the node are atomic, so that sends may end at any moment in between.
-/

namespace PeerLink

/-- What a sending node does next. -/
inductive SenderStage
  /-- Send the next message, if there is one. -/
  | between
  /-- Go on with a send. -/
  | sending (stage : SendStage)
  /-- Go on with closing the client. -/
  | closing (stage : CloseStage)
  /-- Nothing; `early` if a message was left out or met a fault. -/
  | ended (early : Bool)
  deriving Repr

/-- A node that sends messages. -/
structure Sender (σ : Type) where
  group : ClientGroup σ
  /-- The client it sends through. -/
  client : Nat
  /-- How many messages are to be sent. -/
  count : Nat
  /-- What each message holds. -/
  payload : Bytes
  /-- How many sends have come to an answer. -/
  answered : Nat := 0
  stage : SenderStage := .between

namespace Sender

variable {σ : Type} [SessionHost σ]

/-- The type of the messages. -/
def messageType : UInt16 := 1

/-- A node that starts to send over a session. -/
def start (group : ClientGroup σ) (count : Nat) (payload : Bytes) : Sender σ :=
  let (n, group) := group.bind
  { group := group.log .info s!"Connected {group.describeAt n}"
    client := n, count := count, payload := payload }

/-- The send of the message that is next. -/
def call (s : Sender σ) : SendCall :=
  { client := s.client, payload := .message (.ofBody messageType s.payload)
    ack := some (.watch s.answered) }

/-- The node with an entry in its log. -/
def log (s : Sender σ) (e : LogEntry) : Sender σ :=
  { s with group := { s.group with session := SessionHost.log s.group.session e } }

/-- Why the session was closed, or that it is open. -/
def sessionText (s : Sender σ) : String :=
  let reason := ((SessionHost.slots s.group.session).get? .lastError).bind SlotValue.text?
  reason.getD "open"

/-- What the log says about an answer. -/
def answerEntry (s : Sender σ) : SendAnswer → LogEntry
  | .ok (.needsReconnect cause) =>
    { level := .warn, component := some "client"
      message := s!"Message {s.answered} needs reconnect: {cause.message} "
        ++ s!"(session: {s.sessionText})" }
  | .ok .accepted => { level := .debug, message := s!"Message {s.answered} -> Accepted" }
  | .ok .inFlight => { level := .debug, message := s!"Message {s.answered} -> InFlight" }
  | .error e =>
    let text := ": ".intercalate e.toFailure.walk
    { level := .error, message := s!"Message {s.answered} rejected: {text}" }

/-- What an answer leads to. -/
def stageAfter : SendAnswer → SenderStage
  | .ok (.needsReconnect _) => .closing (.gate true)
  | .ok _ => .between
  | .error _ => .ended true

/-- Takes an answer. -/
def take (s : Sender σ) (answer : SendAnswer) : Sender σ :=
  { s.log (s.answerEntry answer) with
    answered := s.answered + 1, stage := stageAfter answer }

/-- Does one step; nothing if the node is aborted. -/
def step (s : Sender σ) : Option (Sender σ) :=
  match s.stage with
  | .between =>
    some { s with stage := if s.answered < s.count then .sending .opening else .ended false }
  | .sending stage =>
    match s.group.sendStep s.call stage with
    | .next stage group => some { s with group := group, stage := .sending stage }
    | .done answer group => some ({ s with group := group }.take answer)
    | .aborted => none
  | .closing stage =>
    match s.group.closeStep s.client stage with
    | .next stage group => some { s with group := group, stage := .closing stage }
    | .done _ group => some { s with group := group, stage := .ended true }
  | .ended _ => some s

/-! ## Acks -/

/-- What the log says about an ack: only failures are told. -/
def ackEntry : AckNote → Option LogEntry
  | .watched n (.error e) =>
    some { level := .warn, message := s!"Message {n} failed after send: {e.message}" }
  | _ => none

/-- A send ends, and its ack runs; nothing if the node is aborted. -/
def resolve (s : Sender σ) (operation : Nat) (result : SendResult) : Option (Sender σ) := do
  let (_, group) ← s.group.complete operation result
  let entries := (group.notesSince s.group.notes.length).filterMap ackEntry
  return entries.foldl log { s with group := group }

/-- How many acks told of a send that ended well. -/
def acked (s : Sender σ) : Nat :=
  s.group.notes.countP fun
    | .watched _ (.ok ()) => true
    | _ => false

/-- How many acks told of a send that failed. -/
def failed (s : Sender σ) : Nat :=
  s.group.notes.countP fun
    | .watched _ (.error _) => true
    | _ => false

/-! ## The report -/

/-- What the client has counted. -/
def stats (s : Sender σ) : Stats := ((s.group.client? s.client).map (·.stats)).getD {}

/-- What the node reports in the end. -/
def report (s : Sender σ) (now : Duration) : LogEntry :=
  let t := s.stats
  let idle := (SessionHost.stamps s.group.session).idleAt now
  { level := .info
    message := s!"Sent {t.issued} messages: accepted={t.accepted}, in_flight={t.inFlight}, "
      ++ s!"acked={s.acked}, failed={s.failed}, reconnects={t.reconnects}, idle={idle.text}" }

/-- The node reports and closes its client. -/
def finish (s : Sender σ) (now : Duration) : Sender σ :=
  let s := s.log (s.report now)
  { s with group := (s.group.close s.client).2 }

end Sender

end PeerLink
