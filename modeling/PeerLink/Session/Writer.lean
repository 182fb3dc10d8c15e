import PeerLink.Session.Basic
import PeerLink.Session.Pipe

/-!
# The writer of a session

The writer takes requests from the queue in order. It writes a request as a whole, however many
writes that takes, and then ends its operation. When the session is closed it takes no more
requests; it finishes the queue if that was asked for and no write has failed, gives up what is
left, and shuts the stream down unless it is broken.

`Session.writerMove` says what the writer does next: change the session, ask the stream to take
bytes, or wait. Whoever runs the writer asks the stream and hands the answer to
`Session.afterWrite`, so nothing here depends on what kind of stream it is.
-/

namespace PeerLink

/-- An ack that is to be run now, with the operation it was left with and the result of that. -/
structure Firing where
  operation : Nat
  ack : Ack
  result : SendResult

/-- An ack that the session hands out to be run, with what the session has counted by then. -/
structure DueAck where
  firing : Firing
  traffic : Traffic

/-- What a writer does next. -/
inductive WriterMove
  /-- Wait until there is something to do. -/
  | wait
  /-- Go on with the session changed; an operation may have ended with it. -/
  | go (s : Session) (due : Option DueAck)
  /-- Ask the stream to take some bytes. -/
  | write (bytes : Bytes)
  /-- Go on, after shutting the stream down if it is healthy. -/
  | finish (s : Session) (shutdown : Bool)

namespace Session

/-- Ends an operation; an ack that was left with it is to be run. -/
def resolve (s : Session) (operation : Nat) (result : SendResult) :
    Session × Option DueAck :=
  match s.board.complete operation result with
  | (.recorded (some ack), board) =>
    ({ s with board := board }, some ⟨⟨operation, ack, result⟩, s.traffic⟩)
  | (_, board) => ({ s with board := board }, none)

/-- The session after a request was written. -/
def countWritten (s : Session) (r : WriteRequest) (now : Duration) : Session :=
  { s with
    stamps := s.stamps.touchSend now
    traffic := s.traffic.countWritten r.bytes.length }

/-- Where the writer goes on after a request was written. -/
def phaseAfterWritten : Option Nat → WriterPhase
  | none => .idle
  | some flushed => .draining (flushed + 1)

/-- Where the writer goes on after a write has failed. -/
def phaseAfterFailure : Option Nat → WriterPhase
  | none => .stopping false
  | some flushed => .drained false flushed

/-- What the writer does next. -/
def writerMove (s : Session) (now : Duration) : WriterMove :=
  match s.writer with
  | .idle =>
    if s.mode ≠ .running then .go { s with writer := .stopping true } none
    else match s.queue with
      | [] => .wait
      | r :: queue => .go { s with queue := queue, writer := .writing r r.bytes none } none
  | .writing r [] flushed =>
    let s := (s.countWritten r now).log .trace
      s!"Session {s.label} wrote {r.bytes.length} bytes"
    let (s, due) := s.resolve r.operation .succeeded
    .go { s with writer := phaseAfterWritten flushed } due
  | .writing _ rest _ => .write rest
  | .failed r fault flushed =>
    let (s, due) := s.resolve r.operation (.error (.io fault))
    .go { s with writer := .breaking s!"write failed: {fault.message}" flushed .claiming } due
  | .breaking _ flushed (.done _) => .go { s with writer := phaseAfterFailure flushed } none
  | .breaking reason flushed stage =>
    let (stage, s) := s.closeStep (some reason) .abort stage
    .go { s with writer := .breaking reason flushed stage } none
  | .stopping healthy => .go { s with queueClosed := true, writer := .choosing healthy } none
  | .choosing healthy =>
    let writer := if healthy ∧ s.mode = .drain then WriterPhase.draining 0
      else .rejecting healthy 0
    .go { s with writer := writer } none
  | .draining flushed =>
    match s.queue with
    | [] => .go { s with writer := .drained true flushed } none
    | r :: queue =>
      .go { s with queue := queue, writer := .writing r r.bytes (some flushed) } none
  | .drained healthy flushed =>
    let s := if 0 < flushed then
        s.log .debug s!"Session {s.label} flushed {flushed} queued sends on close"
      else s
    .go { s with writer := .rejecting healthy 0 } none
  | .rejecting healthy dropped =>
    match s.queue with
    | r :: queue =>
      let (s, due) := { s with queue := queue }.resolve r.operation (.error .sessionClosed)
      .go { s with writer := .rejecting healthy (dropped + 1) } due
    | [] =>
      let s := if 0 < dropped then
          s.log .debug s!"Session {s.label} failed {dropped} queued sends on close"
        else s
      .finish { s with writer := .ended } healthy
  | .ended => .wait

/-- The session after the stream answered a write. -/
def afterWrite (s : Session) (answer : WriteAnswer) : Session :=
  match s.writer, answer with
  | .writing r rest flushed, .wrote count =>
    { s with writer := .writing r (rest.drop count) flushed }
  | .writing r _ flushed, .failed fault =>
    { s with writer := .failed r fault flushed }.log .warn
      s!"Session {s.label} write failed: {fault.message}"
  | _, _ => s

end Session

end PeerLink
