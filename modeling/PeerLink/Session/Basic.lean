import PeerLink.Activity
import PeerLink.Client.Host
import PeerLink.Log.Level
import PeerLink.Pending.Board
import PeerLink.Session.ReadBuffer
import PeerLink.Slots

/-!
# Sessions

A session runs over a stream with two tasks. The writer takes requests from a queue, writes each
as a whole and ends its operation; the reader collects bytes, decodes frames and reports them as
events. Whoever closes the session first decides how it winds down: a local close lets the writer
finish its queue, a fault makes it give the queue up.

This module holds the state of a session and what its callers do to it. The steps of the two
tasks are in `PeerLink.Session.Writer` and `PeerLink.Session.Reader`.

## Main results

* `Session.closeStep_closeStep_closeStep` — three steps are a whole close.
-/

namespace PeerLink

/-- How a session is set up. -/
structure SessionConfig where
  /-- The most bytes of a frame in either direction. -/
  maxFrameSize : Nat := Frame.defaultLimit
  /-- The first size of the read buffer. -/
  readBufferSize : Nat := 64 * 1024
  /-- How many events may wait to be received. -/
  eventChannelCapacity : Nat := 1024
  /-- Bytes are sent without waiting for more of them. -/
  tcpNodelay : Bool := true
  deriving DecidableEq, Repr, Inhabited

namespace SessionConfig

/-- The largest capacity an event channel can have. -/
def maxCapacity : Nat := UInt64.size / 8 - 1

/-- The largest block of memory that can be asked for. -/
def maxBlock : Nat := UInt64.size / 2 - 1

/-- An event channel can be made. -/
def hasChannel (c : SessionConfig) : Bool :=
  0 < c.eventChannelCapacity && c.eventChannelCapacity ≤ maxCapacity

/-- A read buffer can be made. -/
def hasBuffer (c : SessionConfig) : Bool := c.readBufferSize ≤ maxBlock

end SessionConfig

/-- How the tasks of a session are to wind down. -/
inductive Mode
  /-- Not at all. -/
  | running
  /-- The queue is written first. -/
  | drain
  /-- The queue is given up. -/
  | abort
  deriving DecidableEq, Repr

/-- A send that waits to be written. -/
structure WriteRequest where
  bytes : Bytes
  operation : Nat
  deriving DecidableEq, Repr

/-- How much a session has read and written, modulo 2^64. -/
structure Traffic where
  bytesIn : Nat := 0
  bytesOut : Nat := 0
  framesReceived : Nat := 0
  framesSent : Nat := 0
  deriving DecidableEq, Repr, Inhabited

namespace Traffic

/-- A counter that has gone on by `n`. -/
def advance (counter n : Nat) : Nat := (counter + n) % UInt64.size

/-- Going on from a number that was counted modulo 2^64. -/
theorem advance_mod (m n : Nat) : advance (m % UInt64.size) n = (m + n) % UInt64.size := by
  rw [advance, Nat.mod_add_mod]

/-- Some bytes were read. -/
def countRead (t : Traffic) (bytes : Nat) : Traffic :=
  { t with bytesIn := advance t.bytesIn bytes }

/-- A frame was decoded. -/
def countDecoded (t : Traffic) : Traffic :=
  { t with framesReceived := advance t.framesReceived 1 }

/-- A request of so many bytes was written. -/
def countWritten (t : Traffic) (bytes : Nat) : Traffic :=
  { t with bytesOut := advance t.bytesOut bytes, framesSent := advance t.framesSent 1 }

end Traffic

/-- What a session reports. -/
inductive SessionEvent
  /-- A frame has arrived; it lies in the block of the read buffer with this serial number. -/
  | message (frame : Frame) (serial : Nat)
  /-- The session has ended, because of a fault if there is a reason. -/
  | closed (reason : Option String)
  deriving DecidableEq, Repr

/-- What a close of a session does next. -/
inductive ClosingStage
  /-- Claim the closing. -/
  | claiming
  /-- Leave the reason. -/
  | recording
  /-- Tell the tasks. -/
  | publishing
  /-- Nothing more; `effective` says whether the session was open. -/
  | done (effective : Bool)
  deriving DecidableEq, Repr

/-- What the writer does next. -/
inductive WriterPhase
  /-- Wait for a request or for the end of the session. -/
  | idle
  /-- Write the rest of a request. While the queue is being finished, `flushed` requests of it
  have been written. -/
  | writing (request : WriteRequest) (rest : Bytes) (flushed : Option Nat)
  /-- End a request whose write failed. -/
  | failed (request : WriteRequest) (fault : IoFault) (flushed : Option Nat)
  /-- Close the session because a write failed. -/
  | breaking (reason : String) (flushed : Option Nat) (stage : ClosingStage)
  /-- Take no more requests. -/
  | stopping (healthy : Bool)
  /-- See whether the queue is to be finished. -/
  | choosing (healthy : Bool)
  /-- Finish the queue. -/
  | draining (flushed : Nat)
  /-- Count what was finished. -/
  | drained (healthy : Bool) (flushed : Nat)
  /-- Give up what is left of the queue. -/
  | rejecting (healthy : Bool) (dropped : Nat)
  | ended
  deriving DecidableEq

/-- What the reader does next. -/
inductive ReaderPhase
  /-- Make the read buffer. -/
  | starting
  /-- Look for a frame in what has been read. -/
  | decoding
  /-- Report a frame. -/
  | delivering (frame : Frame)
  /-- Wait for bytes or for the end of the session. -/
  | reading
  /-- Close the session. -/
  | closing (reason : Option String) (stage : ClosingStage)
  /-- Report the end. -/
  | announcing (reason : Option String)
  | ended
  deriving DecidableEq

/-- A session over a stream. -/
structure Session where
  /-- The number that texts show for it. -/
  label : String
  remote : Option Address
  config : SessionConfig
  closed : Bool := false
  mode : Mode := .running
  /-- Sends that were taken on and not written yet. -/
  queue : List WriteRequest := []
  /-- The queue takes no more requests. -/
  queueClosed : Bool := false
  slots : Slots := {}
  stamps : Stamps
  traffic : Traffic := {}
  /-- The operations of its sends. -/
  board : Board Ack := .empty
  /-- Events that wait to be received. -/
  events : List SessionEvent := []
  /-- Somebody receives events. -/
  listening : Bool := true
  buffer : ReadBuffer
  writer : WriterPhase := .idle
  reader : ReaderPhase := .starting
  /-- The log, latest first. -/
  journal : List LogEntry := []

namespace Session

/-- The session with one more entry in its log. -/
def log (s : Session) (level : Level) (message : String) : Session :=
  { s with journal := { level := level, message := message } :: s.journal }

/-- The most bytes of a frame. -/
def frameLimit (s : Session) : Nat := s.config.maxFrameSize

/-- A session over a stream that has just been connected. -/
def start (label : String) (remote : Option Address) (config : SessionConfig) (now : Duration) :
    Session :=
  let clamped := { config with maxFrameSize := Frame.effectiveLimit config.maxFrameSize }
  let s : Session :=
    { label := label, remote := remote, config := clamped, stamps := .started now,
      buffer := .ofSize clamped.readBufferSize }
  let s := if Frame.wireLimit < config.maxFrameSize then
      s.log .warn (s!"max_frame_size {config.maxFrameSize} exceeds the wire limit; " ++
        s!"using {Frame.wireLimit}")
    else s
  let peer := match remote with
    | none => "None"
    | some address => s!"Some({address})"
  s.log .info s!"Starting session {label} with {peer}"

/-- The session as a nested term, with a number in it. -/
def debugText (s : Session) (number : String) : String :=
  let peer := match s.remote with
    | none => "None"
    | some address => s!"Some({address})"
  s!"StreamSession \x7b id: {number}, peer: {peer}, closed: {s.closed} \x7d"

/-- What the session has read and written, as a nested term. -/
def trafficText (s : Session) : String :=
  s!"SessionStats \x7b bytes_in: {s.traffic.bytesIn}, bytes_out: {s.traffic.bytesOut}, " ++
    s!"frames_received: {s.traffic.framesReceived}, frames_sent: {s.traffic.framesSent} \x7d"

/-- Why the session was closed, if by a fault. -/
def lastError? (s : Session) : Option String :=
  (s.slots.get? .lastError).bind SlotValue.text?

/-! ## Closing

A close is three steps: claim the closing, leave the reason, and tell the tasks. A task of the
session closes it one step at a time. -/

/-- Claims the closing; says whether the session was open. -/
def claimClose (s : Session) : Bool × Session := (!s.closed, { s with closed := true })

/-- Leaves the reason of a close. -/
def recordReason (s : Session) : Option String → Session
  | none => s.log .info s!"Session {s.label} closed"
  | some reason =>
    { s with slots := s.slots.attach .lastError (.text reason) }.log .info
      s!"Session {s.label} closed: {reason}"

/-- Tells the tasks how to wind down. -/
def publish (s : Session) (mode : Mode) : Session := { s with mode := mode }

/-- Closes the session; says whether this close took effect. -/
def closeWith (s : Session) (reason : Option String) (mode : Mode) : Bool × Session :=
  match s.claimClose with
  | (false, s) => (false, s)
  | (true, s) => (true, (s.recordReason reason).publish mode)

/-- Does one step of a close. -/
def closeStep (s : Session) (reason : Option String) (mode : Mode) :
    ClosingStage → ClosingStage × Session
  | .claiming =>
    match s.claimClose with
    | (false, s) => (.done false, s)
    | (true, s) => (.recording, s)
  | .recording => (.publishing, s.recordReason reason)
  | .publishing => (.done true, s.publish mode)
  | .done effective => (.done effective, s)

/-- Closes the session and lets the writer finish its queue. -/
def close (s : Session) : Bool × Session := s.closeWith none .drain

/-! ## Sending

A send looks at the session first, and puts its bytes into the queue in a second step; the session
may have been closed in between. -/

/-- What a send finds when it looks at the session. -/
inductive SendStart
  /-- The operation has ended at once. -/
  | ended (operation : Nat) (session : Session)
  /-- The bytes go into the queue. -/
  | framed (bytes : Bytes)
  /-- The caller is aborted. -/
  | aborted

/-- A new operation that has ended already. -/
def refuse (s : Session) (e : TransportError) : Nat × Session :=
  (s.board.size, { s with board := s.board.push (.resolved (.error e)) })

/-- Puts bytes at the end of the queue, under a new operation. -/
def enqueue (s : Session) (bytes : Bytes) (now : Duration) : Nat × Session :=
  let n := s.board.size
  let s := { s with board := s.board.push .pending, stamps := s.stamps.touchSchedule now }
  if s.queueClosed then
    (n, { s with board := (s.board.complete n (.error .sessionClosed)).2 })
  else (n, { s with queue := s.queue ++ [⟨bytes, n⟩] })

/-- Ends a send at once. -/
def SendStart.ofRefusal (s : Session) (e : TransportError) : SendStart :=
  .ended (s.refuse e).1 (s.refuse e).2

/-- Looks at the session for a send, and frames the payload. -/
def startSend (s : Session) (p : Payload) : SendStart :=
  if s.closed then .ofRefusal s .sessionClosed
  else match p.encode s.frameLimit with
    | .aborted => .aborted
    | .refused e =>
      .ofRefusal (s.log .debug s!"Session {s.label} rejected send: {e.message}") e
    | .framed bytes => .framed bytes

/-- Takes a payload; the answer is the number of its operation, or nothing if the caller is
aborted. -/
def send (s : Session) (p : Payload) (now : Duration) : Option (Nat × Session) :=
  match s.startSend p with
  | .ended n s => some (n, s)
  | .framed bytes => some (s.enqueue bytes now)
  | .aborted => none

/-! ## Receiving events -/

/-- Takes up to `count` events. -/
def receive (s : Session) (count : Nat) : List SessionEvent × Session :=
  (s.events.take count, { s with events := s.events.drop count })

/-- Nobody receives events any more. -/
def stopListening (s : Session) : Session := { s with events := [], listening := false }

/-- An event may be reported without waiting. -/
def hasEventRoom (s : Session) : Bool := s.events.length < s.config.eventChannelCapacity

/-- Frames of the present block are held by events. -/
def holdsFrames (s : Session) : Bool :=
  s.events.any fun
    | .message _ serial => serial == s.buffer.serial
    | .closed _ => false

/-! ## What a close does -/

@[simp] theorem closed_recordReason (s : Session) (reason : Option String) :
    (s.recordReason reason).closed = s.closed := by
  cases reason <;> rfl

@[simp] theorem mode_recordReason (s : Session) (reason : Option String) :
    (s.recordReason reason).mode = s.mode := by
  cases reason <;> rfl

/-- A reason goes into the slot of the last error; without one the slot stays. -/
theorem lastError_recordReason (s : Session) (reason : Option String) :
    (s.recordReason reason).slots.lastError = (reason.map .text).or s.slots.lastError := by
  cases reason <;> rfl

theorem closeStep_closeStep_closeStep (s : Session) (reason : Option String) (mode : Mode) :
    let step (p : ClosingStage × Session) := p.2.closeStep reason mode p.1
    step (step (step (.claiming, s))) =
      (.done (s.closeWith reason mode).1, (s.closeWith reason mode).2) := by
  simp only [closeStep, closeWith, claimClose]
  cases s.closed <;> rfl

end Session

end PeerLink
