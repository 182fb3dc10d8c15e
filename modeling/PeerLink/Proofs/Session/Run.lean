import PeerLink.Proofs.Pending.Results
import PeerLink.Proofs.Steps
import PeerLink.Session.Reader
import PeerLink.Session.Writer

/-!
# Runs of a session

A session is used by any number of callers at once, while its writer and its
reader go on by themselves.  A `Run` is a session in the middle of all that:
the session, the calls that are under way, and what an observer has written
down so far.  One `RunEvent` is one atomic step of somebody, and `Run.step?`
says what it does; the steps of the session itself are those of
`PeerLink.Session.Basic`, `PeerLink.Session.Writer` and
`PeerLink.Session.Reader`, in any order.

* A send looks at the session in one step and hands its bytes to the queue in
  another, so a close may come in between.
* A close claims the closing, leaves its reason and tells the tasks in three
  steps, whoever it is that closes.
* The stream answers a write with any number of bytes, or with a failure, even
  after it has taken every byte (a flush that fails); it answers a read with
  any bytes, with its end, or with a failure.
* The writer looks at the mode and at the queue one after the other, and so
  does the reader at the mode and the stream.  `take`, `got`, `atEnd` and
  `failRead` therefore do not ask for the mode again.
* What an ack does when it is run is done by callers: it may be any of the
  events that callers have, at any later moment.

The observer writes down changes of the board and of the closed flag by
comparing the session before a step with the session after it
(`Run.setSession`), not by asking whoever took the step.

## Main results

* `Run.session_start` — the session of a run at its beginning.
-/

namespace PeerLink

/-- How far a send of a session has come. -/
inductive SendingStage
  /-- Look at the session, and frame the payload. -/
  | looking
  /-- Hand the bytes to the queue. -/
  | queueing (bytes : Bytes)
  /-- Nothing more; the call has returned an operation. -/
  | returned (operation : Nat)
  /-- Nothing more; the caller was aborted. -/
  | aborted
  deriving DecidableEq

/-- A send that a caller has begun. -/
structure Sending where
  payload : Payload
  stage : SendingStage := .looking

/-- Who closes a session. -/
inductive Closer
  | caller
  | writer
  | reader
  deriving DecidableEq, Repr

/-- A write that has failed. -/
structure BrokenWrite where
  request : WriteRequest
  /-- The bytes that the stream had not taken. -/
  left : Bytes
  fault : IoFault

/-- Why a reader stopped. -/
inductive ReaderStop
  /-- It saw that the session was closed. -/
  | told
  /-- A frame was refused. -/
  | refused (error : TransportError)
  /-- The stream came to its end. -/
  | atEnd
  /-- A read failed. -/
  | failed (fault : IoFault)

/-- A request that was handed to the queue, with the payload it was framed from. -/
structure Handover where
  payload : Payload
  request : WriteRequest

/-- A session with the calls under way and the observer's notes. -/
structure Run where
  session : Session
  clock : Duration
  /-- Every send that was begun, by its number. -/
  sends : List Sending := []
  /-- Every local close that was begun, by its number. -/
  closes : List ClosingStage := []
  /-- The requests that the queue took, in order. -/
  entered : List Handover := []
  /-- The requests that the queue handed back because it was closed. -/
  handedBack : List Handover := []
  /-- The bytes that the stream has taken. -/
  wire : Bytes := []
  /-- The requests whose write was completed, in order. -/
  written : List WriteRequest := []
  /-- The write that failed. -/
  broken : Option BrokenWrite := none
  /-- Whose close took effect. -/
  winner : Option Closer := none
  /-- Each change of a result on the board, in order. -/
  endings : List (Nat × SendResult) := []
  /-- Each ack that was run, in order. -/
  fired : List Firing := []
  /-- The bytes that the stream has given. -/
  received : Bytes := []
  /-- The frames whose report was made, or given up because nobody listens. -/
  reported : List Frame := []
  /-- The frames that were put into the event channel. -/
  emitted : List Frame := []
  /-- Why the reader stopped. -/
  stop : Option ReaderStop := none

/-! ## What others may do to a session -/

/-- A call that neither sends nor closes. -/
inductive OutsideCall
  /-- Asks to have an ack run when an operation ends. -/
  | watch (operation : Nat) (ack : Ack)
  /-- Takes the ack off an operation. -/
  | unwatch (operation : Nat)
  | attach (key : SlotKey) (value : SlotValue)
  | remove (key : SlotKey)
  | receive (count : Nat)
  | stopListening
  | log (entry : LogEntry)

/-- The session after such a call. -/
def Session.outside (s : Session) : OutsideCall → Session
  | .watch n ack => { s with board := (s.board.onComplete n ack).2 }
  | .unwatch n => { s with board := (s.board.takeCallback n).2 }
  | .attach key value => { s with slots := s.slots.attach key value }
  | .remove key => { s with slots := s.slots.remove key }
  | .receive count => (s.receive count).2
  | .stopListening => s.stopListening
  | .log entry => { s with journal := entry :: s.journal }

/-! ## Reading off what a task is at -/

/-- What a move of the writer leaves, unless it waits or asks the stream. -/
def WriterMove.outcome? : WriterMove → Option (Session × Option Firing)
  | .go s due => some (s, due.map DueAck.firing)
  | .finish s _ => some (s, none)
  | _ => none

/-- What a move of the reader leaves, unless it waits or asks the stream. -/
def ReaderMove.outcome? : ReaderMove → Option Session
  | .go s | .finish s => some s
  | _ => none

/-- The request whose last byte the stream has taken. -/
def WriterPhase.completed : WriterPhase → List WriteRequest
  | .writing r [] _ => [r]
  | _ => []

/-- The frame that is about to be reported. -/
def ReaderPhase.reporting : ReaderPhase → List Frame
  | .delivering f => [f]
  | _ => []

/-- The frames among events. -/
def SessionEvent.frame? : SessionEvent → Option Frame
  | .message f _ => some f
  | .closed _ => none

/-- Why the reader stops, if it does so with its next step. -/
def Session.stopCause (s : Session) : Option ReaderStop :=
  match s.reader with
  | .decoding =>
    match Frame.decode s.frameLimit s.buffer.unread with
    | .failed e => some (.refused e)
    | _ => none
  | .reading => if s.mode ≠ .running then some .told else none
  | _ => none

/-! ## Events -/

/-- One atomic step of a caller, of a task or of the stream. -/
inductive RunEvent
  /-- A caller begins a send. -/
  | send (payload : Payload)
  /-- A send looks at the session. -/
  | look (i : Nat)
  /-- A send hands its bytes to the queue. -/
  | enqueue (i : Nat)
  /-- A caller begins to close the session. -/
  | close
  /-- A local close does its next step. -/
  | closeStep (i : Nat)
  /-- The writer goes on by itself. -/
  | write
  /-- The writer, having found the session running, takes a request. -/
  | take
  /-- The stream takes some bytes. -/
  | put (count : Nat)
  /-- A write fails, or the flush after it. -/
  | failWrite (fault : IoFault)
  /-- The reader goes on by itself. -/
  | read
  /-- The stream gives some bytes. -/
  | got (bytes : Bytes)
  /-- The stream comes to its end. -/
  | atEnd
  | failRead (fault : IoFault)
  | outside (call : OutsideCall)
  /-- The clock is read anew. -/
  | tick (now : Duration)

namespace Run

/-- A run at its beginning. -/
def start (label : String) (remote : Option Address) (config : SessionConfig)
    (now : Duration) : Run :=
  { session := .start label remote config now, clock := now }

/-- The run with its session replaced in a step of `who`; the observer compares
the two. -/
def setSession (w : Run) (who : Closer) (s : Session) : Run :=
  { w with
    session := s
    winner := if w.session.closed = false ∧ s.closed = true then some who else w.winner
    endings := w.endings ++ w.session.board.endings s.board }

/-- The run with the stage of a send replaced. -/
def setStage (w : Run) (i : Nat) (p : Payload) (stage : SendingStage) : Run :=
  { w with sends := w.sends.set i ⟨p, stage⟩ }

/-- A send looks at the session. -/
def look (w : Run) (i : Nat) : Option Run :=
  match w.sends[i]? with
  | some ⟨p, .looking⟩ =>
    match w.session.startSend p with
    | .ended n s => some ((w.setSession .caller s).setStage i p (.returned n))
    | .framed bytes => some (w.setStage i p (.queueing bytes))
    | .aborted => some (w.setStage i p .aborted)
  | _ => none

/-- A send hands its bytes to the queue. -/
def enqueue (w : Run) (i : Nat) : Option Run :=
  match w.sends[i]? with
  | some ⟨p, .queueing bytes⟩ =>
    let (n, s) := w.session.enqueue bytes w.clock
    let handover : Handover := ⟨p, ⟨bytes, n⟩⟩
    let w' := (w.setSession .caller s).setStage i p (.returned n)
    if w.session.queueClosed then some { w' with handedBack := w.handedBack ++ [handover] }
    else some { w' with entered := w.entered ++ [handover] }
  | _ => none

/-- A local close does its next step. -/
def closeStep (w : Run) (i : Nat) : Option Run :=
  match w.closes[i]? with
  | none => none
  | some stage =>
    let (stage, s) := w.session.closeStep none .drain stage
    some { w.setSession .caller s with closes := w.closes.set i stage }

/-- The writer goes on by itself. -/
def write (w : Run) : Option Run :=
  match (w.session.writerMove w.clock).outcome? with
  | none => none
  | some (s, firing) =>
    some { w.setSession .writer s with
      written := w.written ++ w.session.writer.completed
      fired := w.fired ++ firing.toList }

/-- The writer takes a request. -/
def take (w : Run) : Option Run :=
  match w.session.writer, w.session.queue with
  | .idle, r :: queue =>
    some (w.setSession .writer
      { w.session with queue := queue, writer := .writing r r.bytes none })
  | _, _ => none

/-- The stream takes `count` of the bytes it was asked to take. -/
def put (w : Run) (count : Nat) : Option Run :=
  match w.session.writerMove w.clock with
  | .write bytes =>
    if 0 < count ∧ count ≤ bytes.length then
      some { w.setSession .writer (w.session.afterWrite (.wrote count)) with
        wire := w.wire ++ bytes.take count }
    else none
  | _ => none

/-- A write fails, or the flush after it. -/
def failWrite (w : Run) (fault : IoFault) : Option Run :=
  match w.session.writer with
  | .writing r rest _ =>
    some { w.setSession .writer (w.session.afterWrite (.failed fault)) with
      broken := some ⟨r, rest, fault⟩ }
  | _ => none

/-- The reader goes on by itself. -/
def read (w : Run) : Option Run :=
  match (w.session.readerMove w.clock).outcome? with
  | none => none
  | some s =>
    some { w.setSession .reader s with
      reported := w.reported ++ w.session.reader.reporting
      emitted := w.emitted ++
        (s.events.drop w.session.events.length).filterMap SessionEvent.frame?
      stop := w.session.stopCause.or w.stop }

/-- The stream answers the reader. -/
def answerRead (w : Run) (answer : ReadAnswer) (bytes : Bytes) (stop : Option ReaderStop) :
    Option Run :=
  match w.session.reader with
  | .reading =>
    some { w.setSession .reader (w.session.makeRoom.afterRead answer) with
      received := w.received ++ bytes
      stop := stop.or w.stop }
  | _ => none

/-- One step; nothing if the event is not possible now. -/
def step? (w : Run) : RunEvent → Option Run
  | .send p => some { w with sends := w.sends ++ [{ payload := p }] }
  | .look i => w.look i
  | .enqueue i => w.enqueue i
  | .close => some { w with closes := w.closes ++ [.claiming] }
  | .closeStep i => w.closeStep i
  | .write => w.write
  | .take => w.take
  | .put count => w.put count
  | .failWrite fault => w.failWrite fault
  | .read => w.read
  | .got bytes => if bytes = [] then none else w.answerRead (.received bytes) bytes none
  | .atEnd => w.answerRead .atEnd [] (some .atEnd)
  | .failRead fault => w.answerRead (.failed fault) [] (some (.failed fault))
  | .outside call => some (w.setSession .caller (w.session.outside call))
  | .tick now => some { w with clock := now }

/-- A sequence of steps; nothing if one of them is not possible. -/
abbrev exec (w : Run) (events : List RunEvent) : Option Run := events.foldlM step? w

/-- The run after a sequence of steps; it stays as it is if one of them is not
possible. -/
abbrev after (w : Run) (events : List RunEvent) : Run := stateAfter step? w events

/-- From one run to a later one. -/
abbrev Steps : Run → Run → Prop := Relation.ReflTransGen (Leads step?)

/-- A session begins, with any configuration. -/
inductive Begins : Run → Prop
  | start (label : String) (remote : Option Address) (config : SessionConfig)
      (now : Duration) : Begins (.start label remote config now)

/-- The run is a moment in the life of some session. -/
abbrev Reached (w : Run) : Prop := Reachable Begins (Leads step?) w

theorem Reached.start (label : String) (remote : Option Address) (config : SessionConfig)
    (now : Duration) : (Run.start label remote config now).Reached :=
  Reachable.start (.start label remote config now)

/-- The session of a run at its beginning; its log is left open. -/
theorem session_start (label : String) (remote : Option Address) (config : SessionConfig)
    (now : Duration) : ∃ journal, (start label remote config now).session =
      { label := label, remote := remote, stamps := .started now,
        config := { config with maxFrameSize := Frame.effectiveLimit config.maxFrameSize },
        buffer := .ofSize config.readBufferSize, journal := journal } := by
  simp only [start, Session.start]
  split <;> exact ⟨_, rfl⟩

end Run

end PeerLink
