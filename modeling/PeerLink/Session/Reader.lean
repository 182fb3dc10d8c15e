import PeerLink.Session.Basic
import PeerLink.Session.Pipe

/-!
# The reader of a session

The reader decodes all it has read, reporting each frame, before it looks at the stream again.
Reporting waits while the event channel is full. It stops when the session is closed, when the
stream ends or fails, or when a frame is refused; it then closes the session, if nobody has yet,
and reports the end.

As for the writer, `Session.readerMove` says what comes next and `Session.afterRead` takes the
answer of the stream.
-/

namespace PeerLink

/-- What a reader does next. -/
inductive ReaderMove
  /-- Wait until there is something to do. -/
  | wait
  /-- Go on with the session changed. -/
  | go (s : Session)
  /-- Ask the stream for up to `room` bytes, with the session changed. -/
  | read (s : Session) (room : Nat)
  /-- Stop, leaving the session as it is. -/
  | finish (s : Session)

namespace Session

/-- The session with room for a read in its buffer. -/
def makeRoom (s : Session) : Session :=
  { s with buffer := s.buffer.reserve s.holdsFrames }

/-- What the reader does next. -/
def readerMove (s : Session) (now : Duration) : ReaderMove :=
  match s.reader with
  | .starting =>
    if s.config.hasBuffer then .go { s with reader := .decoding }
    else .finish { s with reader := .ended }
  | .decoding =>
    match Frame.decode s.frameLimit s.buffer.unread with
    | .incomplete => .go { s with reader := .reading }
    | .failed e =>
      .go ({ s with reader := .closing (some s!"decode failed: {e.message}") .claiming }.log .error
        s!"Frame decode error on session {s.label}: {e.message}")
    | .frame f rest =>
      let s := { s with
        buffer := s.buffer.advance rest
        stamps := s.stamps.touchReceive now
        traffic := s.traffic.countDecoded
        reader := .delivering f }
      .go (s.log .trace (s!"Session {s.label} received frame type {f.typeCode.toNat} " ++
        s!"({f.body.length} bytes)"))
  | .delivering f =>
    if !s.listening then
      .go ({ s with reader := .decoding }.log .debug
        s!"Session {s.label} event receiver dropped")
    else if s.hasEventRoom then
      .go { s with events := s.events ++ [.message f s.buffer.serial], reader := .decoding }
    else .wait
  | .reading =>
    if s.mode ≠ .running then .go { s with reader := .closing none .claiming }
    else .read s.makeRoom s.makeRoom.buffer.free
  | .closing reason (.done _) =>
    .go ({ s with reader := .announcing reason }.log .info
      s!"Session {s.label} ended. Stats: {s.trafficText}")
  | .closing reason stage =>
    let (stage, s) := s.closeStep reason .abort stage
    .go { s with reader := .closing reason stage }
  | .announcing reason =>
    if !s.listening then .finish { s with reader := .ended }
    else if s.hasEventRoom then
      .finish { s with events := s.events ++ [.closed reason], reader := .ended }
    else .wait
  | .ended => .wait

/-- The session after the stream answered a read. -/
def afterRead (s : Session) (answer : ReadAnswer) : Session :=
  match answer with
  | .received bytes =>
    { s with
      buffer := s.buffer.append bytes
      traffic := s.traffic.countRead bytes.length
      reader := .decoding }
  | .atEnd => { s with reader := .closing (some "connection closed by peer") .claiming }
  | .blocked => s
  | .failed fault =>
    { s with reader := .closing (some s!"read failed: {fault.message}") .claiming }.log .warn
      s!"Session {s.label} read failed: {fault.message}"

end Session

end PeerLink
