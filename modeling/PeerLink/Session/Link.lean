import PeerLink.Session.Reader
import PeerLink.Session.Writer

/-!
# Two ends of a pipe

A link joins a session to whatever is on the other end of a pipe: another session, or somebody
who reads and writes raw bytes. The tasks of the sessions take turns: the one at the front of the
ready list goes on until it has to wait, and whatever wakes a waiting task puts it at the back.

`Link.step` does one step of the task at the front. An operation that ends with it may have left
an ack, which is handed out to be run before the next step.
-/

namespace PeerLink

/-- The ends of a link. -/
inductive Side
  | near
  | far
  deriving DecidableEq, Repr

/-- The other end. -/
def Side.other : Side → Side
  | near => far
  | far => near

/-- The two tasks of a session. -/
inductive Role
  | writer
  | reader
  deriving DecidableEq, Repr

/-- A task of one of the sessions. -/
structure TaskId where
  side : Side
  role : Role
  deriving DecidableEq, Repr

/-- What is on the far end. -/
inductive FarEnd
  | session (s : Session)
  /-- Somebody who reads and writes bytes. -/
  | raw
  | gone

/-- A session, the pipe it runs over, and the other end. -/
structure Link where
  near : Session
  far : FarEnd
  /-- Carries what the near end writes. -/
  outward : Pipe
  /-- Carries what the far end writes. -/
  inward : Pipe
  /-- The tasks that can go on, in order. -/
  ready : List TaskId
  clock : Duration
  /-- The log of both sessions, latest first. -/
  journal : List LogEntry

namespace Link

/-- The session on a side, if there is one. -/
def session? (l : Link) : Side → Option Session
  | .near => some l.near
  | .far =>
    match l.far with
    | .session s => some s
    | _ => none

/-- Puts a task at the back of the ready list, unless it is on it. -/
def wake (l : Link) (t : TaskId) : Link :=
  if t ∈ l.ready then l else { l with ready := l.ready ++ [t] }

/-- The link with a session replaced and the session's log moved to the link's. -/
def putSession (l : Link) (side : Side) (s : Session) : Link :=
  let l := { l with journal := s.journal ++ l.journal }
  let s := { s with journal := [] }
  match side with
  | .near => { l with near := s }
  | .far => { l with far := .session s }

/-- The pipe that a side writes to. -/
def outgoing (l : Link) : Side → Pipe
  | .near => l.outward
  | .far => l.inward

/-- The link with the pipe replaced that a side writes to. -/
def putOutgoing (l : Link) (side : Side) (p : Pipe) : Link :=
  match side with
  | .near => { l with outward := p }
  | .far => { l with inward := p }

/-! ## Waking -/

/-- The writer waits for a request or for the end of the session. -/
def writerIdles (s : Session) : Bool := s.writer matches .idle

/-- The reader waits for bytes or for the end of the session. -/
def readerListens (s : Session) : Bool := s.reader matches .reading

/-- The reader waits for room in the event channel. -/
def readerDelivers (s : Session) : Bool :=
  match s.reader with
  | .delivering _ | .announcing _ => true
  | _ => false

/-- Replaces a session and wakes the tasks that its change concerns. -/
def update (l : Link) (side : Side) (s : Session) : Link :=
  match l.session? side with
  | none => l
  | some old =>
    let closing := old.mode = .running ∧ s.mode ≠ .running
    let l := l.putSession side s
    let l := if writerIdles s ∧ (closing ∨ old.queue.length < s.queue.length)
      then l.wake ⟨side, .writer⟩ else l
    let l := if readerListens s ∧ closing then l.wake ⟨side, .reader⟩ else l
    if readerDelivers s ∧ (s.events.length < old.events.length ∨ old.listening ≠ s.listening)
      then l.wake ⟨side, .reader⟩ else l

/-- Replaces a pipe and wakes the task that no longer has to wait for it. -/
def updatePipe (l : Link) (writer : Side) (p : Pipe) : Link :=
  let old := l.outgoing writer
  let l := l.putOutgoing writer p
  let l := if old.readerWaits && !p.readerWaits then l.wake ⟨writer.other, .reader⟩ else l
  if old.writerWaits && !p.writerWaits then l.wake ⟨writer, .writer⟩ else l

/-- A side writes bytes. -/
def write (l : Link) (side : Side) (bytes : Bytes) : WriteAnswer × Link :=
  let (answer, p) := (l.outgoing side).write bytes
  (answer, l.updatePipe side p)

/-- A side reads up to `count` bytes. -/
def read (l : Link) (side : Side) (count : Nat) : ReadAnswer × Link :=
  let (answer, p) := (l.outgoing side.other).read count
  (answer, l.updatePipe side.other p)

/-- A side writes no more. -/
def shutdown (l : Link) (side : Side) : Link :=
  l.updatePipe side (l.outgoing side).closeWriting

/-- A side is gone: the other one finds the end of its bytes, and nobody to write to. -/
def dropEnd (l : Link) (side : Side) : Link :=
  let l := l.shutdown side
  l.updatePipe side.other (l.outgoing side.other).closeReading

/-- A session lets go of its end when both its tasks have ended. -/
def releaseEnd (l : Link) (side : Side) : Link :=
  match l.session? side with
  | none => l
  | some s =>
    if s.writer = .ended ∧ s.reader = .ended then l.dropEnd side else l

/-! ## Steps -/

/-- Takes a task off the ready list. -/
def rest (l : Link) (t : TaskId) : Link := { l with ready := l.ready.erase t }

/-- One step of a writer. -/
def stepWriter (l : Link) (side : Side) (s : Session) : Link × Option Firing :=
  let t : TaskId := ⟨side, .writer⟩
  match s.writerMove l.clock with
  | .wait => (l.rest t, none)
  | .go s due => (l.update side s, due.map DueAck.firing)
  | .write bytes =>
    match l.write side bytes with
    | (.blocked, l) => (l.rest t, none)
    | (answer, l) => (l.update side (s.afterWrite answer), none)
  | .finish s shutdown =>
    let l := l.update side s
    let l := if shutdown then l.shutdown side else l
    ((l.releaseEnd side).rest t, none)

/-- One step of a reader. -/
def stepReader (l : Link) (side : Side) (s : Session) : Link :=
  let t : TaskId := ⟨side, .reader⟩
  match s.readerMove l.clock with
  | .wait => l.rest t
  | .go s => l.update side s
  | .read s room =>
    match l.read side room with
    | (.blocked, l) => (l.update side s).rest t
    | (answer, l) => l.update side (s.afterRead answer)
  | .finish s => ((l.update side s).releaseEnd side).rest t

/-- One step of the task at the front; nothing if every task waits. -/
def step (l : Link) : Option (Link × Option Firing) :=
  match l.ready with
  | [] => none
  | t :: _ =>
    match l.session? t.side with
    | none => some (l.rest t, none)
    | some s =>
      match t.role with
      | .writer => some (l.stepWriter t.side s)
      | .reader => some (l.stepReader t.side s, none)

/-! ## What callers do -/

/-- Two ends joined by a fresh pipe. -/
def connect (near : Session) (far : FarEnd) (capacity : Nat) (clock : Duration) : Link :=
  let tasks (side : Side) : List TaskId := [⟨side, .writer⟩, ⟨side, .reader⟩]
  let ready := match far with
    | .session _ => tasks .near ++ tasks .far
    | _ => tasks .near
  let l : Link :=
    { near := near, far := far, outward := { capacity := capacity },
      inward := { capacity := capacity }, ready := ready, clock := clock, journal := [] }
  match far with
  | .session s => (l.putSession .near near).putSession .far s
  | _ => l.putSession .near near

/-- A caller changes a session and gets an answer. -/
def call {α : Type} (l : Link) (side : Side) (f : Session → α × Session) : Option (α × Link) :=
  (l.session? side).map fun s =>
    let (answer, s) := f s
    (answer, l.update side s)

/-- Sends through a session; nothing if the caller is aborted. -/
def send (l : Link) (side : Side) (p : Payload) : Option (Nat × Link) := do
  let s ← l.session? side
  let (n, s) ← s.send p l.clock
  some (n, l.update side s)

/-- Clients are bound to the near session. -/
instance : SessionHost Link where
  label l := l.near.label
  remote? l := l.near.remote
  isClosed l := l.near.closed
  slots l := l.near.slots
  setSlots l slots := { l with near := { l.near with slots := slots } }
  stamps l := l.near.stamps
  board l := l.near.board
  setBoard l board := { l with near := { l.near with board := board } }
  send l p := l.send .near p
  close l :=
    let (answer, s) := l.near.close
    (answer, l.update .near s)
  log l e := { l with journal := e :: l.journal }

end Link

end PeerLink
