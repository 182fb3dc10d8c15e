import PeerLink.Client.Closing
import PeerLink.Session.Basic
import PeerLink.Settings.Basic

/-!
# Listening nodes

A listening node wraps every session that a peer opens in a client and keeps the clients in a
table. Three tasks share the table. One accepts: it starts the session, binds a client to it, and
enters it. One handles the events of all sessions, which arrive in one channel: when a session has
ended, its client leaves the table and is closed by force. One sweeps: from time to time it notes
which clients have been idle for too long, and then takes them out and closes them. A sweep interval
of zero ends the sweeping task as soon as it begins; the others go on without it.

`Listener.step` does one atomic step of one task; what the sessions do on their own comes from
outside. While the sweeping task takes clients out, nobody else may change the table.
-/

namespace PeerLink

/-- A session that was accepted, with the client bound to it. -/
structure Connection (σ : Type) where
  peer : Address
  group : ClientGroup σ

/-- What the accepting task does next. -/
inductive AcceptStage
  | waiting
  /-- Bind a client to the session with a number. -/
  | binding (n : Nat)
  /-- Enter the client of the session with a number. -/
  | entering (n : Nat)
  deriving DecidableEq, Repr

/-- What the sweeping task does next. -/
inductive SweepStage
  | waiting
  /-- Ask for the table, to take these clients out. -/
  | noted (idle : List Nat)
  /-- Take these clients out, while nobody else may change the table. -/
  | taking (idle : List Nat)
  /-- Nothing more; there is no ticker that says when to look. -/
  | ended
  deriving DecidableEq, Repr

/-- A node that listens. -/
structure Listener (σ : Type) where
  /-- How long a client may be idle. -/
  idleTimeout : Duration
  clock : Duration
  /-- Every session that was accepted, by its number. -/
  connections : Array (Connection σ) := #[]
  /-- The sessions whose clients are in the table. -/
  table : List Nat := []
  /-- The events that wait to be handled, with the sessions they come from. -/
  channel : List (Nat × SessionEvent) := []
  accepting : AcceptStage := .waiting
  sweeping : SweepStage := .waiting
  /-- The log, latest first. -/
  journal : List LogEntry := []

/-- A step of a listening node, or something that happens to it. -/
inductive ListenerMove (σ : Type)
  /-- A peer connects, and its session starts. -/
  | accept (peer : Address) (session : σ)
  /-- The accepting task binds a client. -/
  | bind
  /-- The accepting task enters the client into the table. -/
  | insert
  /-- A session changes on its own and reports events. -/
  | session (n : Nat) (session : σ) (events : List SessionEvent)
  /-- The next event is handled. -/
  | handle
  /-- Time goes on. -/
  | wait (d : Duration)
  /-- The sweeping task notes who is idle. -/
  | note
  /-- The sweeping task gets the table. -/
  | lock
  /-- The sweeping task takes the next client out, or gives the table back. -/
  | evict
  /-- The node is told to end. -/
  | interrupt

namespace Listener

variable {σ : Type} [SessionHost σ]

/-- A node that begins to listen. The sweeping task makes its ticker first, and fails if it
cannot. -/
def start (s : Settings) (clock : Duration) : Listener σ :=
  { idleTimeout := s.idleTimeout
    clock := clock
    sweeping := if s.hasTicker then .waiting else .ended }

/-- Nobody keeps the others from changing the table. -/
def isFree (l : Listener σ) : Bool :=
  match l.sweeping with
  | .taking _ => false
  | _ => true

/-- The client of a session can no longer be used. -/
def isClosed (l : Listener σ) (n : Nat) : Bool :=
  match l.connections[n]? with
  | none => false
  | some c => (c.group.client? 0).any (·.gate.isClosed)

/-- How long a session has been idle. -/
def idleTime (l : Listener σ) (n : Nat) : Duration :=
  match l.connections[n]? with
  | none => ⟨0⟩
  | some c => (SessionHost.stamps c.group.session).idleAt l.clock

/-- The text that names the client of a session. -/
def describe (l : Listener σ) (n : Nat) : String :=
  match l.connections[n]? with
  | none => ""
  | some c => c.group.describeAt 0

/-- The node with an entry in its log. -/
def log (l : Listener σ) (level : Level) (component : Option String) (message : String) :
    Listener σ :=
  { l with journal := { level := level, message := message, component := component } :: l.journal }

/-- The node with one of its connections changed. -/
def modify (l : Listener σ) (n : Nat) (f : ClientGroup σ → ClientGroup σ) : Listener σ :=
  { l with connections := l.connections.modify n fun c => { c with group := f c.group } }

/-- The node with a client out of the table. -/
def erase (l : Listener σ) (n : Nat) : Listener σ := { l with table := l.table.erase n }

/-! ## Accepting -/

/-- Starts a session with a peer. -/
def accept (l : Listener σ) (peer : Address) (session : σ) : Option (Listener σ) :=
  match l.accepting with
  | .waiting =>
    some { l with
      connections := l.connections.push ⟨peer, { session := session }⟩
      accepting := .binding l.connections.size }
  | _ => none

/-- Binds a client to the session that was just started. -/
def bind (l : Listener σ) : Option (Listener σ) :=
  match l.accepting with
  | .binding n =>
    match l.connections[n]? with
    | none => none
    | some c =>
      let l := l.modify n fun g => g.bind.2
      let l := l.log .info (some "pool") s!"Accepted {c.peer.text} as {l.describe n}"
      some { l with accepting := .entering n }
  | _ => none

/-- Enters the client into the table. -/
def insert (l : Listener σ) : Option (Listener σ) :=
  match l.accepting with
  | .entering n =>
    if l.isFree then some { l with table := n :: l.table, accepting := .waiting } else none
  | _ => none

/-! ## Events -/

/-- What the log says about a frame. -/
def frameText (l : Listener σ) (n : Nat) (f : Frame) : String :=
  let label := match l.connections[n]? with
    | none => ""
    | some c => SessionHost.label c.group.session
  s!"Received message type {f.typeCode.toNat} ({f.body.length} bytes) on session {label}"

/-- The end of a session takes its client out of the table and closes it by force. -/
def dropClient (l : Listener σ) (n : Nat) (reason : Option String) : Listener σ :=
  if l.table.contains n then
    let l := (l.erase n).modify n fun g => g.forceClose 0
    let why := reason.getD "closed"
    l.log .info (some "pool") s!"Dropped {l.describe n} ({why})"
  else l

/-- Handles the next event; the end of a session needs the table. -/
def handle (l : Listener σ) : Option (Listener σ) :=
  match l.channel with
  | [] => none
  | (n, .message f _) :: rest =>
    some ({ l with channel := rest }.log .debug none (l.frameText n f))
  | (n, .closed reason) :: rest =>
    if l.isFree then some ({ l with channel := rest }.dropClient n reason) else none

/-! ## Sweeping -/

/-- The clients in the table that have been idle for too long. -/
def idleClients (l : Listener σ) : List Nat := l.table.filter fun n => l.idleTimeout < l.idleTime n

/-- Notes who is idle; nothing is to be done if nobody is. -/
def note (l : Listener σ) : Option (Listener σ) :=
  match l.sweeping with
  | .waiting =>
    let idle := l.idleClients
    some { l with sweeping := if idle.isEmpty then .waiting else .noted idle }
  | _ => none

/-- Keeps the others from changing the table. -/
def lock (l : Listener σ) : Option (Listener σ) :=
  match l.sweeping with
  | .noted idle => some { l with sweeping := .taking idle }
  | _ => none

/-- Takes a client out of the table and closes it. -/
def evictClient (l : Listener σ) (n : Nat) : Listener σ :=
  match l.connections[n]? with
  | none => l
  | some c =>
    if l.table.contains n then
      let idle := l.idleTime n
      let (answer, g) := c.group.close 0
      let l := (l.erase n).modify n fun _ => g
      if answer then
        l.log .info (some "pool") s!"Evicted {l.describe n} after {idle.text} idle"
      else l
    else l

/-- Takes the next client out, or gives the table back. -/
def evict (l : Listener σ) : Option (Listener σ) :=
  match l.sweeping with
  | .taking [] => some { l with sweeping := .waiting }
  | .taking (n :: rest) => some ({ l with sweeping := .taking rest }.evictClient n)
  | _ => none

/-! ## All steps -/

/-- Closes every client in the table and empties it. -/
def shutDown (l : Listener σ) : Listener σ :=
  let l := l.log .info none "Shutting down"
  { l.table.foldl (fun l n => l.modify n fun g => (g.close 0).2) l with table := [] }

/-- Does one step; nothing if it is not possible now. -/
def step (l : Listener σ) : ListenerMove σ → Option (Listener σ)
  | .accept peer session => l.accept peer session
  | .bind => l.bind
  | .insert => l.insert
  | .session n session events =>
    some { l.modify n (fun g => { g with session := session }) with
      channel := l.channel ++ events.map fun e => (n, e) }
  | .handle => l.handle
  | .wait d => some { l with clock := ⟨l.clock.nanos + d.nanos⟩ }
  | .note => l.note
  | .lock => l.lock
  | .evict => l.evict
  | .interrupt => if l.isFree then some l.shutDown else none

/-- Does steps one after the other; nothing if one of them is not possible. -/
def run (l : Listener σ) (moves : List (ListenerMove σ)) : Option (Listener σ) :=
  moves.foldlM step l

end Listener

end PeerLink
