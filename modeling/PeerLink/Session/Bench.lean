import PeerLink.Client.Telling
import PeerLink.Session.Link

/-!
# A bench for sessions

A bench is a link together with the clients of its near session and the numbers of the sends that
were made. Its user calls a session, a client or the raw far end, and lets the tasks run until
each of them waits.

The tasks are run step by step, and acks in between. Every step moves bytes towards where they
go, ends an operation, takes a task towards its end, or puts it to rest, so their number is
bounded by what there is to do; `Link.work` measures that generously.
-/

namespace PeerLink

namespace Link

/-- What an ack may set off, in bytes and operations. -/
def ackWork : Ack → Nat
  | .silent => 1
  | .watch _ => 1
  | .tell _ _ none => 1
  | .tell _ _ (some f) => 1 + followWork f
where
  /-- What a client may set off once it has been told. -/
  followWork : FollowUp → Nat
    | .close | .forceClose | .state => 1
    | .sendBuffer wire => 8 + wire.length
    | .sendMessage m none => 16 + m.body.length
    | .sendMessage m (some ack) => 16 + m.body.length + ackWork ack

/-- What a session still has to do, in bytes and operations. -/
def sessionWork (s : Session) : Nat :=
  let writing := match s.writer with
    | .writing _ rest _ => rest.length
    | _ => 0
  let queued := s.queue.foldl (fun n r => n + r.bytes.length + 8) 0
  let told := s.board.operations.foldl
    (fun n o => n + match o.callback with
      | none => 0
      | some ack => ackWork ack) 0
  writing + queued + told + s.buffer.unread.length + 16

/-- What all tasks still have to do, in bytes and operations. -/
def work (l : Link) : Nat :=
  sessionWork l.near + (match l.far with
    | .session s => sessionWork s
    | _ => 0) + l.outward.buffer.length + l.inward.buffer.length

/-- More steps than the tasks can make before each of them waits. -/
def patience (l : Link) : Nat := 64 * (l.work + 64)

end Link

/-- Runs the tasks of a link for so many steps at most, and the acks; nothing if an ack is
aborted. -/
def runSteps (g : ClientGroup Link) : Nat → Option (ClientGroup Link)
  | 0 => some g
  | fuel + 1 =>
    match g.session.step with
    | none => some g
    | some (l, none) => runSteps { g with session := l } fuel
    | some (l, some f) =>
      match ({ g with session := l } : ClientGroup Link).tell f.ack f.result with
      | none => none
      | some g => runSteps g fuel

/-- Runs the tasks of a link until each of them waits. -/
def runTasks (g : ClientGroup Link) : Option (ClientGroup Link) :=
  runSteps g g.session.patience

/-- A link with its clients. -/
structure LinkBench where
  group : ClientGroup Link
  /-- Whenever the tasks are run, events are taken until there are none. -/
  taking : Bool
  /-- The sends that were made, in order: the side, and the number of the operation there. -/
  sends : Array (Side × Nat) := #[]
  /-- The events taken from the near session, in order. -/
  nearEvents : List SessionEvent := []
  /-- The events taken from the far session, in order. -/
  farEvents : List SessionEvent := []

/-- What can be asked of a link. -/
inductive LinkCommand
  | send (side : Side) (payload : Payload)
  | close (side : Side)
  /-- The result of a send, if there is one. -/
  | result (send : Nat)
  /-- The session as a nested term. -/
  | describe (side : Side) (number : String)
  | receive (side : Side) (count : Nat)
  | stopListening (side : Side)
  | attach (side : Side) (key : SlotKey) (value : SlotValue)
  | remove (side : Side) (key : SlotKey)
  | read (side : Side) (key : SlotKey)
  | remote (side : Side)
  /-- How long nothing has happened on a session. -/
  | idle (side : Side)
  /-- The raw far end writes. -/
  | rawWrite (bytes : Bytes)
  /-- The raw far end reads. -/
  | rawRead (count : Nat)
  /-- The raw far end writes no more. -/
  | rawShutdown
  | rawDrop
  | bind
  /-- A command of the client that was bound last. -/
  | client (command : ClientCommand)

/-- The answer to a command. -/
inductive LinkReply
  | nothing
  /-- There is no raw far end. -/
  | gone
  | flag (b : Bool)
  | number (n : Nat)
  | text (s : String)
  | result (r : SendResult)
  /-- A send was made; it may have ended already. -/
  | sent (n : Nat) (now : Option SendResult)
  | slot (value : SlotValue)
  | idle (d : Duration)
  | wrote (count : Nat) (failure : Option IoFault)
  | bytes (bytes : Bytes) (atEnd : Bool)
  | client (reply : ClientReply)

/-- The reply that shows what a slot held. -/
def LinkReply.ofSlot : Option SlotValue → LinkReply
  | none => .nothing
  | some value => .slot value

namespace LinkBench

/-- The link of a bench. -/
def link (b : LinkBench) : Link := b.group.session

/-- The bench with its link replaced. -/
def putLink (b : LinkBench) (l : Link) : LinkBench :=
  { b with group := { b.group with session := l } }

/-- Takes up to `count` of the events that wait on a side, and says how many there were. -/
def receive (b : LinkBench) (side : Side) (count : Nat) : Nat × LinkBench :=
  match b.link.call side fun s => s.receive count with
  | none => (0, b)
  | some (events, l) =>
    let b := b.putLink l
    (events.length, match side with
      | .near => { b with nearEvents := b.nearEvents ++ events }
      | .far => { b with farEvents := b.farEvents ++ events })

/-- Takes every event that waits on either side, and says how many there were. -/
def receiveAll (b : LinkBench) : Nat × LinkBench :=
  let waiting (side : Side) : Nat := ((b.link.session? side).map (·.events.length)).getD 0
  let (near, b') := b.receive .near (waiting .near)
  let (far, b') := b'.receive .far (waiting .far)
  (near + far, b')

/-- Lets the tasks run until each of them waits. If events are taken, this goes on until there
are none, for so many rounds at most. -/
def runRounds (b : LinkBench) : (rounds : Nat) → Option LinkBench
  | 0 => some b
  | rounds + 1 => do
    let g ← runTasks b.group
    let b := { b with group := g }
    if b.taking then
      match b.receiveAll with
      | (0, b) => some b
      | (_, b) => b.runRounds rounds
    else some b

/-- Lets the tasks run until each of them waits and no event is to be taken. -/
def run (b : LinkBench) : Option LinkBench := b.runRounds (b.link.work + 8)

/-- The raw far end writes; when the pipe is full the tasks are given a chance. -/
def rawWrite (b : LinkBench) (bytes : Bytes) (wrote : Nat) (waited : Bool) :
    (fuel : Nat) → Option (LinkReply × LinkBench)
  | 0 => some (.wrote wrote none, b)
  | fuel + 1 =>
    if bytes.isEmpty then some (.wrote wrote none, b)
    else match b.link.write .far bytes with
      | (.wrote count, l) =>
        rawWrite (b.putLink l) (bytes.drop count) (wrote + count) false fuel
      | (.failed fault, l) => some (.wrote wrote (some fault), b.putLink l)
      | (.blocked, l) =>
        if waited then some (.wrote wrote none, b.putLink l)
        else
          match (b.putLink l).run with
          | none => none
          | some b => rawWrite b bytes wrote true fuel

/-- The raw far end reads; when the pipe is empty the tasks are given a chance. -/
def rawRead (b : LinkBench) (count : Nat) (got : Bytes) (waited : Bool) :
    (fuel : Nat) → Option (LinkReply × LinkBench)
  | 0 => some (.bytes got false, b)
  | fuel + 1 =>
    if count = 0 then some (.bytes got false, b)
    else match b.link.read .far count with
      | (.received bytes, l) =>
        rawRead (b.putLink l) (count - bytes.length) (got ++ bytes) false fuel
      | (.atEnd, l) => some (.bytes got true, b.putLink l)
      | (.failed _, l) => some (.bytes got false, b.putLink l)
      | (.blocked, l) =>
        if waited then some (.bytes got false, b.putLink l)
        else
          match (b.putLink l).run with
          | none => none
          | some b => rawRead b count got true fuel

/-- A caller changes a session and gets a reply. -/
private def call (b : LinkBench) (side : Side) (f : Session → LinkReply × Session) :
    LinkReply × LinkBench :=
  match b.link.call side f with
  | none => (.nothing, b)
  | some (reply, l) => (reply, b.putLink l)

/-- The raw far end is there. -/
private def hasRaw (b : LinkBench) : Bool := b.link.far matches .raw

/-- Makes a send and, if it has not ended, asks to hear of its end. -/
private def send (b : LinkBench) (side : Side) (p : Payload) : Option (LinkReply × LinkBench) := do
  let (operation, l) ← b.link.send side p
  let n := b.sends.size
  let s ← l.session? side
  let now := s.board.result? operation
  let l := if now.isSome then l
    else l.putSession side { s with board := (s.board.onComplete operation (.watch n)).2 }
  some (.sent n now, { b.putLink l with sends := b.sends.push (side, operation) })

/-- Carries out a command; nothing if the caller is aborted. -/
def perform (b : LinkBench) : LinkCommand → Option (LinkReply × LinkBench)
  | .send side p => b.send side p
  | .close side =>
    some (b.call side fun s =>
      let (answer, s) := s.close
      (.flag answer, s))
  | .result n =>
    some (match b.sends[n]? with
      | none => .nothing
      | some (side, operation) =>
        match (b.link.session? side).bind fun s => s.board.result? operation with
        | none => .nothing
        | some r => .result r, b)
  | .describe side number => some (b.call side fun s => (.text (s.debugText number), s))
  | .receive side count =>
    let (n, b) := b.receive side count
    some (.number n, b)
  | .stopListening side => some (b.call side fun s => (.nothing, s.stopListening))
  | .attach side key value =>
    some (b.call side fun s =>
      (.ofSlot (s.slots.get? key), { s with slots := s.slots.attach key value }))
  | .remove side key =>
    some (b.call side fun s =>
      (.ofSlot (s.slots.get? key), { s with slots := s.slots.remove key }))
  | .read side key => some (b.call side fun s => (.ofSlot (s.slots.get? key), s))
  | .remote side =>
    some (b.call side fun s =>
      (match s.remote with
        | none => .nothing
        | some address => .text address.text, s))
  | .idle side =>
    some (b.call side fun s => (.idle (s.stamps.idleAt b.link.clock), s))
  | .rawWrite bytes =>
    if b.hasRaw then b.rawWrite bytes 0 false (2 * bytes.length + 2) else some (.gone, b)
  | .rawRead count =>
    if b.hasRaw then b.rawRead count [] false (2 * count + 2) else some (.gone, b)
  | .rawShutdown =>
    if b.hasRaw then some (.flag true, b.putLink (b.link.shutdown .far)) else some (.gone, b)
  | .rawDrop =>
    if b.hasRaw then
      some (.flag true, b.putLink { b.link.dropEnd .far with far := .gone })
    else some (.flag false, b)
  | .bind =>
    let (n, g) := b.group.bind
    some (.number n, { b with group := g })
  | .client command =>
    if b.group.clients.isEmpty then some (.nothing, b)
    else do
      let (reply, g) ← b.group.perform (b.group.clients.size - 1) command
      some (.client reply, { b with group := g })

/-- Joins a session to another one, or to a raw far end, over a pipe of some capacity, and lets
the tasks run. Nothing if an event channel cannot be made. -/
def join (nearLabel farLabel : String) (config : SessionConfig) (peer : Option SessionConfig)
    (capacity : Nat) (taking : Bool) (clock : Duration) : Option LinkBench :=
  if !config.hasChannel || (peer.map fun c => !c.hasChannel).getD false then none
  else
    let near := Session.start nearLabel none config clock
    let far := match peer with
      | none => FarEnd.raw
      | some c => .session (.start farLabel none c clock)
    let b : LinkBench :=
      { group := { session := .connect near far capacity clock }, taking := taking }
    b.run

/-- Carries out a command after `delay`, then lets the tasks run unless `now` is asked for. -/
def step (b : LinkBench) (delay : Duration) (now : Bool) (c : LinkCommand) :
    Option (LinkReply × LinkBench) := do
  let l := b.link
  let b := b.putLink { l with clock := ⟨l.clock.nanos + delay.nanos⟩ }
  let (reply, b) ← b.perform c
  if now then some (reply, b)
  else
    let b ← b.run
    some (reply, b)

end LinkBench

end PeerLink
