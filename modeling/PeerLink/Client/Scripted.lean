import PeerLink.Client.Telling

/-!
# Clients of a scripted session

A scripted session has no stream underneath. A script tells, send by send, whether the operation
is to end at once or to stay pending, and whoever runs the session ends the pending ones. It
counts how often it is closed, and closing it does not touch them.
-/

namespace PeerLink

/-- What a scripted session does with a send. -/
inductive ScriptLine
  /-- Ends it with this result. -/
  | resolved (result : SendResult)
  /-- Leaves it pending. -/
  | pending
  /-- Leaves it pending, with a callback of its own on it. -/
  | busy
  /-- Ends it, well if the session is open. -/
  | auto

/-- A session that follows a script. -/
structure ScriptedSession where
  id : Nat
  remote : Option Address
  script : List ScriptLine
  /-- Holds for every send beyond the script. -/
  otherwise : ScriptLine
  payloads : Array Payload := #[]
  board : Board Ack := .empty
  slots : Slots := {}
  stamps : Stamps := ⟨⟨0⟩, ⟨0⟩, ⟨0⟩⟩
  closed : Bool := false
  closeCalls : Nat := 0
  /-- The log, latest first. -/
  journal : List LogEntry := []

namespace ScriptedSession

/-- Takes a payload as the next line of the script says. -/
def send (s : ScriptedSession) (p : Payload) : Nat × ScriptedSession :=
  let (line, rest) := match s.script with
    | [] => (s.otherwise, [])
    | line :: rest => (line, rest)
  let operation : Operation Ack := match line with
    | .resolved result => .resolved result
    | .pending => .pending
    | .busy => ⟨none, some .silent, true⟩
    | .auto => .resolved (if s.closed then .error .sessionClosed else .succeeded)
  (s.board.size,
    { s with
      script := rest
      payloads := s.payloads.push p
      board := s.board.push operation })

/-- Closes the session; says whether it was open. -/
def close (s : ScriptedSession) : Bool × ScriptedSession :=
  (!s.closed, { s with closed := true, closeCalls := s.closeCalls + 1 })

instance : SessionHost ScriptedSession where
  label s := toString s.id
  remote? := remote
  isClosed := closed
  slots := slots
  setSlots s slots := { s with slots := slots }
  stamps := stamps
  board := board
  setBoard s board := { s with board := board }
  send s p := some (s.send p)
  close := close
  log s e := { s with journal := e :: s.journal }

/-- The oldest operation whose completer has not been used. -/
def oldestPending (s : ScriptedSession) : Option Nat :=
  (List.range s.board.size).find? s.board.isOpen

end ScriptedSession

/-- What can be asked of a scripted session and its clients. -/
inductive ScriptedCommand
  | bind
  /-- A command of a client. -/
  | client (n : Nat) (command : ClientCommand)
  /-- The caller lets go of a client. -/
  | dropClient (n : Nat)
  /-- How long the session of a client has been idle. -/
  | idleAt (n : Nat) (now : Duration)
  /-- Ends a send, the oldest pending one if none is named. -/
  | complete (operation : Option Nat) (result : SendResult)
  /-- Gives up a send. -/
  | cancel (operation : Option Nat)
  | issued (operation : Nat)
  | takeCallback (operation : Nat)
  | setStamps (stamps : Stamps)
  | closeSession
  | attach (key : SlotKey) (value : SlotValue)
  | remove (key : SlotKey)
  | read (key : SlotKey)
  /-- Closes a client from several callers at once. -/
  | race (n callers : Nat)

/-- The answer to a command. -/
inductive ScriptedReply
  | nothing
  | number (n : Nat)
  | flag (b : Bool)
  | client (reply : ClientReply)
  | idle (d : Duration)
  | slot (value : SlotValue)
  | issued (payload : Payload) (operation : Operation Ack)

/-- A scripted session, its clients, and which of them their callers still hold. -/
structure ScriptedBench where
  group : ClientGroup ScriptedSession
  dropped : List Nat := []

/-- The reply that shows what a slot held. -/
def ScriptedReply.ofSlot : Option SlotValue → ScriptedReply
  | none => .nothing
  | some value => .slot value

namespace ScriptedBench

/-- The caller still holds client `n`. -/
def holds (b : ScriptedBench) (n : Nat) : Bool :=
  n < b.group.clients.size && !b.dropped.contains n

/-- Ends a send. -/
private def resolve (b : ScriptedBench) (operation : Option Nat) (result : SendResult) :
    Option (Option Bool × ScriptedBench) :=
  match operation.or b.group.session.oldestPending with
  | none => some (none, b)
  | some n => (b.group.complete n result).map fun (answer, g) => (answer, { b with group := g })

/-- Gives up a send. -/
private def cancel (b : ScriptedBench) (operation : Option Nat) :
    Option (Bool × ScriptedBench) :=
  match operation.or b.group.session.oldestPending with
  | none => some (false, b)
  | some n => (b.group.cancel n).map fun (answer, g) => (answer, { b with group := g })

/-- Closes client `n` as often as `callers` says and counts the calls that did it. -/
private def race (g : ClientGroup ScriptedSession) (n callers : Nat) :
    Nat × ClientGroup ScriptedSession :=
  (List.range callers).foldl
    (fun (count, g) _ =>
      let (answer, g) := g.close n
      (if answer then count + 1 else count, g))
    (0, g)

/-- Carries out a command; nothing if the caller is aborted. -/
def perform (b : ScriptedBench) : ScriptedCommand → Option (ScriptedReply × ScriptedBench)
  | .bind =>
    let (n, g) := b.group.bind
    some (.number n, { b with group := g })
  | .client n command =>
    if b.holds n then
      (b.group.perform n command).map fun (reply, g) => (.client reply, { b with group := g })
    else some (.nothing, b)
  | .dropClient n =>
    some (.nothing, { b with dropped := n :: b.dropped })
  | .idleAt n now =>
    if b.holds n then some (.idle (b.group.session.stamps.idleAt now), b) else some (.nothing, b)
  | .complete operation result => do
    let (answer, b) ← b.resolve operation result
    some (match answer with
      | none => .nothing
      | some answer => .flag answer, b)
  | .cancel operation => do
    let (answer, b) ← b.cancel operation
    some (.flag answer, b)
  | .issued n =>
    some (match b.group.session.payloads[n]?, b.group.session.board.operation? n with
      | some payload, some operation => .issued payload operation
      | _, _ => .nothing, b)
  | .takeCallback n =>
    match b.group.session.board.operation? n with
    | none => some (.nothing, b)
    | some _ =>
      let (taken, board) := b.group.session.board.takeCallback n
      let g := { b.group with session := { b.group.session with board := board } }
      some (.flag taken.isSome, { b with group := g })
  | .setStamps stamps =>
    let g := { b.group with session := { b.group.session with stamps := stamps } }
    some (.nothing, { b with group := g })
  | .closeSession =>
    let (answer, session) := b.group.session.close
    some (.flag answer, { b with group := { b.group with session := session } })
  | .attach key value =>
    some (.ofSlot (b.group.session.slots.get? key),
      { b with group := b.group.modifySlots (·.attach key value) })
  | .remove key =>
    some (.ofSlot (b.group.session.slots.get? key),
      { b with group := b.group.modifySlots (·.remove key) })
  | .read key => some (.ofSlot (b.group.session.slots.get? key), b)
  | .race n callers =>
    if b.holds n then
      let (count, g) := race b.group n callers
      some (.number count, { b with group := g })
    else some (.nothing, b)

/-- Gives up every send that is still pending, in order. -/
def finish (b : ScriptedBench) : Option ScriptedBench :=
  (List.range b.group.session.board.size).foldlM
    (fun b n => (b.cancel (some n)).map (·.2)) b

end ScriptedBench

end PeerLink
