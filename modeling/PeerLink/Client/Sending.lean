import PeerLink.Client.Group

/-!
# Sending through a client

A send first sees whether the client may be used, counts itself, hands the payload to the
session, and then finds out how the operation stands. If it is still pending and the caller gave
an ack, the ack is left with the operation and the answer is "in flight"; otherwise the answer
tells how the operation ended. The operation may end at any moment in between, so the call is
described one atomic step at a time.

## Main results

* `ClientGroup.rank_of_sendStep` — every step brings a call nearer to its end.
-/

namespace PeerLink

/-- A send through a client. -/
structure SendCall where
  client : Nat
  /-- Where the caller wants the payload to go; sessions have their own target. -/
  target : Option String := none
  payload : Payload
  ack : Option Ack := none

/-- What a send does next. -/
inductive SendStage
  /-- Look whether the client may be used. -/
  | opening
  /-- Count the send. -/
  | counting
  /-- Hand the payload to the session. -/
  | handing
  /-- Leave the ack with the operation. -/
  | registering (operation : Nat)
  /-- The ack was refused: look whether the operation has ended. -/
  | refused (operation : Nat)
  /-- Look how the operation stands. -/
  | looking (operation : Nat)
  /-- Count and report how it stood. -/
  | settling (result : Option SendResult)
  deriving Repr

/-- The number of steps ahead of a call, at most. -/
def SendStage.rank : SendStage → Nat
  | .opening => 6
  | .counting => 5
  | .handing => 4
  | .registering _ => 3
  | .refused _ => 2
  | .looking _ => 1
  | .settling _ => 0

/-- What a step of a send leads to. -/
inductive SendProgress (σ : Type)
  | next (stage : SendStage) (group : ClientGroup σ)
  | done (answer : SendAnswer) (group : ClientGroup σ)
  /-- The session aborted the caller. -/
  | aborted

namespace Stats

/-- What a counter shows after one more; it has 64 bits. -/
def next (n : Nat) : Nat := (n + 1) % UInt64.size

/-- One more send handed to the session. -/
def countIssued (s : Stats) : Stats := { s with issued := next s.issued }

/-- One more send that came to an answer; an answer that the session never saw is not counted. -/
def countAnswer (s : Stats) : SendAnswer → Stats
  | .ok .accepted => { s with accepted := next s.accepted }
  | .ok .inFlight => { s with inFlight := next s.inFlight }
  | .ok (.needsReconnect _) => { s with reconnects := next s.reconnects }
  | .error (.sendFailed _ _) => { s with rejected := next s.rejected }
  | .error _ => s

end Stats

namespace ClientGroup

variable {σ : Type} [SessionHost σ]

/-- What a client makes of how an operation stood. -/
def classify (g : ClientGroup σ) (n : Nat) : Option SendResult → SendAnswer
  | none => .ok .inFlight
  | some (.ok ()) => .ok .accepted
  | some (.error e) =>
    if e.isIoFault then .ok (.needsReconnect e) else .error (.sendFailed (g.describeAt n) e)

/-- Does one step of a send. -/
def sendStep (g : ClientGroup σ) (call : SendCall) : SendStage → SendProgress σ
  | .opening =>
    match call.target with
    | some target => .done (.error (.unexpectedTarget (g.describeAt call.client) target)) g
    | none =>
      match (g.client? call.client).map (·.gate.isClosed) with
      | some false => .next .counting g
      | _ => .done (.error (.closed (g.describeAt call.client))) g
  | .counting =>
    .next .handing (g.modify call.client fun c => { c with stats := c.stats.countIssued })
  | .handing =>
    match SessionHost.send g.session call.payload with
    | none => .aborted
    | some (operation, session) =>
      let stage := match call.ack with
        | none => SendStage.looking operation
        | some _ => SendStage.registering operation
      .next stage { g with session := session }
  | .registering operation =>
    match call.ack with
    | none => .next (.looking operation) g
    | some ack =>
      match (SessionHost.board g.session).onComplete operation ack with
      | (true, board) =>
        .next (.settling none) { g with session := SessionHost.setBoard g.session board }
      | (false, _) => .next (.refused operation) g
  | .refused operation =>
    if (SessionHost.board g.session).isDone operation then .next (.looking operation) g
    else
      .next (.looking operation)
        (g.log .warn (s!"Session {SessionHost.label g.session} refused acknowledgment callback " ++
          s!"[client={g.describeAt call.client}]"))
  | .looking operation =>
    .next (.settling ((SessionHost.board g.session).result? operation)) g
  | .settling result =>
    let answer := g.classify call.client result
    let g := match result with
      | some (.error e) =>
        g.log .debug
          s!"Failed to send message [client={g.describeAt call.client}, err={e.message}]"
      | _ => g
    .done answer (g.modify call.client fun c => { c with stats := c.stats.countAnswer answer })

theorem rank_of_sendStep {g g' : ClientGroup σ} {call : SendCall} {s s' : SendStage}
    (h : g.sendStep call s = .next s' g') : s'.rank < s.rank := by
  unfold sendStep at h
  split at h
  · split at h
    · cases h
    · split at h <;> cases h
      simp [SendStage.rank]
  · cases h
    simp [SendStage.rank]
  · split at h
    · cases h
    · cases h
      cases call.ack <;> simp [SendStage.rank]
  · split at h
    · cases h
      simp [SendStage.rank]
    · split at h <;> cases h <;> simp [SendStage.rank]
  · split at h <;> cases h <;> simp [SendStage.rank]
  · cases h
    simp [SendStage.rank]
  · cases h

/-- Does all steps of a send; nothing if the session aborts the caller. -/
def runSend (g : ClientGroup σ) (call : SendCall) (s : SendStage) :
    Option (SendAnswer × ClientGroup σ) :=
  match _h : g.sendStep call s with
  | .aborted => none
  | .done answer g => some (answer, g)
  | .next s g => runSend g call s
termination_by s.rank
decreasing_by exact rank_of_sendStep ‹_›

theorem runSend_of_next {g g' : ClientGroup σ} {call : SendCall} {s s' : SendStage}
    (h : g.sendStep call s = .next s' g') : g.runSend call s = g'.runSend call s' := by
  rw [runSend]
  split
  · rename_i habort
    rw [h] at habort
    cases habort
  · rename_i hdone
    rw [h] at hdone
    cases hdone
  · rename_i hnext
    rw [h] at hnext
    cases hnext
    rfl

theorem runSend_of_done {g g' : ClientGroup σ} {call : SendCall} {s : SendStage}
    {answer : SendAnswer} (h : g.sendStep call s = .done answer g') :
    g.runSend call s = some (answer, g') := by
  rw [runSend]
  split
  · rename_i habort
    rw [h] at habort
    cases habort
  · rename_i hdone
    rw [h] at hdone
    cases hdone
    rfl
  · rename_i hnext
    rw [h] at hnext
    cases hnext

theorem runSend_of_aborted {g : ClientGroup σ} {call : SendCall} {s : SendStage}
    (h : g.sendStep call s = .aborted) : g.runSend call s = none := by
  rw [runSend]
  split
  · rfl
  · rename_i hdone
    rw [h] at hdone
    cases hdone
  · rename_i hnext
    rw [h] at hnext
    cases hnext

/-- Sends through a client. -/
def send (g : ClientGroup σ) (call : SendCall) : Option (SendAnswer × ClientGroup σ) :=
  g.runSend call .opening

end ClientGroup

end PeerLink
