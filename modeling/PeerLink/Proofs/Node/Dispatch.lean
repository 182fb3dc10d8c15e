import PeerLink.Node.Sender
import PeerLink.Proofs.Client.Acks
import PeerLink.Proofs.Client.Tally

/-!
# A sending node over a running session

A node that sends messages is a `Sender`, whose session goes on while it sends, and
whose acks run whenever their operations end.  A `Dispatch` is such a node over a run
of a session.  The node does its steps as `Sender.step` has them, except that handing
a payload to the session and closing the session are not single steps here: the node
waits while the session does the steps of it, as the callers of a `World` do.

An ack that the writer has run leaves its note in a step of its own, in the order in
which the acks were run.  So at any moment there may be acks that have been run and
not yet been counted.

## Main results

* `World.sendGoes_of_sendStep`, `World.closeGoes_of_closeStep` — what a step of a call does
  to the clients.
* `Sender.resolve_of_recorded` — an ack leaves its note as it does when the operation
  ends in one step.
* `Dispatch.sender_of_between`, `Dispatch.sender_of_sending`,
  `Dispatch.sender_of_closing` — a node that does not wait does what `Sender.step` does.
* `Dispatch.steps_handing`, `Dispatch.steps_closing` — where it waits for the session,
  `Sender.step` makes a single step of it.
-/

namespace PeerLink

/-! ## What a step leaves alone -/

section Notes

variable {σ : Type} [SessionHost σ]

/-- What a step of a send leads to, with other notes. -/
def SendProgress.withNotes (notes : List AckNote) : SendProgress σ → SendProgress σ
  | .next stage g => .next stage { g with notes := notes }
  | .done answer g => .done answer { g with notes := notes }
  | .aborted => .aborted

/-- What a step of a close leads to, with other notes. -/
def CloseProgress.withNotes (notes : List AckNote) : CloseProgress σ → CloseProgress σ
  | .next stage g => .next stage { g with notes := notes }
  | .done answer g => .done answer { g with notes := notes }

/-- A send does not look at the notes, and leaves none. -/
theorem ClientGroup.sendStep_withNotes (g : ClientGroup σ) (notes : List AckNote)
    (call : SendCall) (stage : SendStage) :
    ({ g with notes := notes } : ClientGroup σ).sendStep call stage =
      (g.sendStep call stage).withNotes notes := by
  have hclient (n : Nat) : ({ g with notes := notes } : ClientGroup σ).client? n = g.client? n :=
    rfl
  cases stage with
  | opening =>
      simp only [sendStep, hclient]
      cases call.target with
      | some target => rfl
      | none =>
          cases (g.client? call.client).map (·.gate.isClosed) with
          | none => rfl
          | some closed => cases closed <;> rfl
  | counting => rfl
  | handing =>
      simp only [sendStep]
      cases SessionHost.send g.session call.payload <;> rfl
  | registering n =>
      simp only [sendStep]
      cases call.ack with
      | none => rfl
      | some ack =>
          cases hb : (SessionHost.board g.session).onComplete n ack with
          | mk taken board =>
              simp only [hb]
              cases taken <;> rfl
  | refused n =>
      simp only [sendStep]
      cases (SessionHost.board g.session).isDone n <;> rfl
  | looking n => rfl
  | settling result =>
      simp only [sendStep]
      cases result with
      | none => rfl
      | some r => cases r <;> rfl

/-- A close does not look at the notes, and leaves none. -/
theorem ClientGroup.closeStep_withNotes (g : ClientGroup σ) (notes : List AckNote) (n : Nat)
    (stage : CloseStage) :
    ({ g with notes := notes } : ClientGroup σ).closeStep n stage =
      (g.closeStep n stage).withNotes notes := by
  have hclient (n : Nat) : ({ g with notes := notes } : ClientGroup σ).client? n = g.client? n :=
    rfl
  cases stage with
  | gate forced =>
      cases forced with
      | true => rfl
      | false =>
          simp only [closeStep, hclient]
          cases g.client? n with
          | none => rfl
          | some c => cases hc : c.gate.isClosed <;> simp only [Gate.close, hc] <;> rfl
  | reading =>
      simp only [closeStep, hclient]
      split <;> rfl
  | removing => rfl
  | closing => rfl

theorem ClientGroup.notes_sendStep (g : ClientGroup σ) (call : SendCall) (stage : SendStage) :
    match g.sendStep call stage with
    | .next _ g' | .done _ g' => g'.notes = g.notes
    | .aborted => True := by
  have hsame : g.sendStep call stage = (g.sendStep call stage).withNotes g.notes :=
    g.sendStep_withNotes g.notes call stage
  cases hstep : g.sendStep call stage with
  | next stage' g' =>
      rw [hstep] at hsame
      have hg : g' = { g' with notes := g.notes } := (SendProgress.next.inj hsame).2
      rw [hg]
  | done answer g' =>
      rw [hstep] at hsame
      have hg : g' = { g' with notes := g.notes } := (SendProgress.done.inj hsame).2
      rw [hg]
  | aborted => trivial

theorem ClientGroup.notes_closeStep (g : ClientGroup σ) (n : Nat) (stage : CloseStage) :
    match g.closeStep n stage with
    | .next _ g' | .done _ g' => g'.notes = g.notes := by
  have hsame : g.closeStep n stage = (g.closeStep n stage).withNotes g.notes :=
    g.closeStep_withNotes g.notes n stage
  cases hstep : g.closeStep n stage with
  | next stage' g' =>
      rw [hstep] at hsame
      have hg : g' = { g' with notes := g.notes } := (CloseProgress.next.inj hsame).2
      rw [hg]
  | done answer g' =>
      rw [hstep] at hsame
      have hg : g' = { g' with notes := g.notes } := (CloseProgress.done.inj hsame).2
      rw [hg]

end Notes

namespace World

variable {v v' : World} {k : Nat}

/-- What a step of a send does to the send, to the clients and to the rest. -/
structure SendGoes (v v' : World) (k : Nat) (c c' : ClientSend) (t : Stats → Stats)
    (hands : Bool) : Prop where
  there : v.sends[k]? = some c
  sends : v'.sends = v.sends.set k c'
  call : c'.call = c.call
  moves : SendMoves c.stage c'.stage t hands
  clients : v'.group.clients = (v.group.recount c.call.client t).clients
  notes : v'.group.notes = v.group.notes
  closes : v'.closes = v.closes

theorem sendGoes_of_sendStep (h : v.sendStep k = some v') :
    ∃ c c' t hands, v.SendGoes v' k c c' t hands := by
  obtain ⟨c, hk, hturn⟩ := sendTurn_of_sendStep h
  have hsame (n : Nat) : v.group.clients = (v.group.recount n id).clients :=
    (v.group.clients_recount_id n).symm
  cases hturn with
  | hands hs =>
      have hmoves : SendMoves c.stage .handed id true := by
        rw [hs]
        exact .hands
      exact ⟨c, _, _, _, hk, rfl, rfl, hmoves, hsame _, rfl, rfl⟩
  | @returns _ n _ hs =>
      have hmoves : SendMoves c.stage (.going (c.call.afterHanding n)) id false := by
        rw [hs]
        exact .gets _ n
      exact ⟨c, _, _, _, hk, rfl, rfl, hmoves, hsame _, rfl, rfl⟩
  | aborts hs =>
      have hmoves : SendMoves c.stage .aborted id false := by
        rw [hs]
        exact .aborts
      exact ⟨c, _, _, _, hk, rfl, rfl, hmoves, hsame _, rfl, rfl⟩
  | @next stage _ _ hs hstage hstep =>
      obtain ⟨t, hmoves⟩ := v.group.moves_sendStep c.call hstage
      have hnotes := v.group.notes_sendStep c.call stage
      rw [hstep] at hnotes
      rw [hstep, ← hs] at hmoves
      exact ⟨c, _, _, _, hk, rfl, rfl, hmoves.1, hmoves.2, hnotes, rfl⟩
  | @done stage _ _ hs hstage hstep =>
      obtain ⟨t, hmoves⟩ := v.group.moves_sendStep c.call hstage
      have hnotes := v.group.notes_sendStep c.call stage
      rw [hstep] at hnotes
      rw [hstep, ← hs] at hmoves
      exact ⟨c, _, _, _, hk, rfl, rfl, hmoves.1, hmoves.2, hnotes, rfl⟩
  | stops hs hstage hstep =>
      obtain ⟨t, hmoves⟩ := v.group.moves_sendStep c.call hstage
      rw [hstep] at hmoves
      exact hmoves.elim

/-- A send whose client may be used, and which asks for no other target, opens. -/
theorem sendStep_of_opening {c : ClientSend} (hk : v.sends[k]? = some c)
    (hs : c.stage = .going .opening) (htarget : c.call.target = none)
    (hopen : v.group.isOpen c.call.client = true) : v.sendStep k =
      some { v with sends := v.sends.set k { c with stage := .going .counting } } := by
  unfold ClientGroup.isOpen at hopen
  cases hclient : v.group.client? c.call.client with
  | none =>
      rw [hclient] at hopen
      cases hopen
  | some client =>
      have hgate : client.gate.isClosed = false := by simpa [hclient] using hopen
      simp [sendStep, hk, hs, ClientGroup.sendStep, htarget, hclient, hgate]

/-- So it is not turned away. -/
theorem stage_of_opening {c c' : ClientSend} (hk : v.sends[k]? = some c)
    (hs : c.stage = .going .opening) (htarget : c.call.target = none)
    (hopen : v.group.isOpen c.call.client = true) (h : v.sendStep k = some v')
    (hk' : v'.sends[k]? = some c') : c'.stage = .going .counting := by
  rw [sendStep_of_opening hk hs htarget hopen] at h
  obtain rfl := Option.some.inj h
  have hlt := (List.getElem?_eq_some_iff.1 hk).1
  rw [List.getElem?_set_self hlt] at hk'
  rw [← Option.some.inj hk']

/-- A step of a close leaves the sends alone, and the clients but for a gate. -/
structure CloseGoes (v v' : World) (k : Nat) (c c' : ClientClose) : Prop where
  there : v.closes[k]? = some c
  closes : v'.closes = v.closes.set k c'
  client : c'.client = c.client
  /-- It waits for the session only where it closes it. -/
  waits : ∀ i, c'.stage = .handed i → c.stage = .going .closing
  sends : v'.sends = v.sends
  clients : v'.group.clients = v.group.clients ∨
    ∃ n, v'.group.clients = (v.group.shut n).clients
  notes : v'.group.notes = v.group.notes

theorem closeGoes_of_closeStep (h : v.closeStep k = some v') :
    ∃ c c', v.CloseGoes v' k c c' := by
  obtain ⟨c, hk, hturn⟩ := closeTurn_of_closeStep h
  have hclients {stage : CloseStage} {g : ClientGroup Run} (hg : g.clients =
      if stage.isGate then (v.group.shut c.client).clients else v.group.clients) :
      g.clients = v.group.clients ∨ ∃ n, g.clients = (v.group.shut n).clients := by
    cases hgate : stage.isGate with
    | true => exact .inr ⟨c.client, by rw [hg, hgate, if_pos rfl]⟩
    | false => exact .inl (by rw [hg, hgate, if_neg Bool.false_ne_true])
  cases hturn with
  | hands hs => exact ⟨c, _, hk, rfl, rfl, fun _ _ => hs, rfl, .inl rfl, rfl⟩
  | returns => exact ⟨c, _, hk, rfl, rfl, fun _ hi => (by cases hi), rfl, .inl rfl, rfl⟩
  | @next stage _ _ hs hstage hstep =>
      have hmoves := v.group.moves_closeStep c.client hstage
      have hnotes := v.group.notes_closeStep c.client stage
      rw [hstep] at hmoves hnotes
      exact ⟨c, _, hk, rfl, rfl, fun _ hi => (by cases hi), rfl, hclients hmoves.2, hnotes⟩
  | @done stage _ _ hs hstage hstep =>
      have hmoves := v.group.moves_closeStep c.client hstage
      have hnotes := v.group.notes_closeStep c.client stage
      rw [hstep] at hmoves hnotes
      exact ⟨c, _, hk, rfl, rfl, fun _ hi => (by cases hi), rfl, hclients hmoves.2, hnotes⟩

end World

/-- Acks that were run have been run. -/
theorem Run.fired_of_step {w w' : Run} {e : RunEvent} (h : w.step? e = some w') :
    w.fired <+: w'.fired := by
  cases effect_of_step h with
  | completes hw h | reports reason hw h | givesUp hw hq h =>
      rw [show w'.fired = _ from congrArg Work.fired h]
      exact List.prefix_append _ _
  | aside h | callbacks he board hb h | refuses error h | turnsAway p bytes hq h
  | admits p bytes hq h | takes flushed hw hq h | puts count hw h | breaks fault hw h
  | moves phase closed hp h =>
      rw [show w'.fired = w.fired from congrArg Work.fired h]

theorem Run.Steps.fired {w w' : Run} (h : Steps w w') : w.fired <+: w'.fired := by
  induction h with
  | refl => exact List.prefix_rfl
  | tail _ he ih =>
      obtain ⟨e, he⟩ := he
      exact ih.trans (fired_of_step he)

/-! ## Nodes -/

namespace Sender

variable {σ : Type} [SessionHost σ]

/-- An ack that was run with a result leaves its note, and what is said about it. -/
def hear (s : Sender σ) (ack : Ack) (result : SendResult) : Option (Sender σ) := do
  let group ← s.group.tell ack result
  let entries := (group.notesSince s.group.notes.length).filterMap ackEntry
  return entries.foldl log { s with group := group }

/-- That is what happens when an operation with an ack ends in one step. -/
theorem resolve_of_recorded {s : Sender σ} {operation : Nat} {result : SendResult} {ack : Ack}
    {board : Board Ack}
    (h : (SessionHost.board s.group.session).complete operation result =
      (.recorded (some ack), board)) :
    s.resolve operation result =
      ({ s with group := { s.group with
        session := SessionHost.setBoard s.group.session board } } : Sender σ).hear ack result := by
  have hcomplete : s.group.complete operation result =
      (({ s.group with session := SessionHost.setBoard s.group.session board } :
        ClientGroup σ).tell ack result).map fun g => (some true, g) := by
    simp only [ClientGroup.complete, h]
  simp only [resolve, hear, hcomplete]
  cases ({ s.group with session := SessionHost.setBoard s.group.session board } :
    ClientGroup σ).tell ack result <;> rfl

end Sender

/-- A sending node over a running session. -/
structure Dispatch where
  sender : Sender Run
  /-- The sends that the node has begun, in order. -/
  sends : List ClientSend := []
  /-- The closes that the node has begun, in order. -/
  closes : List ClientClose := []
  /-- How many of the acks that were run have left their notes. -/
  heard : Nat := 0

/-- One atomic step of the node or of its session. -/
inductive DispatchEvent
  /-- The node goes on with its messages. -/
  | node
  /-- The next of the acks that were run leaves its note. -/
  | hear
  /-- A step of the session. -/
  | session (e : RunEvent)
  /-- After its messages, the node reports and begins to close its client. -/
  | leave (now : Duration)
  /-- A close that was begun then does its next step. -/
  | leaveStep (k : Nat)

/-- The node is not done with its messages and has not met a fault. -/
def SenderStage.isLooping : SenderStage → Bool
  | .between | .sending _ => true
  | .closing _ | .ended _ => false

/-- The node is done with its messages. -/
def SenderStage.isEnded : SenderStage → Bool
  | .ended _ => true
  | .between | .sending _ | .closing _ => false

namespace Dispatch

/-- The run of the session. -/
def run (v : Dispatch) : Run := v.sender.group.session

/-- The session with the calls of the node, without the notes of its acks. -/
def world (v : Dispatch) : World where
  group := { v.sender.group with notes := [] }
  sends := v.sends
  closes := v.closes

/-- The node after a step of its session and its calls. -/
def become (v : Dispatch) (w : World) : Dispatch :=
  { v with
    sender := { v.sender with group := { w.group with notes := v.sender.group.notes } }
    sends := w.sends
    closes := w.closes }

/-- The node at another stage. -/
def staged (v : Dispatch) (stage : SenderStage) : Dispatch :=
  { v with sender := { v.sender with stage := stage } }

/-- The node begins to close its client. -/
def beginClose (v : Dispatch) (forced : Bool) : Dispatch :=
  { v with closes := v.closes ++ [⟨v.sender.client, .going (.gate forced)⟩] }

/-- The node takes an answer, and begins to close its client if it is told to connect anew. -/
def take (v : Dispatch) (answer : SendAnswer) : Dispatch :=
  let v := { v with sender := v.sender.take answer }
  match v.sender.stage with
  | .closing (.gate forced) => v.beginClose forced
  | _ => v

/-- The node goes on as its send has. -/
def followSend (v : Dispatch) : Dispatch :=
  match (v.sends[v.sender.answered]?).map ClientSend.stage with
  | some (.going stage) => v.staged (.sending stage)
  | some (.returned answer) => v.take answer
  | _ => v

/-- The node goes on as its close has. -/
def followClose (v : Dispatch) : Dispatch :=
  match (v.closes[0]?).map ClientClose.stage with
  | some (.going stage) => v.staged (.closing stage)
  | some (.returned _) => v.staged (.ended true)
  | _ => v

/-- The node goes on with its messages; nothing while it waits for the session. -/
def nodeStep (v : Dispatch) : Option Dispatch :=
  match v.sender.stage with
  | .between =>
    if v.sender.answered < v.sender.count then
      some { v.staged (.sending .opening) with sends := v.sends ++ [{ call := v.sender.call }] }
    else some (v.staged (.ended false))
  | .sending _ => (v.world.sendStep v.sender.answered).map fun w => (v.become w).followSend
  | .closing _ => (v.world.closeStep 0).map fun w => (v.become w).followClose
  | .ended _ => none

/-- The next of the acks that were run leaves its note. -/
def hear (v : Dispatch) : Option Dispatch :=
  match v.run.fired[v.heard]? with
  | none => none
  | some f =>
    (v.sender.hear f.ack f.result).map fun s => { v with sender := s, heard := v.heard + 1 }

/-- One step; nothing if the event is not possible now. -/
def step? (v : Dispatch) : DispatchEvent → Option Dispatch
  | .node => v.nodeStep
  | .hear => v.hear
  | .session e => (v.world.step? (.session e)).map v.become
  | .leave now =>
    if v.sender.stage.isEnded then
      some { v.beginClose false with sender := v.sender.log (v.sender.report now) }
    else none
  | .leaveStep k =>
    if v.sender.stage.isEnded then (v.world.closeStep k).map v.become else none

/-- From one moment to a later one. -/
abbrev Steps : Dispatch → Dispatch → Prop := Relation.ReflTransGen (Leads step?)

/-- The node after a sequence of steps; it stays as it is if one of them is not possible. -/
abbrev after (v : Dispatch) (events : List DispatchEvent) : Dispatch := stateAfter step? v events

/-- A node that begins to send messages over a session. -/
def start (w : Run) (count : UInt32) (payload : Bytes) : Dispatch :=
  { sender := .start { session := w } count.toNat payload }

/-- A node begins over a session which nobody else has left an ack with. -/
inductive Begins : Dispatch → Prop
  | start {w₀ w : Run} (hw₀ : w₀.Begins) (hq : Run.Quietly w₀ w) (count : UInt32)
      (payload : Bytes) : Begins (.start w count payload)

/-- The node is at some moment of its life. -/
abbrev Reached (v : Dispatch) : Prop := Reachable Begins (Leads step?) v

/-! ## What the steps of a node are -/

section

variable {v v' : Dispatch} {w : World}

theorem world_become (hnotes : w.group.notes = []) : (v.become w).world = w := by
  obtain ⟨⟨session, clients, notes⟩, sends, closes⟩ := w
  obtain rfl : notes = [] := hnotes
  rfl

theorem followSend_eq {c : ClientSend} (hc : v.sends[v.sender.answered]? = some c) :
    v.followSend = match c.stage with
      | .going stage => v.staged (.sending stage)
      | .returned answer => v.take answer
      | .handed | .aborted => v := by
  unfold followSend
  rw [hc]
  cases hs : c.stage <;> simp only [Option.map_some, hs]

theorem followClose_eq {c : ClientClose} (hc : v.closes[0]? = some c) :
    v.followClose = match c.stage with
      | .going stage => v.staged (.closing stage)
      | .returned _ => v.staged (.ended true)
      | .handed _ => v := by
  unfold followClose
  rw [hc]
  cases hs : c.stage <;> simp only [Option.map_some, hs]

@[simp] theorem sender_take (answer : SendAnswer) :
    (v.take answer).sender = v.sender.take answer := by
  unfold take
  dsimp only
  split <;> rfl

/-- Between two sends a node does what `Sender.step` does. -/
theorem sender_of_between (hs : v.sender.stage = .between) :
    v.nodeStep.map Dispatch.sender = v.sender.step := by
  unfold nodeStep Sender.step
  rw [hs]
  by_cases hmore : v.sender.answered < v.sender.count
  · simp only [hmore, if_true]
    rfl
  · simp only [hmore, if_false]
    rfl

/-- Within a send a node does what `Sender.step` does, unless it is about to hand its payload to
the session. -/
theorem sender_of_sending {stage : SendStage} {c : ClientSend}
    (hs : v.sender.stage = .sending stage) (hc : v.sends[v.sender.answered]? = some c)
    (hcall : c.call = v.sender.call) (hstage : c.stage = .going stage)
    (hne : stage ≠ .handing) : v.nodeStep.map Dispatch.sender = v.sender.step := by
  have hsend : v.world.sends[v.sender.answered]? = some c := hc
  have hlt : v.sender.answered < v.sends.length := (List.getElem?_eq_some_iff.1 hc).1
  have hgroup : v.world.group.sendStep c.call stage =
      (v.sender.group.sendStep v.sender.call stage).withNotes [] := by
    rw [hcall]
    exact v.sender.group.sendStep_withNotes [] v.sender.call stage
  have hnotes := v.sender.group.notes_sendStep v.sender.call stage
  obtain ⟨t, hmoves⟩ := v.sender.group.moves_sendStep v.sender.call hne
  have hset (c' : ClientSend) : (v.sends.set v.sender.answered c')[v.sender.answered]? = some c' :=
    List.getElem?_set_self hlt
  unfold nodeStep Sender.step
  rw [hs]
  simp only [World.sendStep, hsend, hstage, hgroup]
  cases hstep : v.sender.group.sendStep v.sender.call stage with
  | next stage' g =>
      rw [hstep] at hnotes
      obtain ⟨session, clients, notes⟩ := g
      obtain rfl : notes = v.sender.group.notes := hnotes
      simp only [SendProgress.withNotes, Option.map_some]
      rw [followSend_eq (hset _)]
      rfl
  | done answer g =>
      rw [hstep] at hnotes
      obtain ⟨session, clients, notes⟩ := g
      obtain rfl : notes = v.sender.group.notes := hnotes
      simp only [SendProgress.withNotes, Option.map_some]
      rw [followSend_eq (hset _)]
      simp only [sender_take]
      rw [← hs]
      rfl
  | aborted =>
      rw [hstep] at hmoves
      exact hmoves.elim

/-- While it closes its client, a node does what `Sender.step` does, until that closes the
session. -/
theorem sender_of_closing {stage : CloseStage} (hs : v.sender.stage = .closing stage)
    (hc : v.closes[0]? = some ⟨v.sender.client, .going stage⟩) (hne : stage ≠ .closing) :
    v.nodeStep.map Dispatch.sender = v.sender.step := by
  have hclose : v.world.closes[0]? = some ⟨v.sender.client, .going stage⟩ := hc
  have hlt : 0 < v.closes.length := (List.getElem?_eq_some_iff.1 hc).1
  have hgroup : v.world.group.closeStep v.sender.client stage =
      (v.sender.group.closeStep v.sender.client stage).withNotes [] :=
    v.sender.group.closeStep_withNotes [] v.sender.client stage
  have hnotes := v.sender.group.notes_closeStep v.sender.client stage
  have hset (c' : ClientClose) : (v.closes.set 0 c')[0]? = some c' := List.getElem?_set_self hlt
  unfold nodeStep Sender.step
  rw [hs]
  simp only [World.closeStep, hclose, hgroup]
  cases hstep : v.sender.group.closeStep v.sender.client stage with
  | next stage' g =>
      rw [hstep] at hnotes
      obtain ⟨session, clients, notes⟩ := g
      obtain rfl : notes = v.sender.group.notes := hnotes
      simp only [CloseProgress.withNotes, Option.map_some]
      rw [followClose_eq (hset _)]
      rfl
  | done answer g =>
      rw [hstep] at hnotes
      obtain ⟨session, clients, notes⟩ := g
      obtain rfl : notes = v.sender.group.notes := hnotes
      simp only [CloseProgress.withNotes, Option.map_some]
      rw [followClose_eq (hset _)]
      rfl

/-! ### Where the node waits for the session -/

/-- What the session does for its clients, it does for the node. -/
theorem steps_of_quietly {r : Run} (h : Run.Quietly v.run r) :
    Steps v (v.become (v.world.setRun r)) := by
  refine h.lift (fun r => v.become (v.world.setRun r)) fun r₁ r₂ hs => ?_
  obtain ⟨e, hhooks, he⟩ := Run.leads_quietly.1 hs
  refine ⟨.session e, ?_⟩
  have hworld : (v.world.setRun r₁).step? (.session e) = some (v.world.setRun r₂) := by
    simp only [World.step?, hhooks, Bool.false_eq_true, if_false]
    exact congrArg (Option.map (v.world.setRun r₁).setRun) he
  exact congrArg (Option.map (v.become (v.world.setRun r₁)).become) hworld

/-- The node goes on with its send as the world does. -/
private theorem step?_node_of_send {stage : SendStage} {c : ClientSend}
    (hs : v.sender.stage = .sending stage)
    (hw : v.world.sendStep v.sender.answered = some w)
    (hc : w.sends[v.sender.answered]? = some c) :
    v.step? .node = some (match c.stage with
      | .going stage => (v.become w).staged (.sending stage)
      | .returned answer => (v.become w).take answer
      | .handed | .aborted => v.become w) := by
  simp only [step?, nodeStep, hs, hw, Option.map_some]
  exact congrArg some (followSend_eq (v := v.become w) hc)

/-- So it does with its close. -/
private theorem step?_node_of_close {stage : CloseStage} {c : ClientClose}
    (hs : v.sender.stage = .closing stage) (hw : v.world.closeStep 0 = some w)
    (hc : w.closes[0]? = some c) :
    v.step? .node = some (match c.stage with
      | .going stage => (v.become w).staged (.closing stage)
      | .returned _ => (v.become w).staged (.ended true)
      | .handed _ => v.become w) := by
  simp only [step?, nodeStep, hs, hw, Option.map_some]
  exact congrArg some (followClose_eq (v := v.become w) hc)

/-- Handing its payload over, with the session's part of it in between, the node does what
`Sender.step` does. -/
theorem steps_handing {s : Sender Run} {c : ClientSend}
    (hs : v.sender.stage = .sending .handing) (hc : v.sends[v.sender.answered]? = some c)
    (hcall : c.call = v.sender.call) (hstage : c.stage = .going .handing)
    (h : v.sender.step = some s) : ∃ v', Steps v v' ∧ v'.sender = s := by
  unfold Sender.step at h
  simp only [hs, ClientGroup.sendStep, ← hcall] at h
  cases hhost : SessionHost.send v.sender.group.session c.call.payload with
  | none =>
      rw [hhost] at h
      cases h
  | some outcome =>
      obtain ⟨⟨n, session⟩, hsend, rfl⟩ := Option.map_eq_some_iff.1 hhost
      rw [hhost] at h
      cases h
      have hthere : v.world.sends[v.sender.answered]? = some c := hc
      have hlt : v.sender.answered < v.world.sends.length :=
        (List.getElem?_eq_some_iff.1 hthere).1
      -- the node waits, and the session does its part
      let v₁ := v.become (v.world.handOver v.sender.answered c)
      let v₂ := v₁.become (v₁.world.setRun (v.run.sent c.call.payload))
      have hover : v.world.sendStep v.sender.answered =
          some (v.world.handOver v.sender.answered c) := by
        simp only [World.sendStep, hthere, hstage]
      have hhands : v.step? .node = some v₁ :=
        step?_node_of_send hs hover (List.getElem?_set_self hlt)
      have hsent : Steps v₁ v₂ := steps_of_quietly (Run.quietly_sent v.run c.call.payload)
      have hreturned : v₂.world.run.sends[v.run.sends.length]? =
          some ⟨c.call.payload, .returned n⟩ := by
        rw [show v₂.world.run.sends = _ from (Run.sent_of_send hsend).2]
        exact List.getElem?_concat_length
      have hwaits : v₂.world.sends[v.sender.answered]? =
          some { c with sending := some v.run.sends.length, stage := .handed } :=
        List.getElem?_set_self hlt
      have hgoes := World.sendStep_of_returned hwaits rfl rfl hreturned
      have hlt₂ : v.sender.answered < v₂.world.sends.length :=
        (List.getElem?_eq_some_iff.1 hwaits).1
      have hreturns := step?_node_of_send (v := v₂) hs hgoes (List.getElem?_set_self hlt₂)
      exact ⟨_, (Relation.ReflTransGen.head ⟨_, hhands⟩ hsent).tail ⟨_, hreturns⟩, rfl⟩

/-- Closing the session, with the session's part of it in between, the node does what
`Sender.step` does. -/
theorem steps_closing {s : Sender Run} (hs : v.sender.stage = .closing .closing)
    (hc : v.closes[0]? = some ⟨v.sender.client, .going .closing⟩)
    (h : v.sender.step = some s) : ∃ v', Steps v v' ∧ v'.sender = s := by
  unfold Sender.step at h
  simp only [hs, ClientGroup.closeStep] at h
  cases h
  have hthere : v.world.closes[0]? = some ⟨v.sender.client, .going .closing⟩ := hc
  have hlt : 0 < v.world.closes.length := (List.getElem?_eq_some_iff.1 hthere).1
  let v₁ := v.become (v.world.shutDown 0 ⟨v.sender.client, .going .closing⟩)
  let v₂ := v₁.become (v₁.world.setRun v.run.shut)
  have hover : v.world.closeStep 0 =
      some (v.world.shutDown 0 ⟨v.sender.client, .going .closing⟩) := by
    simp only [World.closeStep, hthere]
  have hbegins : v.step? .node = some v₁ :=
    step?_node_of_close hs hover (List.getElem?_set_self hlt)
  have hshut : Steps v₁ v₂ := steps_of_quietly (Run.quietly_shut v.run)
  have hreturned : v₂.world.run.closes[v.run.closes.length]? =
      some (.done v.run.session.close.1) := by
    rw [show v₂.world.run.closes = _ from v.run.shut_eq.2]
    exact List.getElem?_concat_length
  have hwaits : v₂.world.closes[0]? =
      some ⟨v.sender.client, .handed v.run.closes.length⟩ := List.getElem?_set_self hlt
  have hgoes := World.closeStep_of_returned hwaits rfl hreturned
  have hlt₂ : 0 < v₂.world.closes.length := (List.getElem?_eq_some_iff.1 hwaits).1
  have hreturns := step?_node_of_close (v := v₂) hs hgoes (List.getElem?_set_self hlt₂)
  exact ⟨_, (Relation.ReflTransGen.head ⟨_, hbegins⟩ hshut).tail ⟨_, hreturns⟩, rfl⟩

end

end Dispatch

end PeerLink
