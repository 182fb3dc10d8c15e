import PeerLink.Client.Closing
import PeerLink.Client.Sending
import PeerLink.Proofs.Session.WholeCalls

/-!
# Clients of a running session

Any number of clients share a session, and any number of calls of each of them
may be under way, while the tasks of the session go on.  A `World` is a group of
clients over a run of a session, with these calls.

A call does its steps as `ClientGroup.sendStep` and `ClientGroup.closeStep` have
them, one at a time, and anybody else may do something in between.  Handing a
payload to the session and closing the session are not single steps there: the
call begins a send, or a close, of the run, waits while the run does the steps
of it, and goes on when it has returned.

Only clients leave acks with operations; they alone hold them.

## Main results

* `World.sendTurn_of_sendStep`, `World.closeTurn_of_closeStep` — all that a step of a call
  can be.
* `World.effect_of_step` — a step of a world is a step of one send, or it leaves
  the sends and the acks alone.
* `World.steps_handing`, `World.steps_aborting`, `World.steps_closing` — where a world
  begins a send or a close of its run and waits for it, `ClientGroup` makes a single step
  of it.
* `World.Reached.run` — the session of a world is a session as it may be by
  itself.
-/

namespace PeerLink

/-- A run is a session for its clients. -/
instance : SessionHost Run where
  label w := w.session.label
  remote? w := w.session.remote
  isClosed w := w.session.closed
  slots w := w.session.slots
  setSlots w slots := w.setSession .caller { w.session with slots := slots }
  stamps w := w.session.stamps
  board w := w.session.board
  setBoard w board := w.setSession .caller { w.session with board := board }
  send w p := (w.session.send p w.clock).map fun (n, _) => (n, w.sent p)
  close w := (w.session.close.1, w.shut)
  log w e := w.setSession .caller { w.session with journal := e :: w.session.journal }

/-- How far a send of a client has come. -/
inductive CallStage
  /-- It does its own steps. -/
  | going (stage : SendStage)
  /-- It waits for the session's send to return. -/
  | handed
  | returned (answer : SendAnswer)
  /-- The session aborted the caller. -/
  | aborted

/-- A send that was begun through a client. -/
structure ClientSend where
  call : SendCall
  /-- The number of the session's send, once it was begun. -/
  sending : Option Nat := none
  stage : CallStage := .going .opening

/-- How far a close of a client has come. -/
inductive ShutStage
  | going (stage : CloseStage)
  /-- It waits for the session's close to return. -/
  | handed (closing : Nat)
  | returned (answer : Bool)

/-- A close that was begun through a client. -/
structure ClientClose where
  client : Nat
  stage : ShutStage

/-- The clients of a running session, with their calls. -/
structure World where
  group : ClientGroup Run
  sends : List ClientSend := []
  closes : List ClientClose := []

/-- One atomic step of a client, or of the session and its other callers. -/
inductive WorldEvent
  /-- A client is bound to the session, with an identity that nobody has had. -/
  | bind (id : ClientId)
  /-- A client begins a send. -/
  | send (call : SendCall)
  /-- A send does its next step. -/
  | sendStep (k : Nat)
  /-- A client begins to close. -/
  | close (client : Nat) (forced : Bool)
  /-- A close does its next step. -/
  | closeStep (k : Nat)
  /-- A step of the session. -/
  | session (e : RunEvent)

/-- What a send does once the session has handed out its operation. -/
def SendCall.afterHanding (call : SendCall) (operation : Nat) : SendStage :=
  match call.ack with
  | none => .looking operation
  | some _ => .registering operation

namespace World

/-- The run of the session. -/
def run (v : World) : Run := v.group.session

/-- The world with its run replaced. -/
def setRun (v : World) (w : Run) : World := { v with group := { v.group with session := w } }

/-- A send hands its payload over, and waits. -/
def handOver (v : World) (k : Nat) (c : ClientSend) : World :=
  { v.setRun (v.run.begin c.call.payload) with
    sends := v.sends.set k { c with sending := some v.run.sends.length, stage := .handed } }

/-- A close begins to close the session, and waits. -/
def shutDown (v : World) (k : Nat) (c : ClientClose) : World :=
  { v.setRun v.run.beginClose with
    closes := v.closes.set k { c with stage := .handed v.run.closes.length } }

/-- A send does its next step. -/
def sendStep (v : World) (k : Nat) : Option World :=
  match v.sends[k]? with
  | none => none
  | some c =>
    match c.stage with
    | .going .handing => some (v.handOver k c)
    | .handed =>
      match c.sending.bind (v.run.sends[·]?) with
      | some ⟨_, .returned n⟩ =>
        some { v with sends := v.sends.set k { c with stage := .going (c.call.afterHanding n) } }
      | some ⟨_, .aborted⟩ => some { v with sends := v.sends.set k { c with stage := .aborted } }
      | _ => none
    | .going stage =>
      match v.group.sendStep c.call stage with
      | .next stage g =>
        some { v with group := g, sends := v.sends.set k { c with stage := .going stage } }
      | .done answer g =>
        some { v with group := g, sends := v.sends.set k { c with stage := .returned answer } }
      | .aborted => some { v with sends := v.sends.set k { c with stage := .aborted } }
    | .returned _ | .aborted => none

/-- A close does its next step. -/
def closeStep (v : World) (k : Nat) : Option World :=
  match v.closes[k]? with
  | none => none
  | some c =>
    match c.stage with
    | .going .closing => some (v.shutDown k c)
    | .handed i =>
      match v.run.closes[i]? with
      | some (.done _) =>
        some { v with closes := v.closes.set k { c with stage := .returned true } }
      | _ => none
    | .going stage =>
      match v.group.closeStep c.client stage with
      | .next stage g =>
        some { v with group := g, closes := v.closes.set k { c with stage := .going stage } }
      | .done answer g =>
        some { v with group := g, closes := v.closes.set k { c with stage := .returned answer } }
    | .returned _ => none

/-- One step; nothing if the event is not possible now. -/
def step? (v : World) : WorldEvent → Option World
  | .bind id =>
    if v.group.isFresh id then some { v with group := (v.group.bindAs id).2 } else none
  | .send call => some { v with sends := v.sends ++ [{ call := call }] }
  | .sendStep k => v.sendStep k
  | .close client forced =>
    some { v with closes := v.closes ++ [⟨client, .going (.gate forced)⟩] }
  | .closeStep k => v.closeStep k
  | .session e => if e.hooks then none else (v.run.step? e).map v.setRun

/-- From one moment to a later one. -/
abbrev Steps : World → World → Prop := Relation.ReflTransGen (Leads step?)

/-- The world after a sequence of steps; it stays as it is if one of them is not
possible. -/
abbrev after (v : World) (events : List WorldEvent) : World := stateAfter step? v events

/-- A session at its beginning, without clients. -/
def start (label : String) (remote : Option Address) (config : SessionConfig)
    (now : Duration) : World :=
  { group := { session := .start label remote config now } }

/-- A session begins, and has no clients. -/
inductive Begins : World → Prop
  | start (label : String) (remote : Option Address) (config : SessionConfig)
      (now : Duration) : Begins (.start label remote config now)

/-- The world is a moment in the life of some session and its clients. -/
abbrev Reached (v : World) : Prop := Reachable Begins (Leads step?) v

end World

/-! ## The steps of calls -/

namespace World

variable {v v' : World} {k : Nat}

/-- All that a step of a send can be. -/
inductive SendTurn (v : World) (k : Nat) (c : ClientSend) : World → Prop
  | hands (hs : c.stage = .going .handing) : SendTurn v k c (v.handOver k c)
  | returns {i n : Nat} {p : Payload} (hs : c.stage = .handed) (hc : c.sending = some i)
      (hi : v.run.sends[i]? = some ⟨p, .returned n⟩) : SendTurn v k c
        { v with sends := v.sends.set k { c with stage := .going (c.call.afterHanding n) } }
  | aborts (hs : c.stage = .handed) : SendTurn v k c
      { v with sends := v.sends.set k { c with stage := .aborted } }
  | next {stage stage' : SendStage} {g : ClientGroup Run} (hs : c.stage = .going stage)
      (hstage : stage ≠ .handing) (hstep : v.group.sendStep c.call stage = .next stage' g) :
      SendTurn v k c
        { v with group := g, sends := v.sends.set k { c with stage := .going stage' } }
  | done {stage : SendStage} {answer : SendAnswer} {g : ClientGroup Run}
      (hs : c.stage = .going stage) (hstage : stage ≠ .handing)
      (hstep : v.group.sendStep c.call stage = .done answer g) : SendTurn v k c
        { v with group := g, sends := v.sends.set k { c with stage := .returned answer } }
  | stops {stage : SendStage} (hs : c.stage = .going stage) (hstage : stage ≠ .handing)
      (hstep : v.group.sendStep c.call stage = .aborted) : SendTurn v k c
        { v with sends := v.sends.set k { c with stage := .aborted } }

theorem sendTurn_of_sendStep (h : v.sendStep k = some v') :
    ∃ c, v.sends[k]? = some c ∧ SendTurn v k c v' := by
  unfold sendStep at h
  split at h
  · cases h
  · rename_i c hk
    refine ⟨c, hk, ?_⟩
    split at h
    · rename_i hs
      obtain rfl := Option.some.inj h
      exact .hands hs
    · rename_i hs
      split at h
      · rename_i hi
        obtain rfl := Option.some.inj h
        obtain ⟨i, hc, hi⟩ := Option.bind_eq_some_iff.1 hi
        exact .returns hs hc hi
      · obtain rfl := Option.some.inj h
        exact .aborts hs
      · cases h
    · rename_i hstage hs
      split at h
      · rename_i hstep
        obtain rfl := Option.some.inj h
        exact .next hs hstage hstep
      · rename_i hstep
        obtain rfl := Option.some.inj h
        exact .done hs hstage hstep
      · rename_i hstep
        obtain rfl := Option.some.inj h
        exact .stops hs hstage hstep
    · cases h
    · cases h

/-- All that a step of a close can be. -/
inductive CloseTurn (v : World) (k : Nat) (c : ClientClose) : World → Prop
  | hands (hs : c.stage = .going .closing) : CloseTurn v k c (v.shutDown k c)
  | returns {i : Nat} {effective : Bool} (hs : c.stage = .handed i)
      (hi : v.run.closes[i]? = some (.done effective)) : CloseTurn v k c
        { v with closes := v.closes.set k { c with stage := .returned true } }
  | next {stage stage' : CloseStage} {g : ClientGroup Run} (hs : c.stage = .going stage)
      (hstage : stage ≠ .closing) (hstep : v.group.closeStep c.client stage = .next stage' g) :
      CloseTurn v k c
        { v with group := g, closes := v.closes.set k { c with stage := .going stage' } }
  | done {stage : CloseStage} {answer : Bool} {g : ClientGroup Run}
      (hs : c.stage = .going stage) (hstage : stage ≠ .closing)
      (hstep : v.group.closeStep c.client stage = .done answer g) : CloseTurn v k c
        { v with group := g, closes := v.closes.set k { c with stage := .returned answer } }

theorem closeTurn_of_closeStep (h : v.closeStep k = some v') :
    ∃ c, v.closes[k]? = some c ∧ CloseTurn v k c v' := by
  unfold closeStep at h
  split at h
  · cases h
  · rename_i c hk
    refine ⟨c, hk, ?_⟩
    split at h
    · rename_i hs
      obtain rfl := Option.some.inj h
      exact .hands hs
    · rename_i hs
      split at h
      · rename_i hi
        obtain rfl := Option.some.inj h
        exact .returns hs hi
      · cases h
    · rename_i hstage hs
      split at h
      · rename_i hstep
        obtain rfl := Option.some.inj h
        exact .next hs hstage hstep
      · rename_i hstep
        obtain rfl := Option.some.inj h
        exact .done hs hstage hstep
    · cases h

end World

/-! ## What a step of a send does -/

/-- An answer that tells how an operation ended. -/
def SendAnswer.Tells (answer : SendAnswer) (r : SendResult) : Prop :=
  ∃ (g : ClientGroup Run) (client : Nat), answer = g.classify client (some r)

/-- A step of a send, and what it does to the run. -/
inductive ClientSend.Goes (c : ClientSend) (w : Run) : ClientSend → Run → Prop
  | opens (hs : c.stage = .going .opening) :
      Goes c w { c with stage := .going .counting } w
  | rejects (answer : SendAnswer) (hs : c.stage = .going .opening)
      (ha : (∃ text, answer = .error (.closed text)) ∨
        (c.call.target ≠ none ∧ ∃ text t, answer = .error (.unexpectedTarget text t))) :
      Goes c w { c with stage := .returned answer } w
  | counts (hs : c.stage = .going .counting) :
      Goes c w { c with stage := .going .handing } w
  | hands (hs : c.stage = .going .handing) :
      Goes c w { c with sending := some w.sends.length, stage := .handed }
        (w.begin c.call.payload)
  | returns {i n : Nat} {p : Payload} (hs : c.stage = .handed) (hc : c.sending = some i)
      (hi : w.sends[i]? = some ⟨p, .returned n⟩) :
      Goes c w { c with stage := .going (c.call.afterHanding n) } w
  | aborts (hs : c.stage = .handed) : Goes c w { c with stage := .aborted } w
  /-- The ack was left with the operation. -/
  | leaves {n : Nat} {ack : Ack} {board : Board Ack} {w' : Run}
      (hs : c.stage = .going (.registering n)) (ha : c.call.ack = some ack)
      (hb : w.session.board.onComplete n ack = (true, board))
      (hw : w.step? (.outside (.watch n ack)) = some w') :
      Goes c w { c with stage := .going (.settling none) } w'
  | refused {n : Nat} {ack : Ack} {board : Board Ack}
      (hs : c.stage = .going (.registering n)) (ha : c.call.ack = some ack)
      (hb : w.session.board.onComplete n ack = (false, board)) :
      Goes c w { c with stage := .going (.refused n) } w
  | skips {n : Nat} (hs : c.stage = .going (.registering n)) (ha : c.call.ack = none) :
      Goes c w { c with stage := .going (.looking n) } w
  | turns {n : Nat} {w' : Run} (hs : c.stage = .going (.refused n)) (hq : Run.Quietly w w') :
      Goes c w { c with stage := .going (.looking n) } w'
  | looks {n : Nat} (hs : c.stage = .going (.looking n)) :
      Goes c w { c with stage := .going (.settling (w.session.board.result? n)) } w
  | flies {w' : Run} (hs : c.stage = .going (.settling none)) (hq : Run.Quietly w w') :
      Goes c w { c with stage := .returned (.ok .inFlight) } w'
  | tells {r : SendResult} {answer : SendAnswer} {w' : Run}
      (hs : c.stage = .going (.settling (some r))) (ha : answer.Tells r)
      (hq : Run.Quietly w w') :
      Goes c w { c with stage := .returned answer } w'

namespace World

/-- What a step does to the sends of a world, and to its run. -/
inductive Effect (v v' : World) : Prop
  | aside (hq : Run.Quietly v.run v'.run) (hs : v'.sends = v.sends)
  | begins (call : SendCall) (hrun : v'.run = v.run)
      (hs : v'.sends = v.sends ++ [{ call := call }])
  | goes {k : Nat} {c c' : ClientSend} (hk : v.sends[k]? = some c)
      (hs : v'.sends = v.sends.set k c') (hgoes : c.Goes v.run c' v'.run)

variable {v v' : World}

/-- An entry in the log is a step of the session. -/
private theorem quietly_log (w : Run) (e : LogEntry) :
    Run.Quietly w (SessionHost.log w e) :=
  Run.quietly_of_step (e := .outside (.log e)) rfl rfl

private theorem quietly_bindAs (g : ClientGroup Run) (id : ClientId) :
    Run.Quietly g.session (g.bindAs id).2.session := by
  have hattach : Run.Quietly g.session
      (g.modifySlots (·.attach .client (.owner id))).session :=
    Run.quietly_of_step (e := .outside (.attach .client (.owner id))) rfl rfl
  unfold ClientGroup.bindAs
  dsimp only
  split
  · exact (hattach.trans (quietly_log _ _)).trans (quietly_log _ _)
  · exact hattach.trans (quietly_log _ _)

/-- What a send does by itself, before it hands its payload over and after it
has got an operation. -/
private theorem goes_of_sendStep {c : ClientSend} {stage : SendStage}
    (hs : c.stage = .going stage) (hstage : stage ≠ .handing) :
    match v.group.sendStep c.call stage with
    | .next stage' g => c.Goes v.run { c with stage := .going stage' } g.session
    | .done answer g => c.Goes v.run { c with stage := .returned answer } g.session
    | .aborted => False := by
  cases stage with
  | opening =>
      simp only [ClientGroup.sendStep]
      cases htarget : c.call.target with
      | some target => exact .rejects _ hs (.inr ⟨by rw [htarget]; nofun, _, _, rfl⟩)
      | none =>
          simp only
          split
          · rename_i stage g heq
            split at heq <;> cases heq
            exact .opens hs
          · rename_i answer g heq
            split at heq <;> cases heq
            exact .rejects _ hs (.inl ⟨_, rfl⟩)
          · rename_i heq
            split at heq <;> cases heq
  | counting => exact .counts hs
  | handing => exact absurd rfl hstage
  | registering n =>
      simp only [ClientGroup.sendStep]
      cases hack : c.call.ack with
      | none => exact .skips hs hack
      | some ack =>
          cases hb : (SessionHost.board v.group.session).onComplete n ack with
          | mk taken board =>
              simp only [hb]
              cases taken with
              | false => exact .refused hs hack hb
              | true =>
                  refine .leaves hs hack hb ?_
                  have hboard : (v.run.session.board.onComplete n ack).2 = board := by
                    rw [show v.run.session.board.onComplete n ack = _ from hb]
                  simp only [Run.step?, Session.outside, hboard]
                  rfl
  | refused n =>
      simp only [ClientGroup.sendStep]
      split
      · rename_i stage g heq
        split at heq
        · cases heq
          exact .turns hs .refl
        · cases heq
          exact .turns hs (quietly_log _ _)
      · rename_i answer g heq
        split at heq <;> cases heq
      · rename_i heq
        split at heq <;> cases heq
  | looking n => exact .looks hs
  | settling result =>
      simp only [ClientGroup.sendStep]
      cases result with
      | none => exact .flies hs .refl
      | some r =>
          cases r with
          | ok => exact .tells hs ⟨v.group, c.call.client, rfl⟩ .refl
          | error e => exact .tells hs ⟨v.group, c.call.client, rfl⟩ (quietly_log _ _)

private theorem effect_sendStep {k : Nat} (h : v.sendStep k = some v') : Effect v v' := by
  obtain ⟨c, hk, hturn⟩ := sendTurn_of_sendStep h
  cases hturn with
  | hands hs => exact .goes hk rfl (.hands hs)
  | returns hs hc hi => exact .goes hk rfl (.returns hs hc hi)
  | aborts hs => exact .goes hk rfl (.aborts hs)
  | next hs hstage hstep =>
      have hgoes := goes_of_sendStep (v := v) hs hstage
      rw [hstep] at hgoes
      exact .goes hk rfl hgoes
  | done hs hstage hstep =>
      have hgoes := goes_of_sendStep (v := v) hs hstage
      rw [hstep] at hgoes
      exact .goes hk rfl hgoes
  | stops hs hstage hstep =>
      have hgoes := goes_of_sendStep (v := v) hs hstage
      rw [hstep] at hgoes
      cases hgoes

private theorem quietly_closeStep {n : Nat} {stage : CloseStage} (hstage : stage ≠ .closing) :
    match v.group.closeStep n stage with
    | .next _ g | .done _ g => Run.Quietly v.run g.session := by
  cases stage with
  | gate forced =>
      cases forced with
      | true => exact .refl
      | false =>
          simp only [ClientGroup.closeStep]
          split
          · rename_i g heq
            split at heq
            · cases heq
            · split at heq <;> cases heq
              exact .refl
          · rename_i g heq
            split at heq
            · cases heq
              exact .refl
            · split at heq <;> cases heq
              exact .refl
  | reading =>
      simp only [ClientGroup.closeStep]
      split
      · rename_i g heq
        split at heq <;> cases heq <;> exact .refl
      · rename_i g heq
        split at heq <;> cases heq
  | removing => exact Run.quietly_of_step (e := .outside (.remove .client)) rfl rfl
  | closing => exact absurd rfl hstage

private theorem effect_closeStep {k : Nat} (h : v.closeStep k = some v') : Effect v v' := by
  obtain ⟨c, -, hturn⟩ := closeTurn_of_closeStep h
  cases hturn with
  | hands hs => exact .aside (Run.quietly_of_step (e := .close) rfl rfl) rfl
  | returns hs hi => exact .aside .refl rfl
  | next hs hstage hstep =>
      have hquiet := quietly_closeStep (v := v) (n := c.client) hstage
      rw [hstep] at hquiet
      exact .aside hquiet rfl
  | done hs hstage hstep =>
      have hquiet := quietly_closeStep (v := v) (n := c.client) hstage
      rw [hstep] at hquiet
      exact .aside hquiet rfl

theorem fresh_of_bind {id : ClientId} (h : v.step? (.bind id) = some v') :
    v.group.isFresh id = true ∧ v' = { v with group := (v.group.bindAs id).2 } := by
  simp only [step?] at h
  split at h
  · rename_i hfresh
    exact ⟨hfresh, (Option.some.inj h).symm⟩
  · cases h

theorem run_of_session {e : RunEvent} (h : v.step? (.session e) = some v') :
    e.hooks = false ∧ ∃ w, v.run.step? e = some w ∧ v' = v.setRun w := by
  simp only [step?] at h
  split at h
  · cases h
  · rename_i hhooks
    obtain ⟨w, hw, rfl⟩ := Option.map_eq_some_iff.1 h
    exact ⟨by simpa using hhooks, w, hw, rfl⟩

theorem effect_of_step {e : WorldEvent} (h : v.step? e = some v') : Effect v v' := by
  cases e with
  | bind id =>
      obtain ⟨-, rfl⟩ := fresh_of_bind h
      exact .aside (quietly_bindAs v.group id) rfl
  | send call =>
      obtain rfl := Option.some.inj h
      exact .begins call rfl rfl
  | sendStep k => exact effect_sendStep h
  | close client forced =>
      obtain rfl := Option.some.inj h
      exact .aside .refl rfl
  | closeStep k => exact effect_closeStep h
  | session e =>
      obtain ⟨hhooks, w, hw, rfl⟩ := run_of_session h
      exact .aside (Run.quietly_of_step hw hhooks) rfl

/-- A step of a send leaves an ack with an operation, or it leaves all acks alone. -/
theorem quietly_or_leaves {c c' : ClientSend} {w w' : Run} (h : c.Goes w c' w') :
    Run.Quietly w w' ∨ ∃ n ack board, c.stage = .going (.registering n) ∧
      c'.stage = .going (.settling none) ∧ c'.call = c.call ∧ c'.sending = c.sending ∧
      c.call.ack = some ack ∧ w.session.board.onComplete n ack = (true, board) ∧
      w.step? (.outside (.watch n ack)) = some w' := by
  cases h with
  | leaves hs ha hb hw => exact .inr ⟨_, _, _, hs, rfl, rfl, rfl, ha, hb, hw⟩
  | hands hs => exact .inl (Run.quietly_of_step (e := .send c.call.payload) rfl rfl)
  | turns hs hq => exact .inl hq
  | flies hs hq => exact .inl hq
  | tells hs ha hq => exact .inl hq
  | _ => exact .inl .refl

/-! ## Calls that nobody interrupts -/

/-- A send goes on when the session's send has returned. -/
theorem sendStep_of_returned {k i n : Nat} {c : ClientSend} {p : Payload}
    (hk : v.sends[k]? = some c) (hs : c.stage = .handed) (hc : c.sending = some i)
    (hi : v.run.sends[i]? = some ⟨p, .returned n⟩) :
    v.sendStep k = some { v with
      sends := v.sends.set k { c with stage := .going (c.call.afterHanding n) } } := by
  simp only [sendStep, hk, hs, hc, Option.bind_some, hi]

private theorem sendStep_of_aborted {k i : Nat} {c : ClientSend} {p : Payload}
    (hk : v.sends[k]? = some c) (hs : c.stage = .handed) (hc : c.sending = some i)
    (hi : v.run.sends[i]? = some ⟨p, .aborted⟩) :
    v.sendStep k = some { v with sends := v.sends.set k { c with stage := .aborted } } := by
  simp only [sendStep, hk, hs, hc, Option.bind_some, hi]

/-- A close goes on when the session's close has returned. -/
theorem closeStep_of_returned {k i : Nat} {c : ClientClose} {effective : Bool}
    (hk : v.closes[k]? = some c) (hs : c.stage = .handed i)
    (hi : v.run.closes[i]? = some (.done effective)) :
    v.closeStep k =
      some { v with closes := v.closes.set k { c with stage := .returned true } } := by
  simp only [closeStep, hk, hs, hi]

/-- What the session does without leaving or taking off an ack, it does for its clients. -/
theorem steps_of_quietly {w : Run} (h : Run.Quietly v.run w) : Steps v (v.setRun w) := by
  refine h.lift v.setRun fun w₁ w₂ hs => ?_
  obtain ⟨e, hhooks, he⟩ := Run.leads_quietly.1 hs
  refine ⟨.session e, ?_⟩
  simp only [step?, hhooks, Bool.false_eq_true, if_false]
  exact congrArg (Option.map (v.setRun w₁).setRun) he

/-- A send hands its payload over, and the session takes it or aborts the caller. -/
private theorem steps_handOver {k : Nat} {c : ClientSend} (hk : v.sends[k]? = some c)
    (hs : c.stage = .going .handing) :
    Steps v ((v.handOver k c).setRun (v.run.sent c.call.payload)) := by
  have hbegins : v.step? (.sendStep k) = some (v.handOver k c) := by
    simp only [step?, sendStep, hk, hs]
  exact .head ⟨_, hbegins⟩ (steps_of_quietly (Run.quietly_sent v.run c.call.payload))

/-- Handing a payload over without interruption is the step of `ClientGroup.sendStep`. -/
theorem steps_handing {k : Nat} {c : ClientSend} {stage : SendStage} {g : ClientGroup Run}
    (hk : v.sends[k]? = some c) (hs : c.stage = .going .handing)
    (h : v.group.sendStep c.call .handing = .next stage g) :
    Steps v { v with
      group := g
      sends := v.sends.set k
        { c with sending := some v.run.sends.length, stage := .going stage } } := by
  simp only [ClientGroup.sendStep] at h
  split at h
  · cases h
  · rename_i n w hhost
    obtain ⟨⟨n, s⟩, hsend, ⟨⟩⟩ := Option.map_eq_some_iff.1 hhost
    cases h
    have hlt := (List.getElem?_eq_some_iff.1 hk).1
    obtain ⟨-, hsends⟩ := Run.sent_of_send hsend
    have hreturned : (v.run.sent c.call.payload).sends[v.run.sends.length]? =
        some ⟨c.call.payload, .returned n⟩ := by
      rw [show (v.run.sent c.call.payload).sends = _ from hsends]
      exact List.getElem?_concat_length
    refine (steps_handOver hk hs).tail ⟨.sendStep k, ?_⟩
    have hgoes := sendStep_of_returned (v := (v.handOver k c).setRun (v.run.sent c.call.payload))
      (List.getElem?_set_self hlt) rfl rfl hreturned
    rw [step?, hgoes]
    simp only [setRun, handOver, List.set_set]
    rfl

/-- So is being aborted; it leaves the session as it is. -/
theorem steps_aborting {k : Nat} {c : ClientSend} (hk : v.sends[k]? = some c)
    (hs : c.stage = .going .handing) (h : v.group.sendStep c.call .handing = .aborted) :
    ∃ w, w.session = v.run.session ∧ Steps v { v.setRun w with
      sends := v.sends.set k
        { c with sending := some v.run.sends.length, stage := .aborted } } := by
  simp only [ClientGroup.sendStep] at h
  split at h
  · rename_i hhost
    have hlt := (List.getElem?_eq_some_iff.1 hk).1
    obtain ⟨hsession, hsends⟩ := Run.sent_of_abort (Option.map_eq_none_iff.1 hhost)
    have haborted : (v.run.sent c.call.payload).sends[v.run.sends.length]? =
        some ⟨c.call.payload, .aborted⟩ := by
      rw [show (v.run.sent c.call.payload).sends = _ from hsends]
      exact List.getElem?_concat_length
    refine ⟨v.run.sent c.call.payload, hsession, (steps_handOver hk hs).tail ⟨.sendStep k, ?_⟩⟩
    have hgoes := sendStep_of_aborted (v := (v.handOver k c).setRun (v.run.sent c.call.payload))
      (List.getElem?_set_self hlt) rfl rfl haborted
    rw [step?, hgoes]
    simp only [setRun, handOver, List.set_set]
  · cases h

/-- Closing the session without interruption is the step of `ClientGroup.closeStep`. -/
theorem steps_closing {k : Nat} {c : ClientClose} {answer : Bool} {g : ClientGroup Run}
    (hk : v.closes[k]? = some c) (hs : c.stage = .going .closing)
    (h : v.group.closeStep c.client .closing = .done answer g) :
    Steps v { v with
      group := g, closes := v.closes.set k { c with stage := .returned answer } } := by
  cases h
  have hlt := (List.getElem?_eq_some_iff.1 hk).1
  obtain ⟨-, hcloses⟩ := v.run.shut_eq
  have hreturned : v.run.shut.closes[v.run.closes.length]? =
      some (.done v.run.session.close.1) := by
    rw [hcloses]
    exact List.getElem?_concat_length
  have hbegins : v.step? (.closeStep k) = some (v.shutDown k c) := by
    simp only [step?, closeStep, hk, hs]
  have hshut : Steps (v.shutDown k c) ((v.shutDown k c).setRun v.run.shut) :=
    steps_of_quietly (Run.quietly_shut v.run)
  refine (Relation.ReflTransGen.head ⟨_, hbegins⟩ hshut).tail ⟨.closeStep k, ?_⟩
  have hgoes := closeStep_of_returned (v := (v.shutDown k c).setRun v.run.shut)
    (List.getElem?_set_self hlt) rfl hreturned
  rw [step?, hgoes]
  simp only [setRun, shutDown, List.set_set]
  rfl

/-! ## The session by itself -/

/-- What a step of a send does to the run, the run may do by itself. -/
theorem steps_of_goes {c c' : ClientSend} {w w' : Run} (h : c.Goes w c' w') :
    Run.Steps w w' := by
  rcases quietly_or_leaves h with hq | ⟨n, ack, board, -, -, -, -, -, -, hw⟩
  · exact steps_of_sparing hq
  · exact .single ⟨_, hw⟩

/-- While a world goes on, so does its run. -/
theorem Steps.run (h : Steps v v') : Run.Steps v.run v'.run := by
  induction h with
  | refl => exact .refl
  | tail _ he ih =>
      obtain ⟨e, he⟩ := he
      cases effect_of_step he with
      | aside hq hs => exact ih.trans (steps_of_sparing hq)
      | begins call hrun hs =>
          rw [hrun]
          exact ih
      | goes hk hs hgoes => exact ih.trans (steps_of_goes hgoes)

theorem Reached.run (h : v.Reached) : v.run.Reached := by
  obtain ⟨_, ⟨label, remote, config, now⟩, hs⟩ := h
  exact (Run.Reached.start label remote config now).steps (Steps.run hs)

end World

end PeerLink
