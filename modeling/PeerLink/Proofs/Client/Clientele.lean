import PeerLink.Client.Scripted
import PeerLink.Proofs.Client.World
import PeerLink.Proofs.Pending.Callbacks

/-!
# Clients of any session

What a client may rely on when it knows nothing of its session.  A `Clientele`
is a group of clients over a session of any kind, with the calls that are under
way.  A call does its steps as `ClientGroup.sendStep` has them, one at a time;
between two of them the session and everybody else may do anything.  Only the
board of the session is watched: it belongs to a `Family`, and whatever is done
to it is a step of that family.

While the session's send runs, the call waits.  What the send does is left to
the session.  It hands out a handle on some operation: a new one or an old one,
that may have ended, or may carry a callback already.

An ack that is passed to an operation gets the number of this passing.  Nobody
else holds it, so the runs of this number are the runs of the ack.  Somebody who
takes the ack off the operation has it; what is done with it then is not the
operation's doing.

What a call has come to know at each of its stages (`ClientCall.Holds`) stays
true whatever the others do, and its own steps lead from one such knowledge to
the next.

## Main results

* `Clientele.goes_of_goOn` — all that a step of a call can do.
* `ClientCall.Holds.later` — what a call knows, nobody can make untrue.
* `Clientele.Reached.sound` — every call knows what belongs to its stage.
-/

namespace PeerLink

/-! ## Boards under other callbacks -/

namespace Board

variable {κ κ' : Type}

/-- The board with every callback replaced. -/
def map (f : κ → κ') (b : Board κ) : Board κ' :=
  ⟨(b.operations.toList.map fun o => ⟨o.result, o.callback.map f, o.completer⟩).toArray⟩

theorem operation?_map (f : κ → κ') (b : Board κ) (n : Nat) :
    (b.map f).operation? n =
      (b.operation? n).map fun o => ⟨o.result, o.callback.map f, o.completer⟩ := by
  simp [operation?, map]

@[simp] theorem result?_map (f : κ → κ') (b : Board κ) (n : Nat) :
    (b.map f).result? n = b.result? n := by
  rw [result?, operation?_map]
  unfold result?
  cases b.operation? n <;> rfl

theorem map_set (f : κ → κ') (b : Board κ) (n : Nat) (o : Operation κ) :
    (b.set n o).map f = (b.map f).set n ⟨o.result, o.callback.map f, o.completer⟩ := by
  simp [map, set]

/-- Whether a callback is taken on does not depend on which callback it is. -/
theorem onComplete_map (f : κ → κ') (b : Board κ) (n : Nat) (x : κ) :
    (b.map f).onComplete n (f x) = ((b.onComplete n x).1, (b.onComplete n x).2.map f) := by
  unfold onComplete
  rw [operation?_map]
  cases b.operation? n with
  | none => rfl
  | some o =>
      simp only [Option.map_some, Option.isSome_map]
      split
      · rfl
      · rw [map_set]
        rfl

end Board

/-- A session keeps the board that it is given, and logging leaves it alone. -/
class LawfulHost (σ : Type) [SessionHost σ] : Prop where
  board_setBoard (s : σ) (b : Board Ack) : SessionHost.board (SessionHost.setBoard s b) = b
  board_log (s : σ) (e : LogEntry) : SessionHost.board (SessionHost.log s e) = SessionHost.board s

instance : LawfulHost Run := ⟨fun _ _ => rfl, fun _ _ => rfl⟩

instance : LawfulHost ScriptedSession := ⟨fun _ _ => rfl, fun _ _ => rfl⟩

/-! ## What an answer says -/

namespace SendAnswer

/-- The call was turned away before it asked the session. -/
def TurnsAway (answer : SendAnswer) (call : SendCall) : Prop :=
  (∃ client, answer = .error (.closed client)) ∨
    ∃ client target, call.target = some target ∧
      answer = .error (.unexpectedTarget client target)

/-- The answer is the one for an operation that stood so. -/
def Reports (answer : SendAnswer) : Option SendResult → Prop
  | none => answer = .ok .inFlight
  | some (.ok ()) => answer = .ok .accepted
  | some (.error (.io fault)) => answer = .ok (.needsReconnect (.io fault))
  | some (.error .sessionClosed) => answer = .ok (.needsReconnect .sessionClosed)
  | some (.error cause) => ∃ client, answer = .error (.sendFailed client cause)

theorem not_turnsAway_inFlight {call : SendCall} :
    ¬ TurnsAway (.ok .inFlight) call := by
  rintro (⟨client, h⟩ | ⟨client, target, -, h⟩) <;> cases h

theorem Reports.eq_none {result : Option SendResult} (h : Reports (.ok .inFlight) result) :
    result = none := by
  cases result with
  | none => rfl
  | some r =>
      cases r with
      | ok => simp [Reports] at h
      | error cause => cases cause <;> simp [Reports] at h

end SendAnswer

theorem ClientGroup.reports_classify {σ : Type} [SessionHost σ] (g : ClientGroup σ) (n : Nat)
    (result : Option SendResult) : (g.classify n result).Reports result := by
  cases result with
  | none => rfl
  | some r =>
      cases r with
      | ok => rfl
      | error cause =>
          cases cause with
          | io | sessionClosed => rfl
          | _ => exact ⟨_, rfl⟩

/-! ## Calls -/

/-- A send that was begun through a client. -/
structure ClientCall where
  call : SendCall
  /-- The operation that the session has handed out. -/
  operation : Option Nat := none
  /-- The number of the passing of its ack. -/
  passing : Option Nat := none
  stage : CallStage := .going .opening

/-- The clients of a session, with their calls and the operations of the session. -/
structure Clientele (σ : Type) where
  group : ClientGroup σ
  family : Family Ack
  calls : List ClientCall := []

namespace Clientele

variable {σ : Type} [SessionHost σ]

/-- What the step of a call does to the operations: it may pass its ack to one. -/
def passes (w : Family Ack) (c : ClientCall) (stage : SendStage) : Family Ack × Option Nat :=
  match stage, c.call.ack with
  | .registering n, some ack => (w.pass n ack, some w.passings.length)
  | _, _ => (w, c.passing)

/-- A call does its next step; nothing if it waits or is over. -/
def goOn (v : Clientele σ) (k : Nat) : Option (Clientele σ) :=
  match v.calls[k]? with
  | none => none
  | some c =>
    match c.stage with
    | .going .handing => some { v with calls := v.calls.set k { c with stage := .handed } }
    | .going stage =>
      let p := passes v.family c stage
      match v.group.sendStep c.call stage with
      | .next stage g =>
        some ⟨g, p.1, v.calls.set k { c with passing := p.2, stage := .going stage }⟩
      | .done answer g =>
        some ⟨g, p.1, v.calls.set k { c with passing := p.2, stage := .returned answer }⟩
      | .aborted => some { v with calls := v.calls.set k { c with stage := .aborted } }
    | .handed | .returned _ | .aborted => none

/-- One step of a call, or anything that others do. -/
inductive Step (v : Clientele σ) : Clientele σ → Prop
  /-- The session, whoever runs it, and other users of its clients. -/
  | session (g : ClientGroup σ) (w : Family Ack) (hw : Family.Steps v.family w)
      (hb : SessionHost.board g.session = w.board.map Passed.callback) :
      Step v { v with group := g, family := w }
  | begins (call : SendCall) : Step v { v with calls := v.calls ++ [{ call := call }] }
  | goes {k : Nat} {v' : Clientele σ} (h : v.goOn k = some v') : Step v v'
  /-- The session's send returns. -/
  | returns {k n : Nat} {c : ClientCall} (hk : v.calls[k]? = some c) (hs : c.stage = .handed)
      (hn : n ∈ v.family.handles) :
      Step v { v with
        calls := v.calls.set k
          { c with operation := some n, stage := .going (c.call.afterHanding n) } }
  /-- The session aborts the caller. -/
  | aborts {k : Nat} {c : ClientCall} (hk : v.calls[k]? = some c) (hs : c.stage = .handed) :
      Step v { v with calls := v.calls.set k { c with stage := .aborted } }

/-- From one moment to a later one. -/
abbrev Steps : Clientele σ → Clientele σ → Prop := Relation.ReflTransGen Step

/-- At the beginning no call is under way; the session may have handed out
operations before. -/
inductive Begins : Clientele σ → Prop
  | start {g : ClientGroup σ} {w : Family Ack} (hw : w.Reached)
      (hb : SessionHost.board g.session = w.board.map Passed.callback) : Begins ⟨g, w, []⟩

/-- The clientele is at some moment of its life. -/
abbrev Reached (v : Clientele σ) : Prop := Reachable Begins Step v

/-- Handing a payload over in one go is a way for the clientele to go on, if what
the session's send does to the operations is what a family may do. -/
theorem steps_handing {v : Clientele σ} {k n : Nat} {c : ClientCall} {s : σ} {w : Family Ack}
    (hk : v.calls[k]? = some c) (hs : c.stage = .going .handing)
    (hsend : SessionHost.send v.group.session c.call.payload = some (n, s))
    (hw : Family.Steps v.family w) (hb : SessionHost.board s = w.board.map Passed.callback)
    (hn : n ∈ w.handles) :
    v.group.sendStep c.call .handing =
        .next (c.call.afterHanding n) { v.group with session := s } ∧
      Steps v ⟨{ v.group with session := s }, w, v.calls.set k
        { c with operation := some n, stage := .going (c.call.afterHanding n) }⟩ := by
  constructor
  · simp only [ClientGroup.sendStep, hsend]
    rfl
  · have hgo : v.goOn k = some { v with calls := v.calls.set k { c with stage := .handed } } := by
      simp only [goOn, hk, hs]
    have hlt := (List.getElem?_eq_some_iff.1 hk).1
    have hwaits : (v.calls.set k { c with stage := .handed })[k]? =
        some { c with stage := .handed } := List.getElem?_set_self hlt
    have hreturns := Step.returns (v := ⟨{ v.group with session := s }, w, _⟩) hwaits rfl hn
    rw [List.set_set] at hreturns
    have hhanded : Steps v _ := .single (.goes hgo)
    exact (hhanded.tail (.session _ w hw hb)).tail hreturns

/-- A call does its next steps, up to a number of them. -/
abbrev goFor (v : Clientele σ) (k m : Nat) : Clientele σ := repeated (·.goOn k) v m

theorem steps_goFor (v : Clientele σ) (k m : Nat) : Steps v (v.goFor k m) :=
  steps_repeated (fun _ _ => .goes) v m

end Clientele

/-! ## What a step of a call does -/

/-- A step of a call, and what it does to the operations. -/
inductive ClientCall.Goes (c : ClientCall) (w : Family Ack) : ClientCall → Family Ack → Prop
  | opens (hs : c.stage = .going .opening) : Goes c w { c with stage := .going .counting } w
  | turned {answer : SendAnswer} (hs : c.stage = .going .opening)
      (ha : answer.TurnsAway c.call) : Goes c w { c with stage := .returned answer } w
  | counts (hs : c.stage = .going .counting) : Goes c w { c with stage := .going .handing } w
  | hands (hs : c.stage = .going .handing) : Goes c w { c with stage := .handed } w
  | leaves {n : Nat} {ack : Ack} (hs : c.stage = .going (.registering n))
      (hack : c.call.ack = some ack)
      (hb : (w.board.onComplete n ⟨w.passings.length, ack⟩).1 = true) :
      Goes c w { c with passing := some w.passings.length, stage := .going (.settling none) }
        (w.pass n ack)
  | refused {n : Nat} {ack : Ack} (hs : c.stage = .going (.registering n))
      (hack : c.call.ack = some ack)
      (hb : (w.board.onComplete n ⟨w.passings.length, ack⟩).1 = false) :
      Goes c w { c with passing := some w.passings.length, stage := .going (.refused n) }
        (w.pass n ack)
  | skips {n : Nat} (hs : c.stage = .going (.registering n)) (hack : c.call.ack = none) :
      Goes c w { c with stage := .going (.looking n) } w
  | turns {n : Nat} (hs : c.stage = .going (.refused n)) :
      Goes c w { c with stage := .going (.looking n) } w
  | looks {n : Nat} (hs : c.stage = .going (.looking n)) :
      Goes c w { c with stage := .going (.settling (w.board.result? n)) } w
  | answers {result : Option SendResult} {answer : SendAnswer}
      (hs : c.stage = .going (.settling result)) (ha : answer.Reports result) :
      Goes c w { c with stage := .returned answer } w

namespace Clientele

variable {σ : Type} [SessionHost σ] [LawfulHost σ] {v v' : Clientele σ}

/-- The step leaves call `k` as `c'`, and the board to its family. -/
private def Led (v : Clientele σ) (c : ClientCall) (k : Nat) (v' : Clientele σ) : Prop :=
  ∃ c', c.Goes v.family c' v'.family ∧ v'.calls = v.calls.set k c' ∧
    SessionHost.board v'.group.session = v'.family.board.map Passed.callback

/-- What a call does by itself, before it hands its payload over and after it has
got an operation. -/
private theorem led_of_sendStep (hb : SessionHost.board v.group.session =
    v.family.board.map Passed.callback) {c : ClientCall} {stage : SendStage} (k : Nat)
    (hs : c.stage = .going stage) (hstage : stage ≠ .handing) :
    match v.group.sendStep c.call stage with
    | .next stage' g => v.Led c k ⟨g, (passes v.family c stage).1, v.calls.set k
        { c with passing := (passes v.family c stage).2, stage := .going stage' }⟩
    | .done answer g => v.Led c k ⟨g, (passes v.family c stage).1, v.calls.set k
        { c with passing := (passes v.family c stage).2, stage := .returned answer }⟩
    | .aborted => False := by
  cases stage with
  | opening =>
      simp only [ClientGroup.sendStep]
      cases htarget : c.call.target with
      | some target => exact ⟨_, .turned hs (.inr ⟨_, _, htarget, rfl⟩), rfl, hb⟩
      | none =>
          simp only
          cases hgate : (v.group.client? c.call.client).map (·.gate.isClosed) with
          | none => exact ⟨_, .turned hs (.inl ⟨_, rfl⟩), rfl, hb⟩
          | some closed =>
              cases closed with
              | true => exact ⟨_, .turned hs (.inl ⟨_, rfl⟩), rfl, hb⟩
              | false => exact ⟨_, .opens hs, rfl, hb⟩
  | counting => exact ⟨_, .counts hs, rfl, hb⟩
  | handing => exact absurd rfl hstage
  | registering n =>
      cases hack : c.call.ack with
      | none =>
          simp only [ClientGroup.sendStep, passes, hack]
          exact ⟨_, .skips hs hack, rfl, hb⟩
      | some ack =>
          have hmap := Board.onComplete_map Passed.callback v.family.board n
            ⟨v.family.passings.length, ack⟩
          simp only [ClientGroup.sendStep, passes, hack, hb, hmap]
          cases htaken :
              (v.family.board.onComplete n ⟨v.family.passings.length, ack⟩).1 with
          | true => exact ⟨_, .leaves hs hack htaken, rfl, LawfulHost.board_setBoard _ _⟩
          | false =>
              refine ⟨_, .refused hs hack htaken, rfl, ?_⟩
              rw [hb]
              exact congrArg _ (Board.onComplete_of_refused htaken).symm
  | refused n =>
      simp only [ClientGroup.sendStep, passes]
      cases (SessionHost.board v.group.session).isDone n with
      | true => exact ⟨_, .turns hs, rfl, hb⟩
      | false => exact ⟨_, .turns hs, rfl, (LawfulHost.board_log _ _).trans hb⟩
  | looking n =>
      simp only [ClientGroup.sendStep, passes, hb, Board.result?_map]
      exact ⟨_, .looks hs, rfl, hb⟩
  | settling result =>
      have hgoes : c.Goes v.family
          { c with stage := .returned (v.group.classify c.call.client result) } v.family :=
        .answers hs (v.group.reports_classify c.call.client result)
      cases result with
      | none => exact ⟨_, hgoes, rfl, hb⟩
      | some r =>
          cases r with
          | ok => exact ⟨_, hgoes, rfl, hb⟩
          | error cause => exact ⟨_, hgoes, rfl, (LawfulHost.board_log _ _).trans hb⟩

/-- All that a step of a call can do. -/
theorem goes_of_goOn (hb : SessionHost.board v.group.session = v.family.board.map Passed.callback)
    {k : Nat} (h : v.goOn k = some v') :
    ∃ c c', v.calls[k]? = some c ∧ c.Goes v.family c' v'.family ∧
      v'.calls = v.calls.set k c' ∧
      SessionHost.board v'.group.session = v'.family.board.map Passed.callback := by
  unfold goOn at h
  split at h
  · cases h
  · rename_i c hk
    split at h
    · rename_i hs
      obtain rfl := Option.some.inj h
      exact ⟨c, _, hk, .hands hs, rfl, hb⟩
    · rename_i stage hstage hs
      have hled := led_of_sendStep hb k hs hstage
      split at h
      · rename_i stage' g hstep
        obtain rfl := Option.some.inj h
        rw [hstep] at hled
        obtain ⟨c', hled⟩ := hled
        exact ⟨c, c', hk, hled⟩
      · rename_i answer g hstep
        obtain rfl := Option.some.inj h
        rw [hstep] at hled
        obtain ⟨c', hled⟩ := hled
        exact ⟨c, c', hk, hled⟩
      · rename_i hstep
        rw [hstep] at hled
        cases hled
    · cases h
    · cases h
    · cases h

end Clientele

/-! ## What a call knows -/

namespace ClientCall

variable {w w' : Family Ack} {c c' : ClientCall} {n : Nat}

/-- The ack was passed to the operation, which took it on or not. -/
def Asked (w : Family Ack) (c : ClientCall) (n : Nat) (takenOn : Bool) : Prop :=
  ∃ ack i, c.call.ack = some ack ∧ c.passing = some i ∧ ⟨n, ⟨i, ack⟩, takenOn⟩ ∈ w.passings

/-- The operation does not have the ack. -/
def Unheard (w : Family Ack) (c : ClientCall) (n : Nat) : Prop :=
  c.call.ack = none ∧ c.passing = none ∨ c.Asked w n false

/-- What is known of the ack, and of the operation, once the call has learned how
the operation stands. -/
def Learned (w : Family Ack) (c : ClientCall) (n : Nat) : Option SendResult → Prop
  | none => c.Asked w n true ∨
      c.Unheard w n ∧ (c.passing ≠ none → ∃ x, ⟨n, x, true⟩ ∈ w.passings)
  | some r => w.board.result? n = some r ∧ c.Unheard w n

/-- What a call knows at its stage. -/
def Holds (w : Family Ack) (c : ClientCall) : Prop :=
  match c.stage with
  | .going .opening | .going .counting | .going .handing | .handed | .aborted =>
    c.operation = none ∧ c.passing = none
  | .going (.registering n) => c.operation = some n ∧ c.passing = none ∧ n ∈ w.handles
  | .going (.refused n) | .going (.looking n) => c.operation = some n ∧ c.Unheard w n
  | .going (.settling result) => ∃ n, c.operation = some n ∧ c.Learned w n result
  | .returned answer =>
    (c.operation = none ∧ c.passing = none ∧ answer.TurnsAway c.call) ∨
      ∃ n result, c.operation = some n ∧ answer.Reports result ∧ c.Learned w n result

/-! ### Nobody makes it untrue -/

theorem Asked.later (h : c.Asked w n takenOn) (hp : w.passings ⊆ w'.passings) :
    c.Asked w' n takenOn := by
  obtain ⟨ack, i, hack, hpassing, hmem⟩ := h
  exact ⟨ack, i, hack, hpassing, hp hmem⟩

theorem Unheard.later (h : c.Unheard w n) (hp : w.passings ⊆ w'.passings) :
    c.Unheard w' n := by
  rcases h with hnone | hrefused
  · exact .inl hnone
  · exact .inr (hrefused.later hp)

theorem Learned.later {result : Option SendResult} (h : c.Learned w n result)
    (hp : w.passings ⊆ w'.passings) (hb : w.board.Extends w'.board) :
    c.Learned w' n result := by
  cases result with
  | none =>
      rcases h with htaken | ⟨hunheard, hother⟩
      · exact .inl (htaken.later hp)
      · refine .inr ⟨hunheard.later hp, fun hpassing => ?_⟩
        obtain ⟨x, hx⟩ := hother hpassing
        exact ⟨x, hp hx⟩
  | some r => exact ⟨hb n r h.1, h.2.later hp⟩

theorem Holds.later (h : c.Holds w) (hw : w.Reached) (hs : Family.Steps w w') :
    c.Holds w' := by
  have hpassings := (hs.grows hw).1
  have hextends := hs.extends hw
  unfold Holds at h ⊢
  split at h
  all_goals try exact h
  · exact ⟨h.1, h.2.1, hs.handles_subset hw h.2.2⟩
  · exact ⟨h.1, h.2.later hpassings⟩
  · exact ⟨h.1, h.2.later hpassings⟩
  · obtain ⟨n, ho, hlearned⟩ := h
    exact ⟨n, ho, hlearned.later hpassings hextends⟩
  · rcases h with hturned | ⟨n, result, ho, ha, hlearned⟩
    · exact .inl hturned
    · exact .inr ⟨n, result, ho, ha, hlearned.later hpassings hextends⟩

/-! ### The steps of the call -/

/-- An ack is passed to an operation. -/
private theorem asked_pass {ack : Ack} (hack : c.call.ack = some ack) (stage : CallStage)
    {takenOn : Bool}
    (hb : (w.board.onComplete n ⟨w.passings.length, ack⟩).1 = takenOn) :
    Asked (w.pass n ack) { c with passing := some w.passings.length, stage := stage } n
      takenOn := by
  refine ⟨ack, w.passings.length, hack, rfl, ?_⟩
  show _ ∈ w.passings ++ [_]
  rw [← hb]
  exact List.mem_append_right _ (List.mem_singleton.2 rfl)

theorem Holds.goes (h : c.Holds w) (hw : w.Reached) (hg : c.Goes w c' w') :
    Family.Steps w w' ∧ c'.Holds w' := by
  unfold Holds at h
  cases hg with
  | opens hs | counts hs | hands hs =>
      rw [hs] at h
      exact ⟨.refl, h⟩
  | turned hs ha =>
      rw [hs] at h
      exact ⟨.refl, .inl ⟨h.1, h.2, ha⟩⟩
  | leaves hs hack hb =>
      rw [hs] at h
      obtain ⟨ho, -, hn⟩ := h
      exact ⟨Family.steps_pass hn _, _, ho, .inl (asked_pass hack _ hb)⟩
  | refused hs hack hb =>
      rw [hs] at h
      obtain ⟨ho, -, hn⟩ := h
      exact ⟨Family.steps_pass hn _, ho, .inr (asked_pass hack _ hb)⟩
  | skips hs hack =>
      rw [hs] at h
      exact ⟨.refl, h.1, .inl ⟨hack, h.2.1⟩⟩
  | turns hs =>
      rw [hs] at h
      exact ⟨.refl, h⟩
  | looks hs =>
      rename_i n
      rw [hs] at h
      obtain ⟨ho, hunheard⟩ := h
      refine ⟨.refl, n, ho, ?_⟩
      cases hr : w.board.result? n with
      | some r => exact ⟨hr, hunheard⟩
      | none =>
          refine .inr ⟨hunheard, fun hpassing => ?_⟩
          rcases hunheard with ⟨-, hnone⟩ | ⟨ack, i, -, -, hmem⟩
          · exact absurd hnone hpassing
          · exact hw.refused_for _ hmem rfl hr
  | answers hs ha =>
      rename_i result answer
      rw [hs] at h
      obtain ⟨n, ho, hlearned⟩ := h
      exact ⟨.refl, .inr ⟨n, result, ho, ha, hlearned⟩⟩

end ClientCall

/-! ## Every call knows what belongs to its stage -/

namespace Clientele

variable {σ : Type} [SessionHost σ] {v v' : Clientele σ}

/-- The board is that of a family, and the calls know of it what belongs to their
stages. -/
structure Sound (v : Clientele σ) : Prop where
  family : v.family.Reached
  board : SessionHost.board v.group.session = v.family.board.map Passed.callback
  calls : ∀ c ∈ v.calls, c.Holds v.family

private theorem holds_set {w : Family Ack} {calls : List ClientCall} {c' : ClientCall} (k : Nat)
    (h : ∀ c ∈ calls, c.Holds w) (hc' : c'.Holds w) : ∀ c ∈ calls.set k c', c.Holds w := by
  intro c hc
  rcases List.mem_or_eq_of_mem_set hc with hold | heq
  · exact h c hold
  · rw [heq]
    exact hc'

variable [LawfulHost σ]

theorem Sound.step (h : v.Sound) (hs : v.Step v') :
    v'.Sound ∧ Family.Steps v.family v'.family := by
  cases hs with
  | session g w hw hb =>
      exact ⟨⟨h.family.steps hw, hb, fun c hc => (h.calls c hc).later h.family hw⟩, hw⟩
  | begins call =>
      refine ⟨⟨h.family, h.board, fun c hc => ?_⟩, .refl⟩
      rcases List.mem_append.1 hc with hold | hlast
      · exact h.calls c hold
      · rw [List.mem_singleton.1 hlast]
        exact ⟨rfl, rfl⟩
  | goes hgo =>
      obtain ⟨c, c', hk, hgoes, hcalls, hboard⟩ := goes_of_goOn h.board hgo
      obtain ⟨hsteps, hholds⟩ := (h.calls c (List.mem_of_getElem? hk)).goes h.family hgoes
      have hothers : ∀ d ∈ v.calls, d.Holds v'.family := fun d hd =>
        (h.calls d hd).later h.family hsteps
      refine ⟨⟨h.family.steps hsteps, hboard, ?_⟩, hsteps⟩
      rw [hcalls]
      exact holds_set _ hothers hholds
  | returns hk hs hn =>
      rename_i k n c
      have hc := h.calls c (List.mem_of_getElem? hk)
      unfold ClientCall.Holds at hc
      rw [hs] at hc
      refine ⟨⟨h.family, h.board, holds_set k h.calls ?_⟩, .refl⟩
      unfold ClientCall.Holds SendCall.afterHanding
      cases hack : c.call.ack with
      | none => exact ⟨rfl, .inl ⟨hack, hc.2⟩⟩
      | some ack => exact ⟨rfl, hc.2, hn⟩
  | aborts hk hs =>
      rename_i k c
      have hc := h.calls c (List.mem_of_getElem? hk)
      unfold ClientCall.Holds at hc
      rw [hs] at hc
      exact ⟨⟨h.family, h.board, holds_set k h.calls hc⟩, .refl⟩

theorem Sound.steps (h : v.Sound) (hs : Steps v v') :
    v'.Sound ∧ Family.Steps v.family v'.family := by
  induction hs with
  | refl => exact ⟨h, .refl⟩
  | tail _ hstep ih =>
      obtain ⟨hsound, hsteps⟩ := ih
      obtain ⟨hsound', hsteps'⟩ := hsound.step hstep
      exact ⟨hsound', hsteps.trans hsteps'⟩

theorem Reached.sound (h : v.Reached) : v.Sound := by
  refine h.invariant (P := Sound) ?_ fun _ _ _ hs hsound => (hsound.step hs).1
  rintro _ ⟨hw, hb⟩
  refine ⟨hw, hb, fun c hc => ?_⟩
  cases hc

/-- A clientele goes on as its family may by itself. -/
theorem Reached.family_steps (h : v.Reached) (hs : Steps v v') :
    Family.Steps v.family v'.family :=
  (h.sound.steps hs).2

end Clientele

end PeerLink
