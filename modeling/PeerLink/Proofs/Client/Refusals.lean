import PeerLink.Proofs.Client.Channels
import PeerLink.Proofs.Client.Tally

/-!
# Calls that touch nothing, and sends that touch the session once

A client turns a call away before it does anything: a message with a target of its own,
closed or not; any send, once it is closed; and what clients of sessions do not do at
all.  Such a call leaves the session and all clients as they are, and its ack is passed
to no operation, so that it never runs.

Every other send hands its payload to the session once and counts itself once.  Over a
session that does no more with a payload than record it (`RecordingHost`), nothing else
changes: the slots, the closing and all earlier operations stay as they are.

## Main results

* `ClientGroup.spares_sendStep` — after it has its operation, a step of a send touches
  nothing but that operation, the log and its own counters.
* `ClientGroup.sends_once` — a whole send through an open client.
* `Dealings.Reached.count_handed` — a send hands its payload over once.
* `Clientele.touchesOwn_of_goOn` — what a step of a send does among other calls.
* `Clientele.refused_calls_touch_nothing` — the calls that are turned away, and the others.
-/

namespace PeerLink

/-! ## Sessions that record what they are given -/

/-- What a session holds besides its operations and its log. -/
structure Holdings where
  slots : Slots
  isClosed : Bool
  /-- What it was given to send, in order. -/
  payloads : List Payload
  /-- How often it was told to close. -/
  closeCalls : Nat

/-- One payload more. -/
def Holdings.record (x : Holdings) (p : Payload) : Holdings :=
  { x with payloads := x.payloads ++ [p] }

/-- A session whose send does no more than record the payload and hand out a new
operation. -/
class RecordingHost (σ : Type) [SessionHost σ] extends LawfulHost σ where
  holdings : σ → Holdings
  slots_holdings (s : σ) : (holdings s).slots = SessionHost.slots s
  isClosed_holdings (s : σ) : (holdings s).isClosed = SessionHost.isClosed s
  holdings_setBoard (s : σ) (b : Board Ack) : holdings (SessionHost.setBoard s b) = holdings s
  holdings_log (s : σ) (e : LogEntry) : holdings (SessionHost.log s e) = holdings s
  records (s : σ) (p : Payload) : ∃ o s',
    SessionHost.send s p = some ((SessionHost.board s).size, s') ∧
      SessionHost.board s' = (SessionHost.board s).push o ∧
      holdings s' = (holdings s).record p

instance : RecordingHost ScriptedSession where
  holdings s := ⟨s.slots, s.closed, s.payloads.toList, s.closeCalls⟩
  slots_holdings _ := rfl
  isClosed_holdings _ := rfl
  holdings_setBoard _ _ := rfl
  holdings_log _ _ := rfl
  records s p := by
    refine ⟨_, _, rfl, rfl, ?_⟩
    simp [Holdings.record]

namespace Board

variable {κ : Type} (b : Board κ)

theorem size_onComplete (n : Nat) (x : κ) : (b.onComplete n x).2.size = b.size := by
  unfold onComplete
  split
  · rfl
  · split
    · rfl
    · exact b.size_set n _

theorem operation?_onComplete {n m : Nat} (x : κ) (hm : m ≠ n) :
    (b.onComplete n x).2.operation? m = b.operation? m := by
  unfold onComplete
  split
  · rfl
  · split
    · rfl
    · rw [operation?_set, if_neg (Ne.symm hm)]

end Board

/-! ## What a send leaves alone -/

namespace ClientGroup

variable {σ : Type} [SessionHost σ] [RecordingHost σ] {g g' g'' : ClientGroup σ} {n : Nat}

/-- Of all that the session holds, no more than one operation has changed. -/
structure Spares (g g' : ClientGroup σ) (n : Nat) : Prop where
  holdings : RecordingHost.holdings g'.session = RecordingHost.holdings g.session
  size : (SessionHost.board g'.session).size = (SessionHost.board g.session).size
  others : ∀ m, m ≠ n →
    (SessionHost.board g'.session).operation? m = (SessionHost.board g.session).operation? m
  notes : g'.notes = g.notes

theorem Spares.refl (g : ClientGroup σ) (n : Nat) : g.Spares g n :=
  ⟨rfl, rfl, fun _ _ => rfl, rfl⟩

theorem Spares.trans (h : g.Spares g' n) (h' : g'.Spares g'' n) : g.Spares g'' n where
  holdings := h'.holdings.trans h.holdings
  size := h'.size.trans h.size
  others m hm := (h'.others m hm).trans (h.others m hm)
  notes := h'.notes.trans h.notes

/-- The clients are no part of the session. -/
theorem Spares.modify (h : g.Spares g' n) (m : Nat) (f : Client → Client) :
    g.Spares (g'.modify m f) n :=
  ⟨h.holdings, h.size, h.others, h.notes⟩

theorem spares_log (g : ClientGroup σ) (level : Level) (message : String) (n : Nat) :
    g.Spares (g.log level message) n where
  holdings := RecordingHost.holdings_log _ _
  size := congrArg Board.size (LawfulHost.board_log _ _)
  others m _ := congrArg (Board.operation? · m) (LawfulHost.board_log _ _)
  notes := rfl

end ClientGroup

/-- The send follows this operation. -/
def SendStage.Concerns (n : Nat) : SendStage → Prop
  | .opening | .counting | .handing => False
  | .registering m | .refused m | .looking m => m = n
  | .settling _ => True

namespace ClientGroup

variable {σ : Type} [SessionHost σ] [RecordingHost σ] {g g' g'' : ClientGroup σ} {n : Nat}

/-- After it has its operation, a step of a send touches nothing but that operation, the
log and its own counters. -/
theorem spares_sendStep (g : ClientGroup σ) (call : SendCall) {stage : SendStage}
    (hstage : stage.Concerns n) :
    match g.sendStep call stage with
    | .next stage' g' => stage'.Concerns n ∧ g.Spares g' n ∧ g'.clients = g.clients
    | .done answer g' => answer.counter? ≠ none ∧ g.Spares g' n ∧
        g'.clients = (g.recount call.client (·.countAnswer answer)).clients
    | .aborted => False := by
  cases stage with
  | opening | counting | handing => exact hstage.elim
  | registering m =>
      obtain rfl : m = n := hstage
      simp only [sendStep]
      cases call.ack with
      | none => exact ⟨rfl, .refl g m, rfl⟩
      | some ack =>
          have hsize := (SessionHost.board g.session).size_onComplete m ack
          have hothers := fun k (hk : k ≠ m) =>
            (SessionHost.board g.session).operation?_onComplete ack hk
          cases hb : (SessionHost.board g.session).onComplete m ack with
          | mk taken board =>
              rw [hb] at hsize hothers
              simp only [hb]
              cases taken with
              | false => exact ⟨rfl, .refl g m, rfl⟩
              | true =>
                  have hboard := LawfulHost.board_setBoard g.session board
                  refine ⟨trivial, ⟨RecordingHost.holdings_setBoard _ _, ?_, fun k hk => ?_, rfl⟩,
                    rfl⟩
                  · exact (congrArg Board.size hboard).trans hsize
                  · exact (congrArg (Board.operation? · k) hboard).trans (hothers k hk)
  | refused m =>
      obtain rfl : m = n := hstage
      simp only [sendStep]
      cases (SessionHost.board g.session).isDone m with
      | true => exact ⟨rfl, .refl g m, rfl⟩
      | false => exact ⟨rfl, g.spares_log _ _ m, rfl⟩
  | looking m =>
      obtain rfl : m = n := hstage
      exact ⟨trivial, .refl g m, rfl⟩
  | settling result =>
      have hanswer := g.counter?_classify call.client result
      simp only [sendStep]
      cases result with
      | none => exact ⟨hanswer, (Spares.refl g n).modify _ _, rfl⟩
      | some r =>
          cases r with
          | ok => exact ⟨hanswer, (Spares.refl g n).modify _ _, rfl⟩
          | error e => exact ⟨hanswer, (g.spares_log _ _ n).modify _ _, rfl⟩

omit [SessionHost σ] [RecordingHost σ] in
theorem clients_recount_congr (h : g'.clients = g.clients) (m : Nat) (t : Stats → Stats) :
    (g'.recount m t).clients = (g.recount m t).clients :=
  congrArg (fun clients : Array Client => clients.modify m fun c => { c with stats := t c.stats }) h

/-- Nor do all its steps together. -/
theorem spares_runSend (g : ClientGroup σ) (call : SendCall) {stage : SendStage}
    (hstage : stage.Concerns n) :
    ∃ answer g', g.runSend call stage = some (answer, g') ∧ answer.counter? ≠ none ∧
      g.Spares g' n ∧ g'.clients = (g.recount call.client (·.countAnswer answer)).clients := by
  have hsteps := g.spares_sendStep call hstage
  cases hstep : g.sendStep call stage with
  | aborted =>
      rw [hstep] at hsteps
      exact hsteps.elim
  | done answer g' =>
      rw [hstep] at hsteps
      exact ⟨answer, g', runSend_of_done hstep, hsteps⟩
  | next stage' g' =>
      rw [hstep] at hsteps
      obtain ⟨hstage', hspares, hclients⟩ := hsteps
      obtain ⟨answer, g'', hrun, hcounter, hspares', hclients'⟩ :=
        spares_runSend g' call hstage'
      refine ⟨answer, g'', (runSend_of_next hstep).trans hrun, hcounter,
        hspares.trans hspares', ?_⟩
      rw [hclients']
      exact clients_recount_congr hclients call.client _
termination_by stage.rank
decreasing_by exact rank_of_sendStep hstep

omit [SessionHost σ] [RecordingHost σ] in
theorem clients_recount_recount (g : ClientGroup σ) (n : Nat) (t t' : Stats → Stats) :
    ((g.recount n t).recount n t').clients = (g.recount n fun s => t' (t s)).clients := by
  refine Array.ext_getElem? fun m => ?_
  change ((g.recount n t).recount n t').client? m = (g.recount n fun s => t' (t s)).client? m
  rw [client?_recount, client?_recount, client?_recount]
  split
  · rw [Option.map_map]
    rfl
  · rfl

/-! ## Turned away, or sent once -/

/-- The payload was recorded, for one new operation, and the client has counted the send
and its answer.  Everything else is as it was. -/
structure SendsOnce (g : ClientGroup σ) (call : SendCall) (answer : SendAnswer)
    (g' : ClientGroup σ) : Prop where
  /-- It is the answer of a send that the session was asked for. -/
  counted : answer.counter? ≠ none
  holdings : RecordingHost.holdings g'.session =
    (RecordingHost.holdings g.session).record call.payload
  size : (SessionHost.board g'.session).size = (SessionHost.board g.session).size + 1
  earlier : ∀ m, m < (SessionHost.board g.session).size →
    (SessionHost.board g'.session).operation? m = (SessionHost.board g.session).operation? m
  clients : g'.clients =
    (g.recount call.client fun s => s.countIssued.countAnswer answer).clients
  notes : g'.notes = g.notes

omit [RecordingHost σ] in
/-- What a send does first: it is turned away, or goes on to count itself. -/
theorem sendStep_opening (g : ClientGroup σ) (call : SendCall) :
    g.sendStep call .opening =
      match call.target with
      | some target => .done (.error (.unexpectedTarget (g.describeAt call.client) target)) g
      | none =>
        if g.isOpen call.client then .next .counting g
        else .done (.error (.closed (g.describeAt call.client))) g := by
  simp only [sendStep]
  cases call.target with
  | some target => rfl
  | none =>
      unfold isOpen
      cases g.client? call.client with
      | none => rfl
      | some c => cases hgate : c.gate.isClosed <;> simp [hgate]

/-- Before it has an operation, a step of a send leaves the session as it is. -/
theorem spares_of_not_isFollowing (g : ClientGroup σ) (call : SendCall) {stage : SendStage}
    (hstage : stage ≠ .handing) (hs : stage.isFollowing = false) (n : Nat) :
    match g.sendStep call stage with
    | .next _ g' => g.Spares g' n
    | .done _ g' => g.Spares g' n
    | .aborted => False := by
  cases stage with
  | handing => exact absurd rfl hstage
  | counting => exact (Spares.refl g n).modify _ _
  | opening =>
      rw [sendStep_opening]
      cases call.target with
      | some target => exact .refl g n
      | none => cases hopen : g.isOpen call.client <;> simpa [hopen] using .refl g n
  | registering | refused | looking | settling => cases hs

/-- A step of a send touches no operation but its own, and nothing else of the session. -/
theorem spares_own (g : ClientGroup σ) (call : SendCall) {stage : SendStage}
    (hstage : stage ≠ .handing) (hn : stage.isFollowing = true → stage.Concerns n) :
    match g.sendStep call stage with
    | .next _ g' => g.Spares g' n
    | .done _ g' => g.Spares g' n
    | .aborted => False := by
  cases hfollowing : stage.isFollowing with
  | false => exact g.spares_of_not_isFollowing call hstage hfollowing n
  | true =>
      have hsteps := g.spares_sendStep call (hn hfollowing)
      cases hstep : g.sendStep call stage <;> rw [hstep] at hsteps
      · exact hsteps.2.1
      · exact hsteps.2.1
      · exact hsteps

omit [RecordingHost σ] in
theorem send_of_target {call : SendCall} {target : String} (h : call.target = some target) :
    g.send call = some (.error (.unexpectedTarget (g.describeAt call.client) target), g) := by
  refine runSend_of_done ?_
  rw [sendStep_opening, h]

omit [RecordingHost σ] in
theorem send_of_shut {call : SendCall} (h : call.target = none)
    (hshut : g.isOpen call.client = false) :
    g.send call = some (.error (.closed (g.describeAt call.client)), g) := by
  refine runSend_of_done ?_
  rw [sendStep_opening, h]
  simp only [hshut, Bool.false_eq_true, if_false]

/-- A whole send through an open client. -/
theorem sends_once {call : SendCall} (h : call.target = none)
    (hopen : g.isOpen call.client = true) :
    ∃ answer g', g.send call = some (answer, g') ∧ g.SendsOnce call answer g' := by
  obtain ⟨o, s, hsend, hboard, hholdings⟩ := RecordingHost.records g.session call.payload
  have hopening : g.sendStep call .opening = .next .counting g := by
    rw [sendStep_opening, h]
    simp only [hopen, if_true]
  have hcounting : g.sendStep call .counting =
      .next .handing (g.recount call.client Stats.countIssued) := rfl
  have hhanding : (g.recount call.client Stats.countIssued).sendStep call .handing =
      .next (call.afterHanding (SessionHost.board g.session).size)
        { g.recount call.client Stats.countIssued with session := s } := by
    simp only [sendStep, show (g.recount call.client Stats.countIssued).session = g.session from rfl,
      hsend]
    rfl
  have hstage : (call.afterHanding (SessionHost.board g.session).size).Concerns
      (SessionHost.board g.session).size := by
    unfold SendCall.afterHanding
    cases call.ack <;> rfl
  obtain ⟨answer, g', hrun, hcounted, hspares, hclients⟩ :=
    spares_runSend { g.recount call.client Stats.countIssued with session := s } call hstage
  refine ⟨answer, g', ?_, hcounted, hspares.holdings.trans hholdings, ?_, fun m hm => ?_, ?_,
    hspares.notes⟩
  · rw [send, runSend_of_next hopening, runSend_of_next hcounting, runSend_of_next hhanding, hrun]
  · rw [hspares.size, hboard, Board.size_push]
  · rw [hspares.others m (Nat.ne_of_lt hm), hboard, Board.operation?_push,
      if_neg (Nat.ne_of_lt hm)]
  · rw [hclients]
    exact g.clients_recount_recount call.client Stats.countIssued (·.countAnswer answer)

end ClientGroup

/-! ## Every payload is handed over once -/

namespace Dealings

variable {σ : Type} {v v' : Dealings σ}

/-- Every send was handed over as often as its stage says. -/
def HandsOnce (v : Dealings σ) : Prop :=
  ∀ k, v.handed.count k = (v.sends[k]?.any (·.stage.isHanded)).toNat

theorem HandsOnce.step (h : v.HandsOnce) (hs : v.Effect v') : v'.HandsOnce := by
  intro i
  have hold := h i
  cases hs with
  | aside | binds | closes | closeMoves => exact hold
  | sends call hn =>
      refine hold.trans (congrArg Bool.toNat ?_)
      rcases Nat.lt_trichotomy i v.sends.length with hless | rfl | hmore
      · rw [List.getElem?_append_left hless]
      · rw [List.getElem?_eq_none (Nat.le_refl _), List.getElem?_concat_length]
        rfl
      · have hbeyond : (v.sends ++ [({ call := call } : Send)]).length ≤ i := by
          rw [List.length_append]
          exact hmore
        rw [List.getElem?_eq_none (Nat.le_of_lt hmore), List.getElem?_eq_none hbeyond]
  | sendMoves g hk hm hg =>
      rename_i k c stage t hands
      have hcount : (if hands then v.handed ++ [k] else v.handed).count i =
          v.handed.count i + (hands && k == i).toNat := by
        cases hands with
        | true =>
            rw [if_pos rfl, List.count_append, List.count_singleton]
            cases k == i <;> rfl
        | false => rfl
      have hlt := (List.getElem?_eq_some_iff.1 hk).1
      show (if hands then v.handed ++ [k] else v.handed).count i =
        ((v.sends.set k { c with stage := stage })[i]?.any (·.stage.isHanded)).toNat
      rw [hcount]
      by_cases hki : k = i
      · subst hki
        rw [hk] at hold
        rw [List.getElem?_set_self hlt, beq_self_eq_true, Bool.and_true]
        have hmoved : stage.isHanded.toNat = c.stage.isHanded.toNat + hands.toNat := hm.isHanded
        exact (congrArg (· + hands.toNat) hold).trans hmoved.symm
      · rw [List.getElem?_set_ne hki, beq_false_of_ne hki, Bool.and_false]
        exact hold

/-- A send hands its payload over once, or not at all if it is turned away. -/
theorem Reached.count_handed [SessionHost σ] (h : v.Reached) {k : Nat} {c : Send}
    (hk : v.sends[k]? = some c) : v.handed.count k = c.stage.isHanded.toNat := by
  have honce : v.HandsOnce := by
    refine h.invariant (P := HandsOnce) ?_ fun _ _ _ hs hv => hv.step (effect_of_step hs)
    rintro _ ⟨s⟩ i
    rfl
  have hcount := honce k
  rwa [hk] at hcount

end Dealings

/-- A call that does a step has not answered before. -/
theorem ClientCall.Goes.not_returned {c c' : ClientCall} {w w' : Family Ack}
    (h : c.Goes w c' w') (answer : SendAnswer) : c.stage ≠ .returned answer := by
  cases h with
  | opens hs | turned hs | counts hs | hands hs | leaves hs | refused hs | skips hs | turns hs
  | looks hs | answers hs =>
      rw [hs]
      simp

namespace Clientele

variable {σ : Type} [SessionHost σ] {v v' : Clientele σ} {c : ClientCall} {k : Nat}

/-- A call that is turned away answers in its first step, which does nothing else. -/
theorem goOn_of_refused (hk : v.calls[k]? = some c) (hs : c.stage = .going .opening)
    (h : c.call.target ≠ none ∨ v.group.isOpen c.call.client = false) :
    ∃ error, v.group.send c.call = some (.error error, v.group) ∧
      v.goOn k =
        some { v with calls := v.calls.set k { c with stage := .returned (.error error) } } := by
  have hstep := v.group.sendStep_opening c.call
  cases htarget : c.call.target with
  | some target =>
      rw [htarget] at hstep
      refine ⟨_, ClientGroup.send_of_target htarget, ?_⟩
      simp only [goOn, hk, hs, hstep]
      rfl
  | none =>
      have hshut : v.group.isOpen c.call.client = false :=
        h.resolve_left fun hne => hne htarget
      rw [htarget] at hstep
      simp only [hshut, Bool.false_eq_true, if_false] at hstep
      refine ⟨_, ClientGroup.send_of_shut htarget hshut, ?_⟩
      simp only [goOn, hk, hs, hstep]
      rfl

variable [LawfulHost σ]

/-- A call that has answered stays as it is. -/
theorem Reached.returned_steps (h : v.Reached) (hs : Steps v v') {answer : SendAnswer}
    (hk : v.calls[k]? = some c) (hc : c.stage = .returned answer) : v'.calls[k]? = some c := by
  induction hs with
  | refl => exact hk
  | tail hs hstep ih =>
      rename_i w w'
      have hother {j : Nat} {d : ClientCall} (hj : w.calls[j]? = some d)
          (hd : d.stage ≠ .returned answer) (d' : ClientCall) :
          (w.calls.set j d')[k]? = some c := by
        by_cases hjk : j = k
        · subst hjk
          rw [ih] at hj
          obtain rfl := Option.some.inj hj
          exact absurd hc hd
        · exact (List.getElem?_set_ne hjk).trans ih
      cases hstep with
      | session g family hw hb => exact ih
      | begins call =>
          exact (List.getElem?_append_left (List.getElem?_eq_some_iff.1 ih).1).trans ih
      | goes hgo =>
          obtain ⟨d, d', hj, hgoes, hcalls, -⟩ := goes_of_goOn (Reached.sound (h.steps hs)).board hgo
          rw [hcalls]
          exact hother hj (hgoes.not_returned answer) d'
      | returns hj hd hn => exact hother hj (by rw [hd]; simp) _
      | aborts hj hd => exact hother hj (by rw [hd]; simp) _

omit [LawfulHost σ] in
/-- A call that was not begun has passed its ack to nobody. -/
theorem Sound.passing_of_opening (h : v.Sound) (hk : v.calls[k]? = some c)
    (hs : c.stage = .going .opening) : c.passing = none := by
  have hholds := h.calls c (List.mem_of_getElem? hk)
  unfold ClientCall.Holds at hholds
  rw [hs] at hholds
  exact hholds.2

end Clientele

namespace Clientele

variable {σ : Type} [SessionHost σ] [RecordingHost σ] {v : Clientele σ}

/-- What a step of a send does among other calls.  It moves the send on, and its client
counts what belongs to that step; of all that the session holds, no more than the operation
of the send has changed. -/
structure TouchesOwn (v v' : Clientele σ) (k : Nat) (c : ClientCall) (stage : SendStage) :
    Prop where
  moves : ∃ (c' : ClientCall) (t : Stats → Stats) (hands : Bool),
    v'.calls = v.calls.set k c' ∧ c'.call = c.call ∧ SendMoves c.stage c'.stage t hands ∧
    v'.group.clients = (v.group.recount c.call.client t).clients
  spares : ∀ n, (stage.isFollowing = true → stage.Concerns n) → v.group.Spares v'.group n

/-- Every step of a send is one of these. -/
theorem touchesOwn_of_goOn {v' : Clientele σ} {k : Nat} {c : ClientCall} {stage : SendStage}
    (hk : v.calls[k]? = some c) (hs : c.stage = .going stage) (h : v.goOn k = some v') :
    v.TouchesOwn v' k c stage := by
  by_cases hstage : stage = .handing
  · subst hstage
    simp only [goOn, hk, hs] at h
    obtain rfl := Option.some.inj h
    have hmoves : SendMoves c.stage .handed id true := by
      rw [hs]
      exact .hands
    exact ⟨⟨_, id, true, rfl, rfl, hmoves, (v.group.clients_recount_id _).symm⟩,
      fun n _ => .refl v.group n⟩
  · obtain ⟨t, hmoves⟩ := v.group.moves_sendStep c.call hstage
    have hspares := fun n => v.group.spares_own c.call (n := n) hstage
    cases hstep : v.group.sendStep c.call stage with
    | next stage' g =>
        simp only [hstep] at hmoves hspares
        simp only [goOn, hk, hs, hstep] at h
        obtain rfl := Option.some.inj h
        rw [← hs] at hmoves
        exact ⟨⟨_, t, false, rfl, rfl, hmoves.1, hmoves.2⟩, hspares⟩
    | done answer g =>
        simp only [hstep] at hmoves hspares
        simp only [goOn, hk, hs, hstep] at h
        obtain rfl := Option.some.inj h
        rw [← hs] at hmoves
        exact ⟨⟨_, t, false, rfl, rfl, hmoves.1, hmoves.2⟩, hspares⟩
    | aborted =>
        rw [hstep] at hmoves
        exact hmoves.elim

/-- Calls that are refused touch nothing, and all others touch the session once.  What
clients of sessions do not do is refused as unsupported; a call with a target as one with
an unexpected target, whether the client is closed or not; any other call as one of a
closed client, if it is closed.  The session and all clients are then as they were.  Done
step by step among other calls, a refused call ends with its first step, which changes
nothing but the call itself, and at no later moment has its ack run.  Every other call
hands its payload over once, counts itself once, and changes nothing else; done step by
step among other calls, none of its own steps touches more than the counters of its client
and its own operation, and the payload is handed over as often as its stage says: once,
unless it is turned away. -/
theorem refused_calls_touch_nothing (h : v.Reached) :
    (∀ n, v.group.perform n .handshake =
        some (.failed (.unsupported "do_handshake" (v.group.describeAt n)), v.group) ∧
      v.group.perform n .sendRaw =
        some (.failed (.unsupported "send_raw" (v.group.describeAt n)), v.group)) ∧
    (∀ (call : SendCall) target, call.target = some target →
      v.group.send call =
        some (.error (.unexpectedTarget (v.group.describeAt call.client) target), v.group)) ∧
    (∀ call : SendCall, call.target = none → v.group.isOpen call.client = false →
      v.group.send call = some (.error (.closed (v.group.describeAt call.client)), v.group)) ∧
    (∀ (k : Nat) c, v.calls[k]? = some c → c.stage = .going .opening →
      c.call.target ≠ none ∨ v.group.isOpen c.call.client = false →
      ∃ error w, v.group.send c.call = some (.error error, v.group) ∧ v.goOn k = some w ∧
        w = { v with calls := v.calls.set k { c with stage := .returned (.error error) } } ∧
        ∀ v', Steps w v' → ∃ c', v'.calls[k]? = some c' ∧ c'.call = c.call ∧
          c'.stage = .returned (.error error) ∧ c'.runs v'.family = []) ∧
    (∀ call : SendCall, call.target = none → v.group.isOpen call.client = true →
      ∃ answer g', v.group.send call = some (answer, g') ∧
        v.group.SendsOnce call answer g') ∧
    (∀ (k : Nat) c stage w, v.calls[k]? = some c → c.stage = .going stage →
      v.goOn k = some w → v.TouchesOwn w k c stage) ∧
    (∀ u : Dealings σ, u.Reached → ∀ (k : Nat) c, u.sends[k]? = some c →
      u.handed.count k = c.stage.isHanded.toNat) := by
  refine ⟨fun n => ⟨rfl, rfl⟩, fun call target => ClientGroup.send_of_target,
    fun call => ClientGroup.send_of_shut, fun k c hk hs hrefused => ?_,
    fun call => ClientGroup.sends_once, fun k c stage w => touchesOwn_of_goOn,
    fun u hu k c => hu.count_handed⟩
  obtain ⟨error, hsend, hgo⟩ := goOn_of_refused hk hs hrefused
  have hlt := (List.getElem?_eq_some_iff.1 hk).1
  have hnext : Steps v _ := .single (.goes hgo)
  refine ⟨error, _, hsend, hgo, rfl, fun v' hsteps => ?_⟩
  have hlater := Reached.returned_steps (h.steps hnext) hsteps (List.getElem?_set_self hlt) rfl
  have hpassing := h.sound.passing_of_opening hk hs
  exact ⟨_, hlater, rfl, rfl, ClientCall.runs_of_passing_eq_none hpassing⟩

/-! ### A client that was closed -/

/-- The client has been closed, and one more message is to be sent through it. -/
def refusing : Clientele ScriptedSession :=
  { flying with
    group := flying.group.shut 0
    calls := flying.calls ++ [{ call := (watching 2).call }] }

theorem reached_refusing : refusing.Reached := by
  have hshut : Steps flying _ :=
    .single (.session (flying.group.shut 0) flying.family .refl reached_flying.sound.board)
  exact reached_flying.steps (hshut.tail (.begins (watching 2).call))

/-- While the client was open it could send; when it is closed, the call is refused and
its ack never runs. -/
theorem flying_sends_and_refusing_does_not :
    (∃ answer g', flying.group.send (watching 2).call = some (answer, g') ∧
      flying.group.SendsOnce (watching 2).call answer g') ∧
    ∃ error w, refusing.group.send (watching 2).call = some (.error error, refusing.group) ∧
      refusing.goOn 2 = some w ∧ ∀ v', Steps w v' → ∃ c', v'.calls[2]? = some c' ∧
        c'.stage = .returned (.error error) ∧ c'.runs v'.family = [] := by
  obtain ⟨-, -, -, -, hopen, -⟩ := refused_calls_touch_nothing reached_flying
  obtain ⟨-, -, -, hrefused, -⟩ := refused_calls_touch_nothing reached_refusing
  refine ⟨hopen (watching 2).call rfl rfl, ?_⟩
  obtain ⟨error, w, hsend, hgo, -, hlater⟩ := hrefused 2 _ rfl rfl (.inr rfl)
  refine ⟨error, w, hsend, hgo, fun v' hsteps => ?_⟩
  obtain ⟨c', hk, -, hstage, hruns⟩ := hlater v' hsteps
  exact ⟨c', hk, hstage, hruns⟩

end Clientele

end PeerLink
