import PeerLink.Proofs.Client.Clientele
import PeerLink.Proofs.Client.Dealings

/-!
# Calls without interruption

A call that nobody interrupts is a sequence of its own steps, with the session doing
what it does for it in between.  So is what an ack does: it sends or closes, in the
middle of whatever else is going on.  Every use of a completer, and every close, is
thus a way for the dealings of the clients to go on, and what holds of all dealings
holds for whoever runs such a function from beginning to end.

## Main results

* `Dealings.steps_send`, `Dealings.steps_close` — a whole send, a whole close.
* `Dealings.leadsTo_complete`, `Dealings.leadsTo_cancel` — the end of an operation, with
  the calls that its ack makes.
-/

namespace PeerLink

/-- The sends that an ack makes. -/
def Ack.sends : Ack → List SendCall
  | .tell _ n (some (.sendBuffer wire)) => [{ client := n, payload := .buffer wire }]
  | .tell _ n (some (.sendMessage message ack)) =>
    [{ client := n, payload := .message message, ack := ack }]
  | _ => []

namespace ClientGroup

variable {σ : Type} [SessionHost σ]

/-- A close shuts the gate of its client, and does nothing else to the clients. -/
theorem runClose_shuts (g : ClientGroup σ) (n : Nat) (stage : CloseStage) :
    (g.runClose n stage).2.clients = if stage.isGate then (g.shut n).clients else g.clients := by
  by_cases hstage : stage = .closing
  · subst hstage
    rw [runClose_of_done rfl]
    rfl
  · have hmoves := g.moves_closeStep n hstage
    cases hstep : g.closeStep n stage with
    | done answer g' =>
        rw [hstep] at hmoves
        rw [runClose_of_done hstep]
        exact hmoves.2
    | next stage' g' =>
        rw [hstep] at hmoves
        have hgate : stage'.isGate = false := by
          have hmove := hmoves.1
          generalize stage.isGate = arrives at hmove
          cases hmove with
          | forces | wins => rfl
          | goes hs hs' => rcases hs' with rfl | rfl <;> rfl
        rw [runClose_of_next hstep, runClose_shuts g' n stage', hgate]
        exact hmoves.2
termination_by stage.rank
decreasing_by exact rank_of_closeStep hstep

/-- A send through a client that is not there is turned away. -/
theorem send_of_absent {g g' : ClientGroup σ} {call : SendCall} {answer : SendAnswer}
    (hn : g.client? call.client = none) (h : g.send call = some (answer, g')) : g' = g := by
  have hdone : ∃ answer, g.sendStep call .opening = .done answer g := by
    simp only [sendStep, hn, Option.map_none]
    cases call.target <;> exact ⟨_, rfl⟩
  obtain ⟨answer', hdone⟩ := hdone
  rw [send, runSend_of_done hdone] at h
  cases h
  rfl

end ClientGroup

namespace Dealings

variable {σ : Type} [SessionHost σ] {v v' : Dealings σ}

/-! ## A send -/

/-- A send does a step, and the session its part of it. -/
private theorem steps_next {k : Nat} {c : Send} {stage stage' : SendStage}
    {g : ClientGroup σ} (hk : v.sends[k]? = some c) (hs : c.stage = .going stage)
    (hstep : v.group.sendStep c.call stage = .next stage' g) :
    ∃ v', Steps v v' ∧ v'.group = g ∧ v'.closes = v.closes ∧
      v'.sends = v.sends.set k { c with stage := .going stage' } := by
  by_cases hstage : stage = .handing
  · subst hstage
    exact ⟨_, steps_handing hk hs hstep, rfl, rfl, rfl⟩
  · have hgo : v.sendOn k = some { v with
        group := g, sends := v.sends.set k { c with stage := .going stage' } } := by
      simp only [sendOn, hk, hs, hstep]
    exact ⟨_, .single (.sendGoes hgo), rfl, rfl, rfl⟩

/-- A send does all its steps, and the session its part of them. -/
theorem steps_runSend {k : Nat} {c : Send} {stage : SendStage} {answer : SendAnswer}
    {g : ClientGroup σ} (hk : v.sends[k]? = some c) (hs : c.stage = .going stage)
    (h : v.group.runSend c.call stage = some (answer, g)) :
    ∃ v', Steps v v' ∧ v'.group = g ∧ v'.closes = v.closes ∧
      v'.sends = v.sends.set k { c with stage := .returned answer } := by
  induction hrank : stage.rank using Nat.strongRecOn generalizing v c stage with
  | ind m ih =>
      have hlt := (List.getElem?_eq_some_iff.1 hk).1
      cases hstep : v.group.sendStep c.call stage with
      | aborted =>
          rw [ClientGroup.runSend_of_aborted hstep] at h
          cases h
      | done answer' g' =>
          rw [ClientGroup.runSend_of_done hstep] at h
          cases h
          have hstage : stage ≠ .handing := by
            rintro rfl
            simp only [ClientGroup.sendStep] at hstep
            split at hstep <;> cases hstep
          have hgo : v.sendOn k = some { v with
              group := g, sends := v.sends.set k { c with stage := .returned answer } } := by
            simp only [sendOn, hk, hs, hstep]
          exact ⟨_, .single (.sendGoes hgo), rfl, rfl, rfl⟩
      | next stage' g' =>
          obtain ⟨v₁, hfirst, rfl, hcloses, hsends⟩ := steps_next hk hs hstep
          rw [ClientGroup.runSend_of_next hstep] at h
          have hk₁ : v₁.sends[k]? = some { c with stage := .going stage' } := by
            rw [hsends]
            exact List.getElem?_set_self hlt
          have hless : stage'.rank < m := hrank ▸ ClientGroup.rank_of_sendStep hstep
          obtain ⟨v', hrest, hgroup, hcloses', hsends'⟩ := ih _ hless hk₁ rfl h rfl
          refine ⟨v', hfirst.trans hrest, hgroup, hcloses'.trans hcloses, ?_⟩
          rw [hsends', hsends, List.set_set]

/-- A whole send through a client. -/
theorem steps_send {call : SendCall} {answer : SendAnswer} {g : ClientGroup σ}
    (hn : call.client < v.group.clients.size) (h : v.group.send call = some (answer, g)) :
    ∃ v', Steps v v' ∧ v'.group = g ∧ v'.closes = v.closes ∧
      v'.sends = v.sends ++ [{ call := call, stage := .returned answer }] := by
  have hk : (v.sends ++ [{ call := call }])[v.sends.length]? = some { call := call } :=
    List.getElem?_concat_length
  obtain ⟨v', hsteps, hgroup, hcloses, hsends⟩ :=
    steps_runSend (v := { v with sends := v.sends ++ [{ call := call }] }) hk rfl h
  refine ⟨v', .head (.sends call hn) hsteps, hgroup, hcloses, ?_⟩
  rw [hsends, List.set_append_right _ _ (Nat.le_refl _), Nat.sub_self]
  rfl

/-! ## A close -/

/-- A close does all its steps, and the session its part of them. -/
theorem steps_runClose {j : Nat} {c : Close} {stage : CloseStage}
    (hj : v.closes[j]? = some c) (hs : c.stage = .going stage) :
    ∃ v', Steps v v' ∧ v'.group = (v.group.runClose c.client stage).2 ∧ v'.sends = v.sends ∧
      v'.closes = v.closes.set j
        { c with stage := .returned (v.group.runClose c.client stage).1 } := by
  induction hrank : stage.rank using Nat.strongRecOn generalizing v c stage with
  | ind m ih =>
      have hlt := (List.getElem?_eq_some_iff.1 hj).1
      by_cases hstage : stage = .closing
      · subst hstage
        have hstep : v.group.closeStep c.client .closing =
            .done true { v.group with session := (SessionHost.close v.group.session).2 } := rfl
        rw [ClientGroup.runClose_of_done hstep]
        exact ⟨_, steps_closing hj hs hstep, rfl, rfl, rfl⟩
      · cases hstep : v.group.closeStep c.client stage with
        | done answer g =>
            rw [ClientGroup.runClose_of_done hstep]
            have hgo : ∃ arrivals, v.closeOn j = some { v with
                group := g
                arrivals := arrivals
                closes := v.closes.set j { c with stage := .returned answer } } := by
              simp only [closeOn, hj, hs, hstep]
              exact ⟨_, rfl⟩
            obtain ⟨arrivals, hgo⟩ := hgo
            exact ⟨_, .single (.closeGoes hgo), rfl, rfl, rfl⟩
        | next stage' g =>
            rw [ClientGroup.runClose_of_next hstep]
            have hgo : ∃ arrivals, v.closeOn j = some { v with
                group := g
                arrivals := arrivals
                closes := v.closes.set j { c with stage := .going stage' } } := by
              simp only [closeOn, hj, hs, hstep]
              exact ⟨_, rfl⟩
            obtain ⟨arrivals, hgo⟩ := hgo
            have hfirst : Steps v _ := .single (.closeGoes hgo)
            have hless : stage'.rank < m := hrank ▸ ClientGroup.rank_of_closeStep hstep
            obtain ⟨v', hrest, hgroup, hsends, hcloses⟩ := ih _ hless
              (v := { v with
                group := g
                arrivals := arrivals
                closes := v.closes.set j { c with stage := .going stage' } })
              (c := { c with stage := .going stage' }) (List.getElem?_set_self hlt) rfl rfl
            refine ⟨v', hfirst.trans hrest, hgroup, hsends, ?_⟩
            rw [hcloses, List.set_set]

/-- A whole close of a client. -/
theorem steps_close {n : Nat} (forced : Bool) (hn : n < v.group.clients.size) :
    ∃ v', Steps v v' ∧ v'.group = (v.group.runClose n (.gate forced)).2 ∧ v'.sends = v.sends ∧
      v'.closes = v.closes ++
        [⟨n, forced, .returned (v.group.runClose n (.gate forced)).1⟩] := by
  have hj : (v.closes ++ [⟨n, forced, .going (.gate forced)⟩])[v.closes.length]? =
      some ⟨n, forced, .going (.gate forced)⟩ := List.getElem?_concat_length
  obtain ⟨v', hsteps, hgroup, hsends, hcloses⟩ :=
    steps_runClose (v := { v with closes := _ }) hj rfl
  refine ⟨v', .head (.closes n forced hn) hsteps, hgroup, hsends, ?_⟩
  rw [hcloses, List.set_append_right _ _ (Nat.le_refl _), Nat.sub_self]
  rfl

/-! ## The end of an operation -/

/-- The clients go to `g`, and meanwhile some of these sends are begun, and end. -/
def LeadsTo (v : Dealings σ) (g : ClientGroup σ) (calls : List SendCall) : Prop :=
  ∃ v' made, Steps v v' ∧ v'.group = g ∧ v'.sends = v.sends ++ made ∧
    (made.map Send.call).Sublist calls ∧ ∀ c ∈ made, ∃ answer, c.stage = .returned answer

/-- What the session does, and what is noted, is no call. -/
theorem leadsTo_aside {g : ClientGroup σ} (h : g.clients = v.group.clients)
    (calls : List SendCall) : v.LeadsTo g calls := by
  obtain ⟨s, clients, notes⟩ := g
  obtain rfl : clients = v.group.clients := h
  exact ⟨_, [], .single (.session s notes), rfl, (List.append_nil _).symm,
    List.nil_sublist _, fun c hc => absurd hc List.not_mem_nil⟩

theorem leadsTo_of_steps {g : ClientGroup σ} {calls : List SendCall} (h : Steps v v')
    (hsends : v'.sends = v.sends) (hg : v'.LeadsTo g calls) : v.LeadsTo g calls := by
  obtain ⟨v'', made, hsteps, hgroup, hmade, hover⟩ := hg
  exact ⟨v'', made, h.trans hsteps, hgroup, by rw [hmade, hsends], hover⟩

theorem LeadsTo.note {g : ClientGroup σ} {calls : List SendCall} (h : v.LeadsTo g calls)
    (note : AckNote) : v.LeadsTo (g.note note) calls := by
  obtain ⟨v', made, hsteps, rfl, hmade, hover⟩ := h
  exact ⟨_, made, hsteps.tail (.session v'.group.session (note :: v'.group.notes)), rfl, hmade,
    hover⟩

theorem leadsTo_runClose (v : Dealings σ) (n : Nat) (forced : Bool) (calls : List SendCall) :
    v.LeadsTo (v.group.runClose n (.gate forced)).2 calls := by
  by_cases hn : n < v.group.clients.size
  · obtain ⟨v', hsteps, hgroup, hsends, -⟩ := steps_close forced hn
    exact ⟨v', [], hsteps, hgroup, hsends.trans (List.append_nil _).symm,
      List.nil_sublist _, fun c hc => absurd hc List.not_mem_nil⟩
  · have habsent : v.group.isOpen n = false := by
      unfold ClientGroup.isOpen ClientGroup.client?
      rw [Array.getElem?_eq_none (Nat.le_of_not_lt hn)]
      rfl
    refine leadsTo_aside ?_ calls
    rw [ClientGroup.runClose_shuts]
    exact v.group.clients_shut_of_not_isOpen habsent

theorem leadsTo_send {call : SendCall} {answer : SendAnswer} {g : ClientGroup σ}
    (h : v.group.send call = some (answer, g)) : v.LeadsTo g [call] := by
  by_cases hn : call.client < v.group.clients.size
  · obtain ⟨v', hsteps, hgroup, -, hsends⟩ := steps_send hn h
    refine ⟨v', _, hsteps, hgroup, hsends, List.Sublist.refl _, fun c hc => ?_⟩
    rw [List.mem_singleton.1 hc]
    exact ⟨answer, rfl⟩
  · have hnone : v.group.client? call.client = none :=
      Array.getElem?_eq_none (Nat.le_of_not_lt hn)
    refine leadsTo_aside ?_ _
    rw [ClientGroup.send_of_absent hnone h]

/-- What an ack sets off. -/
theorem leadsTo_tell {ack : Ack} {result : SendResult} {g : ClientGroup σ}
    (h : v.group.tell ack result = some g) : v.LeadsTo g ack.sends := by
  cases ack with
  | silent =>
      cases h
      exact leadsTo_aside (by rfl) _
  | watch number =>
      cases h
      exact leadsTo_aside (by rfl) _
  | tell name n next =>
      have hnoted : Steps v { v with group := v.group.note (.told name result) } :=
        .single (.session v.group.session (.told name result :: v.group.notes))
      refine leadsTo_of_steps hnoted rfl ?_
      cases next with
      | none =>
          cases h
          exact leadsTo_aside (by rfl) _
      | some f =>
          cases f with
          | close =>
              cases h
              exact (leadsTo_runClose _ n false _).note _
          | forceClose =>
              cases h
              exact leadsTo_runClose _ n true _
          | state =>
              simp only [ClientGroup.tell, ClientGroup.follow] at h
              split at h
              · cases h
                exact leadsTo_aside (by rfl) _
              · cases h
                exact leadsTo_aside (by rfl) _
          | sendBuffer wire =>
              obtain ⟨⟨answer, g'⟩, hsend, hnote⟩ := Option.bind_eq_some_iff.1 h
              cases hnote
              exact (leadsTo_send hsend).note _
          | sendMessage message ack =>
              obtain ⟨⟨answer, g'⟩, hsend, hnote⟩ := Option.bind_eq_some_iff.1 h
              cases hnote
              exact (leadsTo_send hsend).note _

/-- The sends of the ack that waits for the end of an operation. -/
def sendsAt (v : Dealings σ) (operation : Nat) : List SendCall :=
  match ((SessionHost.board v.group.session).operation? operation).bind Operation.callback with
  | none => []
  | some ack => ack.sends

/-- An operation ends, and the ack that waits for it runs. -/
theorem leadsTo_complete {operation : Nat} {result : SendResult} {answer : Option Bool}
    {g : ClientGroup σ} (h : v.group.complete operation result = some (answer, g)) :
    v.LeadsTo g (v.sendsAt operation) := by
  unfold ClientGroup.complete at h
  cases hc : (SessionHost.board v.group.session).complete operation result with
  | mk completion board =>
      rw [hc] at h
      cases completion with
      | usedUp =>
          cases h
          exact leadsTo_aside (by rfl) _
      | late =>
          cases h
          exact leadsTo_aside (by rfl) _
      | recorded ack =>
          cases ack with
          | none =>
              cases h
              exact leadsTo_aside (by rfl) _
          | some ack =>
              have hack : v.sendsAt operation = ack.sends := by
                unfold sendsAt
                rw [Board.callback_of_recorded hc]
              obtain ⟨g', htell, heq⟩ := Option.map_eq_some_iff.1 h
              cases heq
              have hset : Steps v { v with group :=
                  { v.group with session := SessionHost.setBoard v.group.session board } } :=
                .single (.session (SessionHost.setBoard v.group.session board) v.group.notes)
              rw [hack]
              exact leadsTo_of_steps hset rfl (leadsTo_tell htell)

/-- An operation is given up. -/
theorem leadsTo_cancel [LawfulHost σ] {operation : Nat} {answer : Bool} {g : ClientGroup σ}
    (h : v.group.cancel operation = some (answer, g)) :
    v.LeadsTo g (v.sendsAt operation) := by
  -- The session writes to its log first, which leaves the ack where it is.
  have hlogged {s : σ} (hs : SessionHost.board s = SessionHost.board v.group.session)
      {x : Option Bool × ClientGroup σ}
      (hx : ClientGroup.complete { v.group with session := s } operation (.error .canceled) =
        some x) : v.LeadsTo x.2 (v.sendsAt operation) := by
    have hsame : sendsAt { v with group := { v.group with session := s } } operation =
        v.sendsAt operation := by
      unfold sendsAt
      rw [hs]
    refine leadsTo_of_steps (.single (.session s v.group.notes)) rfl ?_
    rw [← hsame]
    exact leadsTo_complete hx
  unfold ClientGroup.cancel at h
  split at h
  · obtain ⟨x, hx, heq⟩ := Option.map_eq_some_iff.1 h
    cases heq
    exact hlogged (LawfulHost.board_log _ _) hx
  · cases h
    exact leadsTo_aside (by rfl) _

end Dealings

end PeerLink
