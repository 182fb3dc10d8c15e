import Mathlib.Data.List.Infix
import PeerLink.Proofs.Client.World

/-!
# Acks of clients

A client leaves its ack with an operation after the session has handed the
operation out, so the writer may end the operation before, while or after the
ack is left.  `ClientSend.Stands` says for each stage of a send how its operation
and its ack stand: nobody has left an ack with the operation until the client
does, and from then on the ack is still there or was run once.

Since an operation belongs to one send of the session, and that to one call, no
call ever meets the ack of another.

## Main results

* `World.Reached.calls` — the invariant of all calls of a world.
* `World.acks_report_sends` — when the writer has ended, the ack of a call that was
  answered with "in flight" has run once, with the result that the wire shows, and
  no other ack has run.
-/

namespace PeerLink

/-! ## One operation while others go on -/

/-- As far as the operation is concerned, others leave things as they are. -/
structure Run.Spares (w w' : Run) (n : Nat) : Prop where
  untouched : w.Untouched n → w'.Untouched n
  left : ∀ ack, w.Left n ack → w'.Left n ack

/-- The queue took the payload, and this is its operation. -/
def Run.Took (w : Run) (p : Payload) (n : Nat) : Prop :=
  ∃ x ∈ w.entered, x.payload = p ∧ x.request.operation = n

section

variable {w w' : Run} {e : RunEvent} {n : Nat}

theorem Run.spares_of_quiet (h : w.Reached) (he : w.step? e = some w')
    (hhooks : e.hooks = false) : w.Spares w' n :=
  ⟨fun hn => hn.step h he hhooks, fun _ hn => hn.step h he hhooks⟩

theorem Run.spares_of_watch {m : Nat} {ack : Ack} {board : Board Ack}
    (hb : w.session.board.onComplete m ack = (true, board))
    (he : w.step? (.outside (.watch m ack)) = some w') (hm : n ≠ m) : w.Spares w' n :=
  have hsame := Run.sameAck_of_watch hb he hm
  ⟨hsame.untouched, fun _ hn => hsame.left he hn⟩

theorem Run.Took.step {p : Payload} (h : w.Took p n) (he : w.step? e = some w') :
    w'.Took p n := by
  obtain ⟨x, hx, hxp⟩ := h
  exact ⟨x, (Run.entered_of_step he).subset hx, hxp⟩

/-- An operation that has no result yet, after a send returned it, is that of a
request in the queue. -/
theorem Run.took_of_pending (h : w.Reached) {i : Nat} {p : Payload}
    (hi : w.sends[i]? = some ⟨p, .returned n⟩) (hn : w.session.board.result? n = none) :
    w.Took p n := by
  obtain ⟨givenUp, l⟩ := h.ledger
  rcases h.sends.answered i p n hi with ⟨error, herror⟩ | ⟨x, hx, hpayload, hop⟩
  · rw [herror] at hn
    cases hn
  · rcases List.mem_append.1 hx with hin | hback
    · exact ⟨x, hin, hpayload, hop⟩
    · have hclosed := l.placed.result_of_handedBack hback
      rw [hop, show w.work.board.result? n = none from hn] at hclosed
      cases hclosed

end

/-! ## How a call stands -/

namespace ClientSend

/-- The call has got this operation from the session. -/
def Has (c : ClientSend) (w : Run) (n : Nat) : Prop :=
  ∃ i, c.sending = some i ∧ w.sends[i]? = some ⟨c.call.payload, .returned n⟩

/-- The call's ack, if it has one, was left with the operation. -/
def Watches (c : ClientSend) (w : Run) (n : Nat) : Prop :=
  match c.call.ack with
  | some ack => w.Left n ack ∧ w.Took c.call.payload n
  | none => w.Untouched n

/-- How the operation and the ack of a call stand at a stage. -/
def StandsAt (c : ClientSend) (w : Run) : CallStage → Prop
  | .going .opening | .going .counting | .going .handing => c.sending = none
  | .handed => ∃ i stage, c.sending = some i ∧
      w.sends[i]? = some ⟨c.call.payload, stage⟩ ∧ ∀ n, stage = .returned n → w.Untouched n
  | .going (.registering n) => c.Has w n ∧ w.Untouched n
  | .going (.refused n) =>
    c.Has w n ∧ w.Untouched n ∧ w.session.board.result? n ≠ none
  | .going (.looking n) =>
    c.Has w n ∧ w.Untouched n ∧ (c.call.ack ≠ none → w.session.board.result? n ≠ none)
  | .going (.settling none) | .returned (.ok .inFlight) => ∃ n, c.Has w n ∧ c.Watches w n
  | .going (.settling (some _)) => ∃ n, c.Has w n ∧ w.Untouched n
  | .returned answer =>
    (c.sending = none ∧ ((∃ text, answer = .error (.closed text)) ∨ c.call.target ≠ none)) ∨
      ∃ n r, c.Has w n ∧ w.Untouched n ∧ answer.Tells r
  | .aborted => True

/-- How the operation and the ack of a call stand. -/
def Stands (c : ClientSend) (w : Run) : Prop := c.StandsAt w c.stage

variable {c c' : ClientSend} {w w' : Run} {e : RunEvent}

theorem Has.step {n : Nat} (h : c.Has w n) (he : w.step? e = some w') : c.Has w' n := by
  obtain ⟨i, hc, hi⟩ := h
  obtain ⟨stage', hgoes⟩ := Run.goesOn_of_step he hi
  have hthere := hgoes.there
  rw [hgoes.stays n rfl] at hthere
  exact ⟨i, hc, hthere⟩

/-- A call has one operation. -/
theorem Has.unique {n m : Nat} (hn : c.Has w n) (hm : c.Has w m) : n = m := by
  obtain ⟨i, hc, hi⟩ := hn
  obtain ⟨j, hc', hj⟩ := hm
  rw [hc] at hc'
  obtain rfl := Option.some.inj hc'
  rw [hi] at hj
  exact SendingStage.returned.inj (Sending.mk.inj (Option.some.inj hj)).2

theorem Watches.step {n : Nat} (h : c.Watches w n) (he : w.step? e = some w')
    (hs : w.Spares w' n) : c.Watches w' n := by
  unfold Watches at h ⊢
  cases hack : c.call.ack with
  | none =>
      rw [hack] at h
      exact hs.untouched h
  | some ack =>
      rw [hack] at h
      exact ⟨hs.left ack h.1, h.2.step he⟩

/-- Others do not change how a call stands. -/
theorem StandsAt.step {stage : CallStage} (h : c.StandsAt w stage) (hw : w.Reached)
    (he : w.step? e = some w')
    (hs : ∀ n, c.Has w n ∨ w.session.board.size ≤ n → w.Spares w' n) :
    c.StandsAt w' stage := by
  have hresult : ∀ {n : Nat}, w.session.board.result? n ≠ none →
      w'.session.board.result? n ≠ none := by
    intro n hn
    obtain ⟨r, hr⟩ := Option.ne_none_iff_exists'.1 hn
    rw [Run.extends_of_step he n r hr]
    nofun
  have hwatches : (∃ n, c.Has w n ∧ c.Watches w n) → ∃ n, c.Has w' n ∧ c.Watches w' n := by
    rintro ⟨n, hhas, hwatch⟩
    exact ⟨n, hhas.step he, hwatch.step he (hs n (.inl hhas))⟩
  have huntouched : ∀ {n : Nat}, c.Has w n → w.Untouched n →
      c.Has w' n ∧ w'.Untouched n := by
    intro n hhas hn
    exact ⟨hhas.step he, (hs n (.inl hhas)).untouched hn⟩
  match stage, h with
  | .going .opening, h | .going .counting, h | .going .handing, h => exact h
  | .handed, ⟨i, stage, hc, hi, hreturned⟩ =>
      obtain ⟨stage', hgoes⟩ := Run.goesOn_of_step he hi
      refine ⟨i, stage', hc, hgoes.there, fun n hn => ?_⟩
      rcases hgoes.fresh n hn with hold | hnew
      · refine (hs n (.inl ⟨i, hc, ?_⟩)).untouched (hreturned n hold)
        rw [hi, hold]
      · exact (hs n (.inr hnew)).untouched (hw.untouched_of_ge hnew)
  | .going (.registering n), ⟨hhas, hn⟩ => exact huntouched hhas hn
  | .going (.refused n), ⟨hhas, hn, hended⟩ =>
      obtain ⟨hhas', hn'⟩ := huntouched hhas hn
      exact ⟨hhas', hn', hresult hended⟩
  | .going (.looking n), ⟨hhas, hn, hended⟩ =>
      obtain ⟨hhas', hn'⟩ := huntouched hhas hn
      exact ⟨hhas', hn', fun hack => hresult (hended hack)⟩
  | .going (.settling none), h => exact hwatches h
  | .returned (.ok .inFlight), h => exact hwatches h
  | .going (.settling (some r)), ⟨n, hhas, hn⟩ => exact ⟨n, huntouched hhas hn⟩
  | .returned (.ok .accepted), h | .returned (.ok (.needsReconnect _)), h
  | .returned (.error _), h =>
      rcases h with hnone | ⟨n, r, hhas, hn, htells⟩
      · exact .inl hnone
      · obtain ⟨hhas', hn'⟩ := huntouched hhas hn
        exact .inr ⟨n, r, hhas', hn', htells⟩
  | .aborted, h => exact h

theorem StandsAt.quietly {stage : CallStage} (h : c.StandsAt w stage) (hw : w.Reached)
    (hq : Run.Quietly w w') : c.StandsAt w' stage := by
  induction hq with
  | refl => exact h
  | tail hq he ih =>
      obtain ⟨e, hhooks, he⟩ := Run.leads_quietly.1 he
      have hreached := hw.steps (steps_of_sparing hq)
      exact ih.step hreached he fun n _ => Run.spares_of_quiet hreached he hhooks

theorem Has.quietly {n : Nat} (h : c.Has w n) (hq : Run.Quietly w w') : c.Has w' n := by
  induction hq with
  | refl => exact h
  | tail _ he ih =>
      obtain ⟨e, -, he⟩ := Run.leads_quietly.1 he
      exact ih.step he

/-- A step of the call itself. -/
theorem Stands.goes (h : c.Stands w) (hw : w.Reached) (hgoes : c.Goes w c' w') :
    c'.Stands w' := by
  unfold Stands at h
  cases hgoes with
  | opens hs =>
      rw [hs] at h
      exact h
  | rejects answer hs ha =>
      rw [hs] at h
      rcases ha with ⟨text, rfl⟩ | ⟨htarget, text, target, rfl⟩
      · exact .inl ⟨h, .inl ⟨text, rfl⟩⟩
      · exact .inl ⟨h, .inr htarget⟩
  | counts hs =>
      rw [hs] at h
      exact h
  | hands hs =>
      refine ⟨w.sends.length, .looking, rfl, ?_, nofun⟩
      exact List.getElem?_concat_length
  | returns hs hc hi =>
      rename_i i n p
      rw [hs] at h
      obtain ⟨j, stage, hj, hthere, hreturned⟩ := h
      rw [hc] at hj
      obtain rfl := Option.some.inj hj
      rw [hi] at hthere
      obtain ⟨rfl, rfl⟩ := Sending.mk.inj (Option.some.inj hthere)
      have hn := hreturned n rfl
      unfold Stands SendCall.afterHanding
      cases hack : c.call.ack with
      | none => exact ⟨⟨i, hc, hi⟩, hn, fun hne => absurd hack hne⟩
      | some ack => exact ⟨⟨i, hc, hi⟩, hn⟩
  | aborts hs => trivial
  | leaves hs ha hb hstep =>
      rename_i n ack board
      rw [hs] at h
      obtain ⟨hhas, hn⟩ := h
      obtain ⟨hleft, hpending⟩ := hn.left_of_watch hb hstep
      refine ⟨n, hhas.step hstep, ?_⟩
      obtain ⟨i, hc, hi⟩ := hhas
      unfold Watches
      simp only [ha]
      exact ⟨hleft, (Run.took_of_pending hw hi hpending).step hstep⟩
  | refused hs ha hb =>
      rename_i n ack board
      rw [hs] at h
      obtain ⟨hhas, hn⟩ := h
      refine ⟨hhas, hn, ?_⟩
      obtain ⟨i, hc, hi⟩ := hhas
      exact hn.ended_of_watch hb (hw.sends.returned i _ n hi)
  | skips hs ha =>
      rw [hs] at h
      exact ⟨h.1, h.2, fun hne => absurd ha hne⟩
  | turns hs hq =>
      rw [hs] at h
      obtain ⟨hhas, hn, hended⟩ := StandsAt.quietly h hw hq
      exact ⟨hhas, hn, fun _ => hended⟩
  | looks hs =>
      rename_i n
      rw [hs] at h
      obtain ⟨hhas, hn, hended⟩ := h
      cases hresult : w.session.board.result? n with
      | none =>
          refine ⟨n, hhas, ?_⟩
          have hack : c.call.ack = none := by
            by_contra hne
            exact hended hne hresult
          unfold Watches
          simp only [hack]
          exact hn
      | some r => exact ⟨n, hhas, hn⟩
  | flies hs hq =>
      rw [hs] at h
      exact StandsAt.quietly h hw hq
  | tells hs ha hq =>
      rename_i r answer
      rw [hs] at h
      obtain ⟨n, hhas, hn⟩ := StandsAt.quietly h hw hq
      have hstands : ∃ n r, c.Has w' n ∧ w'.Untouched n ∧ answer.Tells r :=
        ⟨n, r, hhas, hn, ha⟩
      match answer, ha, hstands with
      | .ok .accepted, _, hstands => exact .inr hstands
      | .ok (.needsReconnect _), _, hstands => exact .inr hstands
      | .error _, _, hstands => exact .inr hstands
      | .ok .inFlight, ⟨g, client, hin⟩, _ =>
          exfalso
          cases r with
          | ok => cases hin
          | error e =>
              by_cases hio : e.isIoFault = true <;>
                simp [ClientGroup.classify, hio] at hin

/-- The call has left its ack with the operation, and answers "in flight". -/
structure AnswersInFlight (c : ClientSend) (w : Run) (n : Nat) (ack : Ack) : Prop where
  has : c.Has w n
  asked : c.call.ack = some ack
  left : w.Left n ack
  stage : c.stage = .going (.settling none) ∨ c.stage = .returned (.ok .inFlight)

theorem AnswersInFlight.quietly {n : Nat} {ack : Ack} (h : c.AnswersInFlight w n ack)
    (hw : w.Reached) (hq : Run.Quietly w w') : c.AnswersInFlight w' n ack where
  has := h.has.quietly hq
  asked := h.asked
  left := hq.left hw h.left
  stage := h.stage

/-- Once a call has left its ack, it does nothing but answer. -/
theorem AnswersInFlight.goes {n : Nat} {ack : Ack} (h : c.AnswersInFlight w n ack)
    (hw : w.Reached) (hgoes : c.Goes w c' w') : c'.AnswersInFlight w' n ack := by
  have hstage := h.stage
  cases hgoes with
  | flies hs hq =>
      have hlater := h.quietly hw hq
      exact ⟨hlater.has, hlater.asked, hlater.left, .inr rfl⟩
  | opens hs | rejects _ hs | counts hs | hands hs | returns hs | aborts hs | leaves hs
  | refused hs | skips hs | turns hs | looks hs | tells hs =>
      rw [hs] at hstage
      rcases hstage with hstage | hstage <;> cases hstage

end ClientSend

/-! ## All calls -/

namespace World

/-- How all calls of a world stand. -/
structure Calls (v : World) : Prop where
  stands : ∀ (k : Nat) (c : ClientSend), v.sends[k]? = some c → c.Stands v.run
  /-- The session's sends that calls have begun are there. -/
  begun : ∀ (k : Nat) (c : ClientSend) (i : Nat), v.sends[k]? = some c →
    c.sending = some i → i < v.run.sends.length
  /-- No two calls have begun the same one. -/
  owned : ∀ (k k' : Nat) (c c' : ClientSend) (i : Nat), v.sends[k]? = some c →
    v.sends[k']? = some c' → c.sending = some i → c'.sending = some i → k = k'

variable {v v' : World} {k k' : Nat} {c c' d : ClientSend} {n : Nat}

/-- The operation of a call is not that of another one. -/
theorem Calls.has_ne (h : v.Calls) (hv : v.Reached) (hk : v.sends[k]? = some c)
    (hk' : v.sends[k']? = some d) (hne : k' ≠ k) {m : Nat} (hc : c.Has v.run n)
    (hd : d.Has v.run m) : m ≠ n := by
  rintro rfl
  obtain ⟨i, hci, hi⟩ := hc
  obtain ⟨j, hdj, hj⟩ := hd
  have hij : i = j := hv.run.sends.owned i j _ _ _ hi hj
  subst hij
  exact hne (h.owned k' k d c i hk' hk hdj hci)

/-- A step of one call does not change how another one stands. -/
theorem Calls.stands_of_other (h : v.Calls) (hv : v.Reached) (hk : v.sends[k]? = some c)
    (hgoes : c.Goes v.run c' v'.run) (hk' : v.sends[k']? = some d) (hne : k' ≠ k) :
    d.Stands v'.run := by
  have hd := h.stands k' d hk'
  rcases quietly_or_leaves hgoes with hq | ⟨n, ack, board, hs, -, -, -, -, hb, hstep⟩
  · exact ClientSend.StandsAt.quietly hd hv.run hq
  · have hc := h.stands k c hk
    unfold ClientSend.Stands at hc
    rw [hs] at hc
    have hhas : c.Has v.run n := hc.1
    refine ClientSend.StandsAt.step hd hv.run hstep fun m hm => ?_
    refine Run.spares_of_watch hb hstep ?_
    rcases hm with hdm | hnew
    · exact h.has_ne hv hk hk' hne hhas hdm
    · obtain ⟨i, -, hi⟩ := hhas
      have := hv.run.sends.returned i _ n hi
      omega

/-- Calls keep what they ask for, and begin at most one send of the session. -/
private theorem kept_of_goes {w w' : Run} (hgoes : c.Goes w c' w') :
    c'.sending = c.sending ∨ (c'.sending = some w.sends.length ∧
      w'.sends.length = w.sends.length + 1) := by
  cases hgoes with
  | hands hs => exact .inr ⟨rfl, List.length_append⟩
  | _ => exact .inl rfl

theorem Calls.goes (h : v.Calls) (hv : v.Reached) (hk : v.sends[k]? = some c)
    (hs : v'.sends = v.sends.set k c') (hgoes : c.Goes v.run c' v'.run) : v'.Calls where
  stands k' d hd := by
    rw [hs] at hd
    rcases getElem?_set_cases hd with ⟨rfl, rfl⟩ | ⟨hne, hold⟩
    · exact (h.stands _ c hk).goes hv.run hgoes
    · exact h.stands_of_other hv hk hgoes hold hne
  begun k' d i hd hi := by
    rw [hs] at hd
    have hlater : ∀ {j : Nat}, j < v.run.sends.length → j < v'.run.sends.length :=
      fun hj => Run.begun_of_steps (steps_of_goes hgoes) hj
    rcases getElem?_set_cases hd with ⟨rfl, rfl⟩ | ⟨-, hold⟩
    · rcases kept_of_goes hgoes with hsame | ⟨hnew, hlength⟩
      · exact hlater (h.begun _ c i hk (hsame ▸ hi))
      · rw [hnew] at hi
        obtain rfl := Option.some.inj hi
        omega
    · exact hlater (h.begun k' d i hold hi)
  owned k₁ k₂ d₁ d₂ i h₁ h₂ hi₁ hi₂ := by
    rw [hs] at h₁ h₂
    -- a send of the session that was just begun belongs to no other call
    have hfresh : ∀ {k' : Nat} {d : ClientSend}, v.sends[k']? = some d →
        d.sending = some i → c'.sending = some i → c.sending = some i := by
      intro k' d hd hdi hci
      rcases kept_of_goes hgoes with hsame | ⟨hnew, -⟩
      · rw [← hsame, hci]
      · rw [hnew] at hci
        obtain rfl := Option.some.inj hci
        exact absurd (h.begun k' d _ hd hdi) (Nat.lt_irrefl _)
    rcases getElem?_set_cases h₁ with ⟨rfl, rfl⟩ | ⟨-, hold₁⟩
    · rcases getElem?_set_cases h₂ with ⟨rfl, -⟩ | ⟨-, hold₂⟩
      · rfl
      · exact h.owned _ _ c d₂ i hk hold₂ (hfresh hold₂ hi₂ hi₁) hi₂
    · rcases getElem?_set_cases h₂ with ⟨rfl, rfl⟩ | ⟨-, hold₂⟩
      · exact h.owned _ _ d₁ c i hold₁ hk hi₁ (hfresh hold₁ hi₁ hi₂)
      · exact h.owned _ _ d₁ d₂ i hold₁ hold₂ hi₁ hi₂

theorem Calls.step (h : v.Calls) (hv : v.Reached) (he : v.Effect v') : v'.Calls := by
  cases he with
  | aside hq hs =>
      constructor
      · intro k c hk
        rw [hs] at hk
        exact ClientSend.StandsAt.quietly (h.stands k c hk) hv.run hq
      · intro k c i hk hi
        rw [hs] at hk
        exact Run.begun_of_steps (steps_of_sparing hq) (h.begun k c i hk hi)
      · rw [hs]
        exact h.owned
  | begins call hrun hs =>
      have hcases : ∀ {k : Nat} {c : ClientSend}, v'.sends[k]? = some c →
          v.sends[k]? = some c ∨ c = { call := call } := by
        intro k c hk
        rw [hs] at hk
        rcases getElem?_concat_cases hk with hold | ⟨-, hnew⟩
        · exact .inl hold
        · exact .inr hnew
      constructor
      · intro k c hk
        rw [hrun]
        rcases hcases hk with hold | rfl
        · exact h.stands k c hold
        · exact rfl
      · intro k c i hk hi
        rw [hrun]
        rcases hcases hk with hold | rfl
        · exact h.begun k c i hold hi
        · cases hi
      · intro k k' c c' i hk hk' hi hi'
        rcases hcases hk with hold | rfl
        · rcases hcases hk' with hold' | rfl
          · exact h.owned k k' c c' i hold hold' hi hi'
          · cases hi'
        · cases hi
  | goes hk hs hgoes => exact h.goes hv hk hs hgoes

theorem Reached.calls (h : v.Reached) : v.Calls := by
  refine h.invariant (P := Calls) ?_ ?_
  · rintro _ ⟨label, remote, config, now⟩
    have hnone : ∀ (k : Nat) (c : ClientSend),
        (World.start label remote config now).sends[k]? ≠ some c := by
      intro k c hk
      cases hk
    exact ⟨fun k c hk => absurd hk (hnone k c), fun k c i hk => absurd hk (hnone k c),
      fun k k' c c' i hk => absurd hk (hnone k c)⟩
  · rintro v v' (hv : v.Reached) ⟨e, he⟩ hcalls
    exact hcalls.step hv (effect_of_step he)

/-! ## Whose ack an operation has -/

/-- Every operation that an ack was left with is that of a call which answers
"in flight". -/
def Attributed (v : World) (n : Nat) : Prop :=
  v.run.Untouched n ∨ ∃ (k : Nat) (c : ClientSend) (ack : Ack), v.sends[k]? = some c ∧
    c.AnswersInFlight v.run n ack

theorem Attributed.aside (h : v.Attributed n) (hv : v.Reached)
    (hq : Run.Quietly v.run v'.run) (hs : v'.sends = v.sends) : v'.Attributed n := by
  rcases h with hn | ⟨k, c, ack, hk, hanswers⟩
  · exact .inl (hq.untouched hv.run hn)
  · exact .inr ⟨k, c, ack, by rw [hs, hk], hanswers.quietly hv.run hq⟩

theorem Attributed.goes (h : v.Attributed n) (hv : v.Reached) (hk : v.sends[k]? = some c)
    (hs : v'.sends = v.sends.set k c') (hgoes : c.Goes v.run c' v'.run) :
    v'.Attributed n := by
  have hself : v'.sends[k]? = some c' := by
    rw [hs, List.getElem?_set_self (List.getElem?_eq_some_iff.1 hk).1]
  have hcalls := hv.calls
  rcases h with hn | ⟨k', d, ack, hk', hanswers⟩
  · rcases quietly_or_leaves hgoes with hq |
      ⟨m, ack, board, hstage, hstage', hcall, hsending, ha, hb, hstep⟩
    · exact .inl (hq.untouched hv.run hn)
    · by_cases hnm : n = m
      · subst hnm
        have hc := hcalls.stands k c hk
        unfold ClientSend.Stands at hc
        rw [hstage] at hc
        obtain ⟨i, hi, hthere⟩ := hc.1.step hstep
        obtain ⟨hleft, -⟩ := hn.left_of_watch hb hstep
        refine .inr ⟨k, c', ack, hself, ⟨i, ?_, ?_⟩, ?_, hleft, .inl hstage'⟩
        · rw [hsending, hi]
        · rw [hcall, hthere]
        · rw [hcall, ha]
      · exact .inl ((Run.spares_of_watch hb hstep hnm).untouched hn)
  · by_cases hkk : k' = k
    · subst hkk
      rw [hk] at hk'
      obtain rfl := Option.some.inj hk'
      exact .inr ⟨k', c', ack, hself, hanswers.goes hv.run hgoes⟩
    · have hother : v'.sends[k']? = some d := by
        rw [hs, List.getElem?_set_ne (Ne.symm hkk), hk']
      rcases quietly_or_leaves hgoes with hq | ⟨m, ack', board, hstage, -, -, -, -, hb, hstep⟩
      · exact .inr ⟨k', d, ack, hother, hanswers.quietly hv.run hq⟩
      · have hc := hcalls.stands k c hk
        unfold ClientSend.Stands at hc
        rw [hstage] at hc
        have hne := hcalls.has_ne hv hk hk' hkk hc.1 hanswers.has
        have hleft := (Run.spares_of_watch hb hstep hne).left ack hanswers.left
        exact .inr ⟨k', d, ack, hother, hanswers.has.step hstep, hanswers.asked, hleft,
          hanswers.stage⟩

theorem Reached.attributed (h : v.Reached) : ∀ n, v.Attributed n := by
  refine h.invariant (P := fun v => ∀ n, v.Attributed n) ?_ ?_
  · rintro _ ⟨label, remote, config, now⟩ n
    refine .inl ((Run.Reached.start label remote config now).untouched_of_ge ?_)
    obtain ⟨journal, hsession⟩ := Run.session_start label remote config now
    rw [hsession]
    exact Nat.zero_le n
  · rintro v v' (hv : v.Reached) ⟨e, he⟩ ih n
    cases effect_of_step he with
    | aside hq hs => exact (ih n).aside hv hq hs
    | begins call hrun hs =>
        rcases ih n with hn | ⟨k, c, ack, hk, hanswers⟩
        · left
          rw [hrun]
          exact hn
        · right
          refine ⟨k, c, ack, ?_, ?_⟩
          · rw [hs, List.getElem?_append_left (List.getElem?_eq_some_iff.1 hk).1, hk]
          · rw [hrun]
            exact hanswers
    | goes hk hs hgoes => exact (ih n).goes hv hk hs hgoes

/-- An ack that was run is that of a call which answers "in flight". -/
theorem Reached.caller_of_fired (h : v.Reached) {f : Firing} (hf : f ∈ v.run.fired) :
    ∃ (k : Nat) (c : ClientSend), v.sends[k]? = some c ∧
      c.AnswersInFlight v.run f.operation f.ack := by
  have hmem : f ∈ v.run.firings f.operation :=
    List.mem_filter.2 ⟨hf, by simp⟩
  rcases h.attributed f.operation with hn | ⟨k, c, ack, hk, hanswers⟩
  · rw [hn.firings] at hmem
    cases hmem
  · rcases hanswers.left with ⟨-, -, hnone⟩ | ⟨r, -, hone⟩
    · rw [hnone] at hmem
      cases hmem
    · rw [hone] at hmem
      have hack : f.ack = ack := by rw [List.mem_singleton.1 hmem]
      rw [hack]
      exact ⟨k, c, hk, hanswers⟩

/-! ## When the writer has ended -/

private theorem bytes_ne_nil {m : Message} {limit : Nat} {bytes : Bytes}
    (h : m.encode limit = .framed bytes) : bytes ≠ [] := by
  rintro rfl
  obtain ⟨-, -, -, hbytes⟩ := Message.encode_eq_framed_iff.1 h
  have hlength := congrArg List.length hbytes
  simp at hlength
  omega

/-- An ack that was left has been run once, with the result of its request. -/
private theorem fired_of_left {w : Run} (h : w.Reached) (hend : w.session.writer = .ended)
    {m : Message} {ack : Ack} (hleft : w.Left n ack) (htook : w.Took (.message m) n)
    (hflush : ∀ b, w.broken = some b → b.left ≠ []) :
    ∃ (i : Nat) (r : SendResult) (x : Handover), w.firings n = [⟨n, ack, r⟩] ∧
      r ≠ .error .canceled ∧ w.entered[i]? = some x ∧ x.payload = .message m ∧
      x.request.operation = n ∧
      m.encode w.session.frameLimit = .framed x.request.bytes ∧
      (r = .succeeded ↔ w.PutOut i) := by
  obtain ⟨x, hx, hpayload, hop⟩ := htook
  obtain ⟨givenUp, l⟩ := h.ledger
  have hhandover : x ∈ w.handovers := List.mem_append_left _ hx
  have hfate := Run.result_eq_fate l hend hhandover
  rw [hop] at hfate
  obtain ⟨r, hr, hfirings⟩ : ∃ r, w.session.board.result? n = some r ∧
      w.firings n = [⟨n, ack, r⟩] := by
    rcases hleft with ⟨hnone, -, -⟩ | hrun
    · rw [hfate] at hnone
      cases hnone
    · exact hrun
  have hr' : r = w.fate x.request := by
    rw [hfate] at hr
    exact (Option.some.inj hr).symm
  have hframed : m.encode w.session.frameLimit = .framed x.request.bytes := by
    have hencode := h.sends.framed x hhandover
    rw [hpayload] at hencode
    exact hencode
  obtain ⟨i, hi⟩ := List.getElem?_of_mem hx
  have hrequest : w.requests[i]? = some x.request := by
    rw [Run.requests, List.getElem?_map, hi]
    rfl
  have hout := h.succeeded_iff_putOut hend hflush hrequest (bytes_ne_nil hframed)
  refine ⟨i, r, x, hfirings, ?_, hi, hpayload, hop, hframed, ?_⟩
  · rw [hr']
    exact Run.fate_ne_canceled w x.request
  · rw [← hout, hop, hr]
    exact ⟨fun heq => by rw [heq], fun heq => Option.some.inj heq⟩

/-- Let no flush fail, so that a failed write leaves bytes behind.  When the
writer has ended, every ack that was run is that of a call which answers "in
flight".  A call with an ack that has returned either said so, and its ack has
run once, well if and only if the stream has taken its whole frame; or it
answered otherwise, and its ack has not run. -/
theorem acks_report_sends (h : v.Reached) (hend : v.run.session.writer = .ended)
    (hflush : ∀ b, v.run.broken = some b → b.left ≠ []) :
    (∀ f ∈ v.run.fired, ∃ (k : Nat) (c : ClientSend), v.sends[k]? = some c ∧
      c.AnswersInFlight v.run f.operation f.ack) ∧
    ∀ (k : Nat) (c : ClientSend) (m : Message) (ack : Ack) (answer : SendAnswer),
      v.sends[k]? = some c → c.call.target = none → c.call.payload = .message m →
      c.call.ack = some ack → c.stage = .returned answer →
      (answer = .ok .inFlight ∧ ∃ n, c.Has v.run n ∧
        ∃ (i : Nat) (r : SendResult) (x : Handover), v.run.firings n = [⟨n, ack, r⟩] ∧
          r ≠ .error .canceled ∧ v.run.entered[i]? = some x ∧ x.payload = .message m ∧
          x.request.operation = n ∧
          m.encode v.run.session.frameLimit = .framed x.request.bytes ∧
          (r = .succeeded ↔ v.run.PutOut i)) ∨
      ((answer = .ok .accepted ∨ (∃ e, answer = .ok (.needsReconnect e)) ∨
          (∃ text e, answer = .error (.sendFailed text e)) ∨
          ∃ text, answer = .error (.closed text)) ∧
        ∀ n, c.Has v.run n → v.run.firings n = []) := by
  refine ⟨fun f hf => h.caller_of_fired hf, ?_⟩
  intro k c m ack answer hk htarget hpayload hack hstage
  have hstands := h.calls.stands k c hk
  unfold ClientSend.Stands at hstands
  rw [hstage] at hstands
  by_cases hinFlight : answer = .ok .inFlight
  · subst hinFlight
    left
    obtain ⟨n, hhas, hwatch⟩ := hstands
    unfold ClientSend.Watches at hwatch
    simp only [hack] at hwatch
    obtain ⟨hleft, htook⟩ := hwatch
    rw [hpayload] at htook
    exact ⟨rfl, n, hhas, fired_of_left h.run hend hleft htook hflush⟩
  · right
    have htold : (c.sending = none ∧ ((∃ text, answer = .error (.closed text)) ∨
        c.call.target ≠ none)) ∨
        ∃ n r, c.Has v.run n ∧ v.run.Untouched n ∧ answer.Tells r := by
      match answer, hinFlight, hstands with
      | .ok .inFlight, hne, _ => exact absurd rfl hne
      | .ok .accepted, _, hstands => exact hstands
      | .ok (.needsReconnect _), _, hstands => exact hstands
      | .error _, _, hstands => exact hstands
    rcases htold with ⟨hnone, hclosed | hne⟩ | ⟨n, r, hhas, hn, g, client, htells⟩
    · refine ⟨.inr (.inr (.inr hclosed)), ?_⟩
      rintro n ⟨i, hi, -⟩
      rw [hnone] at hi
      cases hi
    · exact absurd htarget hne
    · refine ⟨?_, fun n' hn' => ?_⟩
      · rw [htells]
        cases r with
        | ok => exact .inl rfl
        | error e =>
            by_cases hio : e.isIoFault = true
            · exact .inr (.inl ⟨e, by simp [ClientGroup.classify, hio]⟩)
            · refine .inr (.inr (.inl ⟨g.describeAt client, e, ?_⟩))
              simp [ClientGroup.classify, hio]
      · rw [hn'.unique hhas]
        exact hn.firings

/-- A message that asks for an ack. -/
def toldCall : SendCall :=
  { client := 0, payload := .message (.ofBody 7 [1]), ack := some (.watch 0) }

/-- A client closes itself by force while its message waits in the queue; the
writer sends the message after that, before the call has answered. -/
def told : World :=
  (start "1" none {} default).after
    [.bind ⟨0⟩, .send toldCall, .sendStep 0, .sendStep 0, .sendStep 0, .session (.look 0),
      .session (.enqueue 0), .sendStep 0, .sendStep 0, .close 0 true, .closeStep 0,
      .closeStep 0, .closeStep 0, .closeStep 0, .session (.closeStep 0),
      .session (.closeStep 0), .session (.closeStep 0), .closeStep 0, .session .write,
      .session .write, .session .write, .session .write, .session (.put 7),
      .session .write, .session .write, .session .write, .session .write, .sendStep 0]

theorem told_hears_once :
    told.run.session.writer = .ended ∧
      ∃ c n, told.sends[0]? = some c ∧ c.stage = .returned (.ok .inFlight) ∧
        c.Has told.run n ∧ told.run.firings n = [⟨n, .watch 0, .succeeded⟩] := by
  have hreached : told.Reached := ⟨_, .start _ _ _ _, steps_after _ _⟩
  have hend : told.run.session.writer = .ended := by rfl
  obtain ⟨-, hcalls⟩ := acks_report_sends hreached hend nofun
  rcases hcalls 0 _ _ _ _ rfl rfl rfl rfl rfl with
    ⟨-, n, hhas, i, r, x, hfirings, -, hentered, -, -, -, hout⟩ | ⟨hanswer, -⟩
  · have hwire : told.run.wire = told.run.requests.flatMap WriteRequest.bytes := by rfl
    have hr : r = .succeeded := by
      refine hout.2 ?_
      unfold Run.PutOut
      rw [hwire]
      have htake := List.take_prefix (i + 1) told.run.requests
      exact List.IsPrefix.flatMap htake _
    rw [hr] at hfirings
    exact ⟨hend, _, n, rfl, rfl, hhas, hfirings⟩
  · exfalso
    rcases hanswer with hno | ⟨_, hno⟩ | ⟨_, _, hno⟩ | ⟨_, hno⟩ <;> cases hno

end World

end PeerLink
