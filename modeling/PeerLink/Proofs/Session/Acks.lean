import PeerLink.Proofs.Session.Wire

/-!
# What becomes of an ack

An ack that is left with an operation is run when the operation ends, by the
step of the writer that ends it.  Two things can be said of an operation at any
moment: nobody has left an ack with it (`Run.Untouched`), or an ack was left and
is either still there or was run once with the result (`Run.Left`).  A step in
which no ack is left or taken off changes neither.

## Main results

* `Run.ack_of_step` — a step leaves the ack of an operation alone, or ends the
  operation and runs its ack.
* `Run.Reached.untouched_of_ge` — nobody has left an ack with an operation that is
  yet to come.
* `Run.Quietly.untouched`, `Run.Quietly.left` — others change neither of the two.
* `Run.Untouched.left_of_watch`, `Run.Untouched.ended_of_watch` — what becomes of
  the attempt to leave an ack.
-/

namespace PeerLink.Run

variable {w w' : Run} {e : RunEvent} {n : Nat} {ack : Ack}

/-- The acks that were run for an operation. -/
def firings (w : Run) (n : Nat) : List Firing := w.fired.filter fun f => f.operation == n

/-- Nobody has left an ack with the operation. -/
structure Untouched (w : Run) (n : Nat) : Prop where
  callback : w.session.board.callback? n = none
  firings : w.firings n = []

/-- The ack was left with the operation.  It is still there, or it was run once
with the result. -/
def Left (w : Run) (n : Nat) (ack : Ack) : Prop :=
  (w.session.board.result? n = none ∧ w.session.board.callback? n = some ack ∧
    w.firings n = []) ∨
  ∃ r, w.session.board.result? n = some r ∧ w.firings n = [⟨n, ack, r⟩]

/-! ## Steps that leave no ack -/

/-- Nothing about the ack of the operation changes. -/
structure SameAck (w w' : Run) (n : Nat) : Prop where
  callback : w'.session.board.callback? n = w.session.board.callback? n
  result : n < w.session.board.size →
    w'.session.board.result? n = w.session.board.result? n
  firings : w'.firings n = w.firings n

/-- The operation ends, and the ack that it carried is run. -/
structure RunsAck (w w' : Run) (n : Nat) (r : SendResult) : Prop where
  pending : w.session.board.IsPending n
  callback : w'.session.board.callback? n = none
  result : w'.session.board.result? n = some r
  firings : w'.firings n =
    w.firings n ++ ((w.session.board.callback? n).map fun ack => ⟨n, ack, r⟩).toList

private theorem sameAck_of_push (o : Operation Ack) (ho : o.callback = none)
    (hboard : w'.session.board = w.session.board.push o) (hfired : w'.fired = w.fired) :
    SameAck w w' n where
  callback := by
    rw [hboard, Board.callback?_push]
    split
    · rename_i hn
      have hnone : w.session.board.operation? n = none :=
        Board.operation?_eq_none_iff.2 (Nat.le_of_eq hn.symm)
      rw [ho, Board.callback?, hnone]
      rfl
    · rfl
  result hn := by
    rw [hboard, Board.result?_push, if_neg (Nat.ne_of_lt hn)]
  firings := by rw [firings, hfired, firings]

/-- Using the completer of a pending operation runs its ack and no other. -/
private theorem ack_of_settle {m : Nat} {r : SendResult}
    (hpending : w.session.board.IsPending m)
    (hboard : w'.session.board = (w.session.board.complete m r).2)
    (hfired : w'.fired = w.fired ++ (w.session.board.firing m r).toList) :
    SameAck w w' n ∨ RunsAck w w' n r := by
  rw [Board.firing_of_pending hpending] at hfired
  by_cases hn : n = m
  · subst hn
    refine .inr ⟨hpending, ?_, ?_, ?_⟩
    · rw [hboard, Board.callback?_complete_of_pending hpending, if_pos rfl]
    · rw [hboard, Board.result?_complete_of_pending hpending, if_pos rfl]
    · rw [firings, hfired, List.filter_append, firings]
      cases w.session.board.callback? n <;> simp
  · refine .inl ⟨?_, fun _ => ?_, ?_⟩
    · rw [hboard, Board.callback?_complete_of_pending hpending, if_neg hn]
    · rw [hboard, Board.result?_complete_of_pending hpending, if_neg hn]
    · rw [firings, hfired, List.filter_append, firings]
      cases w.session.board.callback? m <;> simp [Ne.symm hn]

private theorem ack_of_effect {givenUp : List WriteRequest} (l : Ledger w givenUp)
    (he : Effect w e w') (hhooks : e.hooks = false) (n : Nat) :
    SameAck w w' n ∨ ∃ r, RunsAck w w' n r := by
  have hsame : w'.session.board = w.session.board → w'.fired = w.fired →
      SameAck w w' n := by
    intro hboard hfired
    exact ⟨by rw [hboard], fun _ => by rw [hboard], by rw [firings, hfired, firings]⟩
  have hsettle : ∀ {r : WriteRequest} {result : SendResult} (rest : List WriteRequest),
      w.work.waiting = r :: rest →
      w'.session.board = (w.session.board.complete r.operation result).2 →
      w'.fired = w.fired ++ (w.session.board.firing r.operation result).toList →
      SameAck w w' n ∨ ∃ r, RunsAck w w' n r := by
    intro r result rest hwaiting hboard hfired
    have hpending : w.session.board.IsPending r.operation := by
      refine l.placed.books.pending r.operation ?_
      rw [hwaiting]
      exact List.mem_cons_self ..
    rcases ack_of_settle (n := n) hpending hboard hfired with hkeeps | hruns
    · exact .inl hkeeps
    · exact .inr ⟨result, hruns⟩
  cases he with
  | callbacks hcall board hb h =>
      rw [hcall] at hhooks
      cases hhooks
  | refuses error h =>
      exact .inl (sameAck_of_push _ rfl (congrArg Work.board h) (congrArg Work.fired h))
  | admits p bytes hq h =>
      exact .inl (sameAck_of_push _ rfl (congrArg Work.board h) (congrArg Work.fired h))
  | turnsAway p bytes hq h =>
      -- the new operation ends at once, before anybody could leave an ack with it
      have hboard : w'.session.board = _ := congrArg Work.board h
      have hfired : w'.fired = w.fired := congrArg Work.fired h
      have hpending : (w.session.board.push .pending).IsPending w.session.board.size := by
        rw [Board.isPending_push_iff, if_pos rfl]
        exact ⟨rfl, rfl⟩
      refine .inl ⟨?_, fun hn => ?_, by rw [firings, hfired, firings]⟩
      · rw [hboard, Board.callback?_complete_of_pending hpending, Board.callback?_push]
        split
        · rename_i hn
          have hnone : w.session.board.operation? n = none :=
            Board.operation?_eq_none_iff.2 (Nat.le_of_eq hn.symm)
          rw [Board.callback?, hnone]
          rfl
        · rfl
      · rw [hboard, Board.result?_complete_of_pending hpending, if_neg (Nat.ne_of_lt hn),
          Board.result?_push, if_neg (Nat.ne_of_lt hn)]
  | completes hw h =>
      refine hsettle w.session.queue ?_ (congrArg Work.board h)
        (congrArg Work.fired h)
      simp [Work.waiting, work, hw, WriterPhase.holds]
  | reports reason hw h =>
      refine hsettle w.session.queue ?_ (congrArg Work.board h)
        (congrArg Work.fired h)
      simp [Work.waiting, work, hw, WriterPhase.holds]
  | givesUp hw hq h =>
      rename_i r queue healthy dropped
      refine hsettle queue ?_ (congrArg Work.board h) (congrArg Work.fired h)
      simp [Work.waiting, work, hw, hq, WriterPhase.holds]
  | aside h | takes flushed hw hq h | puts count hw h | breaks fault hw h
  | moves phase closed hp h =>
      exact .inl (hsame (congrArg Work.board h) (congrArg Work.fired h))

theorem ack_of_step (h : w.Reached) (he : w.step? e = some w') (hhooks : e.hooks = false)
    (n : Nat) : SameAck w w' n ∨ ∃ r, RunsAck w w' n r := by
  obtain ⟨givenUp, l⟩ := h.ledger
  exact ack_of_effect l (effect_of_step he) hhooks n

theorem SameAck.untouched (h : SameAck w w' n) (hn : w.Untouched n) : w'.Untouched n :=
  ⟨h.callback.trans hn.callback, h.firings.trans hn.firings⟩

theorem SameAck.left (h : SameAck w w' n) (he : w.step? e = some w') (hn : w.Left n ack) :
    w'.Left n ack := by
  rcases hn with ⟨hresult, hcallback, hfirings⟩ | ⟨r, hresult, hfirings⟩
  · have hlt : n < w.session.board.size := by
      by_contra hge
      have hnone := Board.operation?_eq_none_iff.2 (Nat.le_of_not_lt hge)
      rw [Board.callback?, hnone] at hcallback
      cases hcallback
    exact .inl ⟨(h.result hlt).trans hresult, h.callback.trans hcallback,
      h.firings.trans hfirings⟩
  · exact .inr ⟨r, extends_of_step he n r hresult, h.firings.trans hfirings⟩

theorem Untouched.step (hn : w.Untouched n) (h : w.Reached) (he : w.step? e = some w')
    (hhooks : e.hooks = false) : w'.Untouched n := by
  rcases ack_of_step h he hhooks n with hsame | ⟨r, hruns⟩
  · exact hsame.untouched hn
  · refine ⟨hruns.callback, ?_⟩
    rw [hruns.firings, hn.firings, hn.callback]
    rfl

theorem Left.step (hn : w.Left n ack) (h : w.Reached) (he : w.step? e = some w')
    (hhooks : e.hooks = false) : w'.Left n ack := by
  rcases ack_of_step h he hhooks n with hsame | ⟨r, hruns⟩
  · exact hsame.left he hn
  · rcases hn with ⟨-, hcallback, hfirings⟩ | ⟨r', hresult, -⟩
    · refine .inr ⟨r, hruns.result, ?_⟩
      rw [hruns.firings, hfirings, hcallback]
      rfl
    · rw [hruns.pending.result?] at hresult
      cases hresult

/-! ## Steps of others -/

/-- From one run to a later one, without leaving an ack or taking one off. -/
abbrev Quietly : Run → Run → Prop :=
  Relation.ReflTransGen (Leads (sparing (fun e => !e.hooks) step?))

theorem leads_quietly : Leads (sparing (fun e => !e.hooks) step?) w w' ↔
    ∃ e, e.hooks = false ∧ w.step? e = some w' := by
  simp only [leads_sparing, Bool.not_eq_true']

theorem quietly_of_step (he : w.step? e = some w') (hhooks : e.hooks = false) :
    Quietly w w' :=
  .single (leads_quietly.2 ⟨e, hhooks, he⟩)

theorem Quietly.untouched (hq : Quietly w w') (h : w.Reached) (hn : w.Untouched n) :
    w'.Untouched n := by
  induction hq with
  | refl => exact hn
  | tail hq he ih =>
      obtain ⟨e, hhooks, he⟩ := leads_quietly.1 he
      exact ih.step (h.steps (steps_of_sparing hq)) he hhooks

theorem Quietly.left (hq : Quietly w w') (h : w.Reached) (hn : w.Left n ack) :
    w'.Left n ack := by
  induction hq with
  | refl => exact hn
  | tail hq he ih =>
      obtain ⟨e, hhooks, he⟩ := leads_quietly.1 he
      exact ih.step (h.steps (steps_of_sparing hq)) he hhooks

/-! ## Operations that are yet to come -/

/-- Steps that leave or take off an ack run none. -/
private theorem fired_of_hooks (he : w.step? e = some w') (hhooks : e.hooks = true) :
    w'.fired = w.fired := by
  cases e with
  | outside call =>
      obtain rfl := Option.some.inj he
      rfl
  | _ => cases hhooks

/-- No ack was run for an operation that is yet to come. -/
private theorem Reached.firings_of_ge (h : w.Reached) :
    ∀ n, w.session.board.size ≤ n → w.firings n = [] := by
  refine h.invariant (P := fun w => ∀ n, w.session.board.size ≤ n → w.firings n = []) ?_ ?_
  · rintro _ ⟨label, remote, config, now⟩ n _
    rfl
  · rintro w w' (hw : w.Reached) ⟨e, he⟩ ih n hn
    have hsize := size_of_step he
    cases hhooks : e.hooks with
    | true => rw [firings, fired_of_hooks he hhooks, ← firings, ih n (by omega)]
    | false =>
        rcases ack_of_step hw he hhooks n with hsame | ⟨r, hruns⟩
        · rw [hsame.firings, ih n (by omega)]
        · have := hruns.pending.lt_size
          omega

theorem Reached.untouched_of_ge (h : w.Reached) (hn : w.session.board.size ≤ n) :
    w.Untouched n where
  callback := by
    rw [Board.callback?, Board.operation?_eq_none_iff.2 hn]
    rfl
  firings := h.firings_of_ge n hn

/-! ## Leaving an ack -/

/-- An ack that is taken on is left with its operation, which has not ended. -/
theorem Untouched.left_of_watch (hn : w.Untouched n) {board : Board Ack}
    (hw : w.session.board.onComplete n ack = (true, board))
    (hw' : w.step? (.outside (.watch n ack)) = some w') :
    w'.Left n ack ∧ w.session.board.result? n = none := by
  obtain rfl := Option.some.inj hw'
  have hresult := Board.result?_of_onComplete hw
  have hboard : (w.session.board.onComplete n ack).2 = board := by rw [hw]
  refine ⟨.inl ⟨?_, ?_, hn.firings⟩, hresult⟩
  · show ((w.session.board.onComplete n ack).2).result? n = none
    rw [(Board.sameOutcomes_onComplete _ n ack).result, hresult]
  · show ((w.session.board.onComplete n ack).2).callback? n = some ack
    rw [hboard, Board.callback?_onComplete hw, if_pos rfl]

/-- An ack that is refused finds its operation ended. -/
theorem Untouched.ended_of_watch (hn : w.Untouched n) {board : Board Ack}
    (hw : w.session.board.onComplete n ack = (false, board))
    (hlt : n < w.session.board.size) : w.session.board.result? n ≠ none :=
  Board.result?_of_refused hw hlt hn.callback

/-- An ack that is left with another operation is no concern of this one. -/
theorem sameAck_of_watch {m : Nat} {board : Board Ack}
    (hw : w.session.board.onComplete m ack = (true, board))
    (hw' : w.step? (.outside (.watch m ack)) = some w') (hm : n ≠ m) : SameAck w w' n := by
  obtain rfl := Option.some.inj hw'
  refine ⟨?_, fun _ => ?_, rfl⟩
  · show ((w.session.board.onComplete m ack).2).callback? n = _
    rw [show (w.session.board.onComplete m ack).2 = board by rw [hw],
      Board.callback?_onComplete hw, if_neg hm]
  · exact (Board.sameOutcomes_onComplete _ m ack).result n

end PeerLink.Run
