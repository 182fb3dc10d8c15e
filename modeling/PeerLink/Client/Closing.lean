import PeerLink.Client.Group

/-!
# Closing a client

Closing a client shuts its gate, takes the client off the session's slot if it is still the one
there, and closes the session. A forced close does the last two even if the gate was shut before.
Several callers may do this at once, so it is described one atomic step at a time; a call is run
alone by doing its steps one after the other.

## Main results

* `ClientGroup.rank_of_closeStep` — every step brings a call nearer to its end.
-/

namespace PeerLink

/-- What a call that closes a client does next. -/
inductive CloseStage
  /-- Shut the gate. -/
  | gate (forced : Bool)
  /-- Look at the client slot. -/
  | reading
  /-- Empty the client slot. -/
  | removing
  /-- Close the session. -/
  | closing
  deriving DecidableEq, Repr

/-- The number of steps ahead of a call, at most. -/
def CloseStage.rank : CloseStage → Nat
  | .gate _ => 3
  | .reading => 2
  | .removing => 1
  | .closing => 0

/-- What a step of a call leads to. -/
inductive CloseProgress (σ : Type)
  | next (stage : CloseStage) (group : ClientGroup σ)
  /-- The call ends and says whether it shut the gate. -/
  | done (answer : Bool) (group : ClientGroup σ)

namespace ClientGroup

variable {σ : Type} [SessionHost σ]

/-- Does one step of a call that closes client `n`. -/
def closeStep (g : ClientGroup σ) (n : Nat) : CloseStage → CloseProgress σ
  | .gate true => .next .reading (g.modify n fun c => { c with gate := c.gate.forceClose })
  | .gate false =>
    match g.client? n with
    | none => .done false g
    | some c =>
      match c.gate.close with
      | (false, _) => .done false g
      | (true, gate) => .next .reading (g.modify n fun c => { c with gate := gate })
  | .reading =>
    let bound := ((SessionHost.slots g.session).get? .client).bind SlotValue.owner?
    if bound.isSome && bound == (g.client? n).map (·.id) then .next .removing g
    else .next .closing g
  | .removing => .next .closing (g.modifySlots (·.remove .client))
  | .closing =>
    let (_, session) := SessionHost.close g.session
    .done true { g with session := session }

theorem rank_of_closeStep {g g' : ClientGroup σ} {n : Nat} {s s' : CloseStage}
    (h : g.closeStep n s = .next s' g') : s'.rank < s.rank := by
  unfold closeStep at h
  split at h
  · cases h
    decide
  · split at h
    · cases h
    · split at h <;> cases h
      decide
  · dsimp only at h
    split at h <;> cases h <;> decide
  · cases h
    decide
  · cases h

/-- Does all steps of a call that closes client `n`. -/
def runClose (g : ClientGroup σ) (n : Nat) (s : CloseStage) : Bool × ClientGroup σ :=
  match _h : g.closeStep n s with
  | .done answer g => (answer, g)
  | .next s g => runClose g n s
termination_by s.rank
decreasing_by exact rank_of_closeStep ‹_›

theorem runClose_of_next {g g' : ClientGroup σ} {n : Nat} {s s' : CloseStage}
    (h : g.closeStep n s = .next s' g') : g.runClose n s = g'.runClose n s' := by
  rw [runClose]
  split
  · rename_i hdone
    rw [h] at hdone
    cases hdone
  · rename_i hnext
    rw [h] at hnext
    cases hnext
    rfl

theorem runClose_of_done {g g' : ClientGroup σ} {n : Nat} {s : CloseStage} {answer : Bool}
    (h : g.closeStep n s = .done answer g') : g.runClose n s = (answer, g') := by
  rw [runClose]
  split
  · rename_i hdone
    rw [h] at hdone
    cases hdone
    rfl
  · rename_i hnext
    rw [h] at hnext
    cases hnext

/-- Closes client `n`; says whether this call did it. -/
def close (g : ClientGroup σ) (n : Nat) : Bool × ClientGroup σ := g.runClose n (.gate false)

/-- Closes client `n` and its session in any case. -/
def forceClose (g : ClientGroup σ) (n : Nat) : ClientGroup σ := (g.runClose n (.gate true)).2

end ClientGroup

end PeerLink
