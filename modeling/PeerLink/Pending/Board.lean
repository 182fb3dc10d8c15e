import PeerLink.Fault.Basic

/-!
# Pending sends

A send that has been handed over is an operation: it is resolved once, through the one completer
that belongs to it, and may carry one callback for that moment. All operations of a session stand
on a board, numbered in order of creation.

## Main results

* `Board.onComplete_fst` — a callback is taken on exactly when the operation is unresolved and
  carries none.
-/

namespace PeerLink

/-- One send, as everyone who holds it sees it. -/
structure Operation (κ : Type) where
  /-- How it ended. -/
  result : Option SendResult
  /-- What is to be run when it ends. -/
  callback : Option κ
  /-- Its completer has not been used yet. -/
  completer : Bool
  deriving Repr

namespace Operation

/-- An operation that has just been handed over. -/
def pending {κ : Type} : Operation κ := ⟨none, none, true⟩

/-- An operation that ended as it was made. -/
def resolved {κ : Type} (result : SendResult) : Operation κ := ⟨some result, none, false⟩

/-- The operation as a nested term. -/
def debugText {κ : Type} (o : Operation κ) : String :=
  let result := match o.result with
    | none => "None"
    | some r => s!"Some({r.debugText})"
  s!"PendingSend \x7b result: {result}, has_callback: {o.callback.isSome} \x7d"

/-- The completer of the operation as a nested term; none once it has been used. -/
def completerText? {κ : Type} (o : Operation κ) : Option String :=
  if o.completer then some "SendCompleter \x7b resolved: false \x7d" else none

end Operation

/-- The operations of a session, in order of creation. -/
structure Board (κ : Type) where
  operations : Array (Operation κ)

/-- The answer of a completer. -/
inductive Completion (κ : Type)
  /-- It has been used before. -/
  | usedUp
  /-- The operation had a result already. -/
  | late
  /-- The result is recorded; the callback is to be run with it now. -/
  | recorded (callback : Option κ)

namespace Board

variable {κ : Type}

/-- A board without operations. -/
def empty : Board κ := ⟨#[]⟩

instance : Inhabited (Board κ) := ⟨empty⟩

/-- The number of operations, which is also the number of the next one. -/
def size (b : Board κ) : Nat := b.operations.size

/-- The operation with a number. -/
def operation? (b : Board κ) (n : Nat) : Option (Operation κ) := b.operations[n]?

/-- A new operation at the end of the board. -/
def push (b : Board κ) (o : Operation κ) : Board κ := ⟨b.operations.push o⟩

/-- The board with one operation replaced. -/
def set (b : Board κ) (n : Nat) (o : Operation κ) : Board κ :=
  ⟨b.operations.setIfInBounds n o⟩

/-- The result of an operation. -/
def result? (b : Board κ) (n : Nat) : Option SendResult :=
  (b.operation? n).bind Operation.result

/-- The operation has ended. -/
def isDone (b : Board κ) (n : Nat) : Bool := (b.result? n).isSome

/-- The operation carries a callback. -/
def hasCallback (b : Board κ) (n : Nat) : Bool :=
  ((b.operation? n).bind Operation.callback).isSome

/-- The completer of the operation can still be used. -/
def isOpen (b : Board κ) (n : Nat) : Bool :=
  ((b.operation? n).map Operation.completer).getD false

/-- The operations whose completers can still be used. -/
def openCount (b : Board κ) : Nat := b.operations.countP Operation.completer

/-- Asks to run a callback when the operation ends; says whether it was taken on. It is handed
back if the operation has ended or carries a callback already. -/
def onComplete (b : Board κ) (n : Nat) (callback : κ) : Bool × Board κ :=
  match b.operation? n with
  | none => (false, b)
  | some o =>
    if o.result.isSome || o.callback.isSome then (false, b)
    else (true, b.set n { o with callback := some callback })

/-- Takes the callback off an operation without running it. -/
def takeCallback (b : Board κ) (n : Nat) : Option κ × Board κ :=
  match b.operation? n with
  | none => (none, b)
  | some o => (o.callback, b.set n { o with callback := none })

/-- Uses the completer of an operation. The callback leaves the board together with it, before
it is run. -/
def complete (b : Board κ) (n : Nat) (result : SendResult) : Completion κ × Board κ :=
  match b.operation? n with
  | none => (.usedUp, b)
  | some o =>
    if o.completer then
      if o.result.isSome then (.late, b.set n { o with completer := false })
      else (.recorded o.callback, b.set n ⟨some result, none, false⟩)
    else (.usedUp, b)

/-! ## What each step does to the board -/

@[simp] theorem operation?_push (b : Board κ) (o : Operation κ) (n : Nat) :
    (b.push o).operation? n = if n = b.size then some o else b.operation? n := by
  exact Array.getElem?_push

theorem operation?_set (b : Board κ) (n m : Nat) (o : Operation κ) :
    (b.set n o).operation? m =
      if n = m then (b.operation? m).map fun _ => o else b.operation? m := by
  unfold operation? set
  by_cases h : n = m
  · subst h
    by_cases hn : n < b.operations.size <;> simp [hn]
  · simp [h]

@[simp] theorem size_set (b : Board κ) (n : Nat) (o : Operation κ) : (b.set n o).size = b.size := by
  simp [size, set]

theorem onComplete_fst (b : Board κ) (n : Nat) (callback : κ) :
    (b.onComplete n callback).1 = true ↔
      ∃ o, b.operation? n = some o ∧ o.result = none ∧ o.callback = none := by
  unfold onComplete
  cases b.operation? n with
  | none => simp
  | some o =>
    cases hr : o.result <;> cases hc : o.callback <;> simp [hr, hc]

/-- The callback that is to be run is the one the operation carried. -/
theorem callback_of_recorded {b b' : Board κ} {n : Nat} {result : SendResult}
    {callback : Option κ} (h : b.complete n result = (.recorded callback, b')) :
    (b.operation? n).bind Operation.callback = callback := by
  unfold complete at h
  split at h
  · cases h
  · rename_i o ho
    split at h
    · split at h <;> cases h
      rw [ho]
      rfl
    · cases h

/-! ## Using completers comes to an end -/

private theorem countP_setIfInBounds_eq (xs : Array (Operation κ)) (n : Nat) (o o' : Operation κ)
    (hn : xs[n]? = some o) (ho : o'.completer = o.completer) :
    (xs.setIfInBounds n o').countP Operation.completer = xs.countP Operation.completer := by
  obtain ⟨h, rfl⟩ := Array.getElem?_eq_some_iff.1 hn
  rw [Array.setIfInBounds, dif_pos h, Array.countP_set h, ho]
  by_cases hc : xs[n].completer = true
  · have hpos : 0 < xs.countP Operation.completer :=
      Array.countP_pos_iff.2 ⟨_, Array.getElem_mem h, hc⟩
    simp only [hc, if_true]
    omega
  · simp [hc]

@[simp] theorem openCount_onComplete (b : Board κ) (n : Nat) (callback : κ) :
    (b.onComplete n callback).2.openCount = b.openCount := by
  unfold onComplete
  cases ho : b.operation? n with
  | none => rfl
  | some o =>
    simp only
    split
    · rfl
    · exact countP_setIfInBounds_eq b.operations n o _ ho rfl

@[simp] theorem openCount_takeCallback (b : Board κ) (n : Nat) :
    (b.takeCallback n).2.openCount = b.openCount := by
  unfold takeCallback
  cases ho : b.operation? n with
  | none => rfl
  | some o => exact countP_setIfInBounds_eq b.operations n o _ ho rfl

private theorem countP_setIfInBounds_lt (xs : Array (Operation κ)) (n : Nat) (o o' : Operation κ)
    (hn : xs[n]? = some o) (ho : o.completer = true) (ho' : o'.completer = false) :
    (xs.setIfInBounds n o').countP Operation.completer < xs.countP Operation.completer := by
  obtain ⟨h, rfl⟩ := Array.getElem?_eq_some_iff.1 hn
  rw [Array.setIfInBounds, dif_pos h, Array.countP_set h]
  have hpos : 0 < xs.countP Operation.completer :=
    Array.countP_pos_iff.2 ⟨_, Array.getElem_mem h, ho⟩
  simp only [ho, ho', if_true, Bool.false_eq_true, if_false]
  omega

/-- A completer that answers has been used up by it. -/
theorem openCount_complete_lt {b b' : Board κ} {n : Nat} {result : SendResult}
    {answer : Completion κ} (h : b.complete n result = (answer, b')) (ha : answer ≠ .usedUp) :
    b'.openCount < b.openCount := by
  unfold complete at h
  split at h
  · cases h
    exact absurd rfl ha
  · rename_i o ho
    split at h
    · rename_i hc
      split at h <;> cases h <;> exact countP_setIfInBounds_lt b.operations n o _ ho hc rfl
    · cases h
      exact absurd rfl ha

theorem complete_usedUp {b b' : Board κ} {n : Nat} {result : SendResult}
    (h : b.complete n result = (.usedUp, b')) : b' = b := by
  unfold complete at h
  split at h
  · cases h
    rfl
  · split at h
    · split at h <;> cases h
    · cases h
      rfl

end Board

end PeerLink
