import PeerLink.Pending.Board

/-!
# Callbacks that act on operations

What a callback does when it runs may concern any operation: it may look at one, ask to be called
for one, take a callback away, or use a completer, which runs the next callback there and then.
Here a callback is the list of such actions. A desk holds operations through handles; several
handles may share an operation, and one of them owns the completer. Running a callback is running
a stack of tasks on the desk, so that a nested callback ends before the action that set it off
has its answer.

## Main results

* `Desk.step_decreases` — every task either uses up a completer or leaves the stack shorter, so
  every run ends.
-/

namespace PeerLink

mutual

/-- Something a running callback does with the operation behind a handle. -/
inductive Action
  /-- Looks at it and notes what it sees. -/
  | observe (handle : Nat)
  /-- Asks to have a callback run when it ends. -/
  | register (handle : Nat) (callback : Callback)
  /-- Takes the callback off it. -/
  | take (handle : Nat)
  /-- Uses its completer. -/
  | complete (handle : Nat) (result : SendResult)

/-- A named list of actions. A callback without a name leaves no note of its own. -/
inductive Callback
  | mk (name : Option String) (actions : List Action)

end

/-- What a callback leaves behind. -/
inductive Note
  /-- It was run with a result. -/
  | ran (callback : String) (result : SendResult)
  /-- It looked at an operation. -/
  | saw (callback : String) (done hasCallback : Bool) (result : Option SendResult)
  /-- It asked to have a callback run. -/
  | registered (callback : String) (answer : Bool)
  /-- It took a callback away. -/
  | took (callback : String) (answer : Bool)
  /-- It used a completer; no answer if that had been used up. -/
  | completed (callback : String) (answer : Option Bool)

/-- What is still to be done while callbacks run. -/
inductive Task
  | act (caller : String) (action : Action)
  | write (note : Note)

namespace Callback

/-- The name of a callback. -/
def name : Callback → Option String
  | mk name _ => name

/-- What a callback does. -/
def actions : Callback → List Action
  | mk _ actions => actions

/-- The tasks of running a callback with a result. -/
def tasks (c : Callback) (result : SendResult) : List Task :=
  match c.name with
  | none => c.actions.map (.act "")
  | some name => .write (.ran name result) :: c.actions.map (.act name)

end Callback

/-- One way to hold an operation. -/
structure Handle where
  operation : Nat
  /-- The completer belongs to this handle. -/
  owner : Bool
  deriving DecidableEq, Repr

/-- Operations, the handles on them, and the notes that callbacks left, latest first. -/
structure Desk where
  board : Board Callback := .empty
  handles : Array Handle := #[]
  notes : List Note := []

namespace Desk

/-- The number of the operation behind a handle; a missing handle has none. -/
def operation (d : Desk) (handle : Nat) : Nat :=
  match d.handles[handle]? with
  | some h => h.operation
  | none => d.board.size

/-- The handle owns a completer. -/
def isOwner (d : Desk) (handle : Nat) : Bool :=
  match d.handles[handle]? with
  | some h => h.owner
  | none => false

/-- The desk with one more note. -/
def write (d : Desk) (note : Note) : Desk := { d with notes := note :: d.notes }

/-- Uses the completer of a handle; the answer, and the callback that is to be run first. -/
def useCompleter (d : Desk) (handle : Nat) (result : SendResult) :
    Completion Callback × Desk :=
  if d.isOwner handle then
    let (answer, board) := d.board.complete (d.operation handle) result
    (answer, { d with board := board })
  else (.usedUp, d)

/-- Does one task; what it sets off has to be done before anything else. -/
def step (d : Desk) : Task → List Task × Desk
  | .write note => ([], d.write note)
  | .act caller (.observe handle) =>
    let n := d.operation handle
    ([], d.write (.saw caller (d.board.isDone n) (d.board.hasCallback n) (d.board.result? n)))
  | .act caller (.register handle callback) =>
    let (answer, board) := d.board.onComplete (d.operation handle) callback
    ([], { d with board := board }.write (.registered caller answer))
  | .act caller (.take handle) =>
    let (taken, board) := d.board.takeCallback (d.operation handle)
    ([], { d with board := board }.write (.took caller taken.isSome))
  | .act caller (.complete handle result) =>
    match d.useCompleter handle result with
    | (.usedUp, d') => ([], d'.write (.completed caller none))
    | (.late, d') => ([], d'.write (.completed caller (some false)))
    | (.recorded callback, d') =>
      ((callback.map fun c => c.tasks result).getD [] ++
        [.write (.completed caller (some true))], d')

theorem step_decreases (d : Desk) (t : Task) :
    (d.step t).2.board.openCount < d.board.openCount ∨
      (d.step t).2.board.openCount = d.board.openCount ∧ (d.step t).1 = [] := by
  match t with
  | .write note => exact .inr ⟨rfl, rfl⟩
  | .act caller (.observe handle) => exact .inr ⟨rfl, rfl⟩
  | .act caller (.register handle callback) =>
    exact .inr ⟨Board.openCount_onComplete _ _ _, rfl⟩
  | .act caller (.take handle) => exact .inr ⟨Board.openCount_takeCallback _ _, rfl⟩
  | .act caller (.complete handle result) =>
    unfold step useCompleter
    by_cases ho : d.isOwner handle = true
    · simp only [ho, if_true]
      cases hc : d.board.complete (d.operation handle) result with
      | mk answer board =>
        cases answer with
        | usedUp => exact .inr ⟨by rw [Board.complete_usedUp hc]; rfl, rfl⟩
        | late => exact .inl (Board.openCount_complete_lt hc nofun)
        | recorded callback => exact .inl (Board.openCount_complete_lt hc nofun)
    · simp only [ho]
      exact .inr ⟨rfl, rfl⟩

/-- Does all tasks of a stack. -/
def run (d : Desk) : List Task → Desk
  | [] => d
  | t :: rest => run (d.step t).2 ((d.step t).1 ++ rest)
termination_by tasks => (d.board.openCount, tasks.length)
decreasing_by
  rcases d.step_decreases t with h | ⟨h, ht⟩
  · exact Prod.Lex.left _ _ h
  · rw [h, ht]
    exact Prod.Lex.right _ (by simp)

end Desk

end PeerLink
