import PeerLink.Pending.Board

/-!
# Waiting for an operation

Threads and tasks wait for one operation, through any number of handles, until it has a result. A
`Vigil` is the operation on its board, the lock that guards it, everybody who waits for it, and
whoever uses its completer, each of them between two of his steps.

A thread takes the lock and looks. If there is no result it falls asleep and gives the lock back,
both in one step, and begins anew when it wakes up. A task has no lock while it is suspended: it
enables a notification, looks, and is suspended until the notification is delivered. Whoever uses
the completer stores the result while he has the lock, and only then, without it, wakes the threads
that sleep, notifies the tasks, and runs the callback.

Threads may wake up and tasks may go on without a reason. A notification that is made but not
enabled may be delivered with the others or not.

## Main results

* `Vigil.exec_thread_of_result`, `Vigil.exec_resolve_of_recorded`: nobody who is not disturbed
  notices that he does several steps.
-/

namespace PeerLink

/-- Who has the lock of an operation. -/
inductive LockHolder
  | thread (i : Nat)
  | task (i : Nat)
  | resolver
  /-- Somebody who looks, passes a callback or takes one off. -/
  | visitor
  deriving DecidableEq, Repr

/-- What a waiting thread does next. -/
inductive ThreadStage
  /-- Take the lock. -/
  | locking
  /-- See whether there is a result; if so, give the lock back and return it. -/
  | looking
  /-- Give the lock back and fall asleep. -/
  | parking
  /-- Sleep until a wake-up is delivered. -/
  | parked (woken : Bool)
  | returned (result : SendResult)

/-- What a waiting task does next. -/
inductive TaskStage
  /-- Make a notification. -/
  | starting
  /-- Enable the notification. -/
  | enabling (notified : Bool)
  /-- Take the lock. -/
  | locking (notified : Bool)
  /-- See whether there is a result, and give the lock back. -/
  | looking (notified : Bool)
  /-- Return the result it saw, or be suspended. -/
  | deciding (seen : Option SendResult) (notified : Bool)
  /-- Stay suspended until the notification is delivered. -/
  | suspended (notified : Bool)
  | returned (result : SendResult)
  /-- Nothing: it was dropped while it was suspended. -/
  | dropped

/-- What whoever uses the completer does next. -/
inductive ResolverStage (κ : Type)
  /-- Nothing: the completer has not been used. -/
  | idle
  /-- Take the lock. -/
  | locking (result : SendResult)
  /-- Store the result, take the callback off, and give the lock back. -/
  | storing (result : SendResult)
  /-- Wake the threads that sleep. -/
  | waking (result : SendResult) (callback : Option κ)
  /-- Notify the tasks. -/
  | notifying (result : SendResult) (callback : Option κ)
  /-- Run the callback. -/
  | calling (result : SendResult) (callback : Option κ)
  /-- Nothing more. -/
  | answered (recorded : Bool)

/-- What somebody else does to the operation while he has its lock. -/
inductive VisitorCall (κ : Type)
  | look
  | pass (callback : κ)
  /-- Takes the callback off. -/
  | remove

/-- A wake-up for every thread reaches a thread that sleeps. -/
def ThreadStage.wake : ThreadStage → ThreadStage
  | parked _ => parked true
  | stage => stage

/-- A notification for every task reaches a task whose notification is enabled. One that is only
made is reached if `early` says so. -/
def TaskStage.notify (early : Bool) : TaskStage → TaskStage
  | enabling notified => enabling (notified || early)
  | locking _ => locking true
  | looking _ => looking true
  | deciding seen _ => deciding seen true
  | suspended _ => suspended true
  | stage => stage

/-- The threads have been woken. -/
def ResolverStage.hasWoken {κ : Type} : ResolverStage κ → Bool
  | notifying .. | calling .. | answered _ => true
  | _ => false

/-- The tasks have been notified too. -/
def ResolverStage.hasNotified {κ : Type} : ResolverStage κ → Bool
  | calling .. | answered _ => true
  | _ => false

/-- An operation and everybody who waits for it. -/
structure Vigil (κ : Type) where
  board : Board κ
  operation : Nat
  lock : Option LockHolder := none
  /-- Every thread that has come to wait, by its number. -/
  threads : List ThreadStage := []
  /-- Every task that has come to wait, by its number. -/
  tasks : List TaskStage := []
  resolver : ResolverStage κ := .idle

/-- A step of somebody. -/
inductive VigilEvent (κ : Type)
  /-- One more thread begins to wait. -/
  | threadComes
  /-- One more task begins to wait. -/
  | taskComes
  /-- A thread does its next step. -/
  | thread (i : Nat)
  /-- A task does its next step. -/
  | task (i : Nat)
  /-- A thread wakes up without a reason. -/
  | stir (i : Nat)
  /-- A suspended task goes on without a reason. -/
  | poll (i : Nat)
  /-- A suspended task is dropped. -/
  | drop (i : Nat)
  /-- Somebody begins to use the completer. -/
  | use (result : SendResult)
  /-- Whoever uses the completer does his next step; a notification of the tasks reaches those in
  `early` even if theirs is not enabled. -/
  | resolve (early : List Nat)
  /-- Somebody else takes the lock. -/
  | visit
  /-- Somebody else does what he came for, and gives the lock back. -/
  | leave (call : VisitorCall κ)

namespace Vigil

variable {κ : Type}

/-- The vigil for an operation of a board, before anybody waits. -/
def start (b : Board κ) (n : Nat) : Vigil κ :=
  { board := b, operation := n, resolver := if b.isOpen n then .idle else .answered true }

/-- The result that has been recorded. -/
def result? (v : Vigil κ) : Option SendResult := v.board.result? v.operation

/-- Takes the lock, if nobody has it. -/
def takeLock (v : Vigil κ) (who : LockHolder) : Option (Vigil κ) :=
  if v.lock = none then some { v with lock := some who } else none

/-- The vigil with the stage of a thread replaced. -/
def setThread (v : Vigil κ) (i : Nat) (stage : ThreadStage) : Vigil κ :=
  { v with threads := v.threads.set i stage }

/-- The vigil with the stage of a task replaced. -/
def setTask (v : Vigil κ) (i : Nat) (stage : TaskStage) : Vigil κ :=
  { v with tasks := v.tasks.set i stage }

/-- A thread does its next step; nothing if it has to wait. -/
def threadStep (v : Vigil κ) (i : Nat) : Option (Vigil κ) :=
  match v.threads[i]? with
  | some .locking => (v.takeLock (.thread i)).map fun v => v.setThread i .looking
  | some .looking =>
    match v.result? with
    | some r => some { v.setThread i (.returned r) with lock := none }
    | none => some (v.setThread i .parking)
  | some .parking => some { v.setThread i (.parked false) with lock := none }
  | some (.parked true) => some (v.setThread i .locking)
  | _ => none

/-- A task does its next step; nothing if it has to wait. -/
def taskStep (v : Vigil κ) (i : Nat) : Option (Vigil κ) :=
  match v.tasks[i]? with
  | some .starting => some (v.setTask i (.enabling false))
  | some (.enabling notified) => some (v.setTask i (.locking notified))
  | some (.locking notified) =>
    (v.takeLock (.task i)).map fun v => v.setTask i (.looking notified)
  | some (.looking notified) =>
    some { v.setTask i (.deciding v.result? notified) with lock := none }
  | some (.deciding (some r) _) => some (v.setTask i (.returned r))
  | some (.deciding none notified) => some (v.setTask i (.suspended notified))
  | some (.suspended true) => some (v.setTask i .starting)
  | _ => none

/-- Whoever uses the completer does his next step; nothing if he has to wait. -/
def resolverStep (v : Vigil κ) (early : List Nat) : Option (Vigil κ) :=
  match v.resolver with
  | .locking r => (v.takeLock .resolver).map fun v => { v with resolver := .storing r }
  | .storing r =>
    match v.board.complete v.operation r with
    | (.recorded callback, board) =>
      some { v with board := board, lock := none, resolver := .waking r callback }
    | (_, board) => some { v with board := board, lock := none, resolver := .answered false }
  | .waking r callback =>
    some { v with
      threads := v.threads.map ThreadStage.wake
      resolver := .notifying r callback }
  | .notifying r callback =>
    some { v with
      tasks := v.tasks.mapIdx fun i stage => stage.notify (early.contains i)
      resolver := .calling r callback }
  | .calling _ _ => some { v with resolver := .answered true }
  | _ => none

/-- What somebody else does to the board. -/
def visited (v : Vigil κ) : VisitorCall κ → Board κ
  | .look => v.board
  | .pass callback => (v.board.onComplete v.operation callback).2
  | .remove => (v.board.takeCallback v.operation).2

/-- Does one step; nothing if it is not possible now. -/
def step? (v : Vigil κ) : VigilEvent κ → Option (Vigil κ)
  | .threadComes => some { v with threads := v.threads ++ [.locking] }
  | .taskComes => some { v with tasks := v.tasks ++ [.starting] }
  | .thread i => v.threadStep i
  | .task i => v.taskStep i
  | .stir i =>
    match v.threads[i]? with
    | some (.parked _) => some (v.setThread i (.parked true))
    | _ => none
  | .poll i =>
    match v.tasks[i]? with
    | some (.suspended _) => some (v.setTask i (.suspended true))
    | _ => none
  | .drop i =>
    match v.tasks[i]? with
    | some (.suspended _) => some (v.setTask i .dropped)
    | _ => none
  | .use r =>
    match v.resolver with
    | .idle => some { v with resolver := .locking r }
    | _ => none
  | .resolve early => v.resolverStep early
  | .visit => v.takeLock .visitor
  | .leave call =>
    if v.lock = some .visitor then some { v with board := v.visited call, lock := none } else none

/-- Does steps one after the other; nothing if one of them is not possible. -/
def exec (v : Vigil κ) (es : List (VigilEvent κ)) : Option (Vigil κ) := es.foldlM step? v

/-- A thread that nobody disturbs returns the result that is there. -/
theorem exec_thread_of_result {v : Vigil κ} {r : SendResult} (hl : v.lock = none)
    (hr : v.result? = some r) :
    v.exec [.threadComes, .thread v.threads.length, .thread v.threads.length] =
      some { v with threads := v.threads ++ [.returned r] } := by
  have hr' : v.board.result? v.operation = some r := hr
  simp [exec, step?, threadStep, takeLock, setThread, result?, hl, hr']

/-- If nobody disturbs whoever uses the completer, the board changes as in one step. -/
theorem exec_resolve_of_recorded {v : Vigil κ} {r : SendResult} {callback : Option κ}
    {board : Board κ} (hs : v.resolver = .idle) (hl : v.lock = none)
    (hc : v.board.complete v.operation r = (.recorded callback, board)) :
    v.exec [.use r, .resolve [], .resolve []] =
      some { v with board := board, resolver := .waking r callback } := by
  simp [exec, step?, resolverStep, takeLock, hs, hl, hc]

end Vigil

end PeerLink
