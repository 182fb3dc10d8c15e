import PeerLink.Pending.Callback

/-!
# A bench for pending sends

A bench is a desk together with what its user has put aside: callbacks that were refused or taken
away, under a name, and waiters that block until an operation ends. It takes one command at a
time and answers it.
-/

namespace PeerLink

/-- What can be asked of a bench. Operations are named by their handles. -/
inductive BenchCommand
  /-- A new operation. -/
  | create
  /-- A new operation that has ended. -/
  | createResolved (result : SendResult)
  /-- Another handle on the same operation, without its completer. -/
  | clone (handle : Nat)
  | isDone (handle : Nat)
  | hasCallback (handle : Nat)
  /-- The result, if there is one. -/
  | tryResult (handle : Nat)
  /-- The result; nobody waits for it here. -/
  | get (handle : Nat)
  | debugOperation (handle : Nat)
  | debugCompleter (handle : Nat)
  /-- Asks for a callback; it is put aside under the name if it is refused. -/
  | onComplete (handle : Nat) (name : String) (callback : Callback)
  /-- Takes the callback off and puts it aside under a name. -/
  | takeCallback (handle : Nat) (keepAs : String)
  /-- Runs a callback that was put aside. -/
  | call (name : String) (result : SendResult)
  /-- Uses the completer. -/
  | complete (handle : Nat) (result : SendResult)
  /-- Drops the completer unused. -/
  | drop (handle : Nat)
  /-- A waiter starts to wait. -/
  | wait (handle : Nat) (waiter : String)
  /-- Asks what a waiter got; it can be asked once. -/
  | join (waiter : String)

/-- The answer to a command. -/
inductive BenchReply
  | nothing
  | handle (n : Nat)
  | flag (b : Bool)
  | result (r : SendResult)
  | text (s : String)
  | wouldBlock
  | registered
  | refused
  | pending
  | unknown

/-- A desk and what was put aside. -/
structure Bench where
  desk : Desk := {}
  kept : List (String × Callback) := []
  waiters : List (String × Nat) := []

namespace Bench

/-- The list with the value under a name replaced or added. -/
private def assign {α : Type} (xs : List (String × α)) (name : String) (value : α) :
    List (String × α) :=
  (name, value) :: xs.filter (·.1 != name)

/-- The bench with one more handle; the answer is its number. -/
private def hold (b : Bench) (board : Board Callback) (h : Handle) : BenchReply × Bench :=
  (.handle b.desk.handles.size,
    { b with desk := { b.desk with board := board, handles := b.desk.handles.push h } })

/-- The operation behind a handle. -/
private def operation? (b : Bench) (handle : Nat) : Option (Operation Callback) :=
  b.desk.board.operation? (b.desk.operation handle)

/-- Uses the completer of a handle and runs the callback. -/
def complete (b : Bench) (handle : Nat) (result : SendResult) : Option Bool × Bench :=
  match b.desk.useCompleter handle result with
  | (.usedUp, desk) => (none, { b with desk := desk })
  | (.late, desk) => (some false, { b with desk := desk })
  | (.recorded callback, desk) =>
    (some true,
      { b with desk := desk.run ((callback.map fun c => c.tasks result).getD []) })

/-- Answers a command. -/
def perform (b : Bench) : BenchCommand → BenchReply × Bench
  | .create => b.hold (b.desk.board.push .pending) ⟨b.desk.board.size, true⟩
  | .createResolved r => b.hold (b.desk.board.push (.resolved r)) ⟨b.desk.board.size, true⟩
  | .clone h => b.hold b.desk.board ⟨b.desk.operation h, false⟩
  | .isDone h => (.flag (b.desk.board.isDone (b.desk.operation h)), b)
  | .hasCallback h => (.flag (b.desk.board.hasCallback (b.desk.operation h)), b)
  | .tryResult h =>
    (match b.desk.board.result? (b.desk.operation h) with
      | none => .nothing
      | some r => .result r, b)
  | .get h =>
    (match b.desk.board.result? (b.desk.operation h) with
      | none => .wouldBlock
      | some r => .result r, b)
  | .debugOperation h =>
    (match b.operation? h with
      | none => .nothing
      | some o => .text o.debugText, b)
  | .debugCompleter h =>
    (match (b.operation? h).bind Operation.completerText? with
      | some text => if b.desk.isOwner h then .text text else .nothing
      | none => .nothing, b)
  | .onComplete h name callback =>
    match b.desk.board.onComplete (b.desk.operation h) callback with
    | (true, board) => (.registered, { b with desk := { b.desk with board := board } })
    | (false, _) => (.refused, { b with kept := assign b.kept name callback })
  | .takeCallback h keepAs =>
    match b.desk.board.takeCallback (b.desk.operation h) with
    | (none, _) => (.flag false, b)
    | (some callback, board) =>
      (.flag true, { b with
        desk := { b.desk with board := board }
        kept := assign b.kept keepAs callback })
  | .call name result =>
    match b.kept.lookup name with
    | none => (.flag false, b)
    | some callback =>
      (.flag true, { b with
        desk := b.desk.run (callback.tasks result)
        kept := b.kept.filter (·.1 != name) })
  | .complete h result =>
    match b.complete h result with
    | (none, b) => (.nothing, b)
    | (some answer, b) => (.flag answer, b)
  | .drop h =>
    match b.complete h (.error .canceled) with
    | (answer, b) => (.flag answer.isSome, b)
  | .wait h waiter => (.nothing, { b with waiters := assign b.waiters waiter h })
  | .join waiter =>
    match b.waiters.lookup waiter with
    | none => (.unknown, b)
    | some h =>
      match b.desk.board.result? (b.desk.operation h) with
      | none => (.pending, b)
      | some r => (.result r, { b with waiters := b.waiters.filter (·.1 != waiter) })

/-- Drops the completers that are left, in the order of their handles. -/
def finish (b : Bench) : Bench :=
  (List.range b.desk.handles.size).foldl (fun b h => (b.complete h (.error .canceled)).2) b

/-- The results behind all handles. -/
def results (b : Bench) : List (Option SendResult) :=
  b.desk.handles.toList.map fun h => b.desk.board.result? h.operation

/-- The notes left since `count` notes had been left. -/
def notesSince (b : Bench) (count : Nat) : List Note :=
  (b.desk.notes.take (b.desk.notes.length - count)).reverse

end Bench

end PeerLink
