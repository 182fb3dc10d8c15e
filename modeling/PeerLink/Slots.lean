/-!
# Slots of a session

A session has two places where others may leave a value: the client it belongs to and the last
error. What is left there may be of any of a few kinds, and a reader says which kind it expects.

## Main results

* `Slots.get?_attach` — a slot holds what was attached last, and attaching to one slot leaves the
  other alone;
* `Slots.get?_remove` — removing empties exactly one slot.
-/

namespace PeerLink

/-- The identity of a client.  No two clients have the same; texts show it as a number. -/
structure ClientId where
  number : Nat
  deriving DecidableEq, Repr, Inhabited

instance : ToString ClientId := ⟨fun id => s!"#{id.number}"⟩

/-- The places of a session. -/
inductive SlotKey
  /-- The client that uses the session. -/
  | client
  /-- Why the session broke. -/
  | lastError
  deriving DecidableEq, Repr

/-- A value in a slot. -/
inductive SlotValue
  | text (s : String)
  | number (n : Nat)
  | flag (b : Bool)
  | owner (id : ClientId)
  deriving DecidableEq, Repr

namespace SlotValue

/-- The value, if it is a text. -/
def text? : SlotValue → Option String
  | text s => some s
  | _ => none

/-- The value, if it is a number. -/
def number? : SlotValue → Option Nat
  | number n => some n
  | _ => none

/-- The value, if it is a truth value. -/
def flag? : SlotValue → Option Bool
  | flag b => some b
  | _ => none

/-- The value, if it is a client. -/
def owner? : SlotValue → Option ClientId
  | owner id => some id
  | _ => none

end SlotValue

/-- What the slots of a session hold. -/
structure Slots where
  client : Option SlotValue := none
  lastError : Option SlotValue := none
  deriving DecidableEq, Repr, Inhabited

namespace Slots

/-- The value in a slot. -/
def get? (s : Slots) : SlotKey → Option SlotValue
  | .client => s.client
  | .lastError => s.lastError

/-- The slots with one of them set or emptied. -/
def put (s : Slots) (key : SlotKey) (value : Option SlotValue) : Slots :=
  match key with
  | .client => { s with client := value }
  | .lastError => { s with lastError := value }

/-- Leaves a value in a slot. -/
def attach (s : Slots) (key : SlotKey) (value : SlotValue) : Slots := s.put key (some value)

/-- Empties a slot. -/
def remove (s : Slots) (key : SlotKey) : Slots := s.put key none

/-- The slots in use, by name. -/
def keys (s : Slots) : List SlotKey :=
  [.client, .lastError].filter fun k => (s.get? k).isSome

theorem get?_put (s : Slots) (k k' : SlotKey) (v : Option SlotValue) :
    (s.put k v).get? k' = if k' = k then v else s.get? k' := by
  cases k <;> cases k' <;> rfl

theorem get?_attach (s : Slots) (k k' : SlotKey) (v : SlotValue) :
    (s.attach k v).get? k' = if k' = k then some v else s.get? k' :=
  get?_put s k k' (some v)

theorem get?_remove (s : Slots) (k k' : SlotKey) :
    (s.remove k).get? k' = if k' = k then none else s.get? k' :=
  get?_put s k k' none

end Slots

end PeerLink
