import PeerLink.Client.Gate
import PeerLink.Client.Host

/-!
# Clients of a session

A client is bound to one session and sends through it. Several clients may share a session; the
one bound last holds its client slot. A group is a session with all clients that were ever bound
to it, and the notes their acks have left.

## Main results

* `ClientGroup.client?_bindAs` — binding makes one new client, numbered after the others;
* `ClientGroup.client?_modify` — changing a client leaves the others alone.
-/

namespace PeerLink

/-- What a client keeps. -/
structure Client where
  id : ClientId
  gate : Gate := {}
  stats : Stats := {}
  deriving Repr, Inhabited

/-- A session with its clients. -/
structure ClientGroup (σ : Type) where
  session : σ
  clients : Array Client := #[]
  /-- What acks have left, latest first. -/
  notes : List AckNote := []

namespace ClientGroup

variable {σ : Type} [SessionHost σ]

/-- The client with a number. -/
def client? (g : ClientGroup σ) (n : Nat) : Option Client := g.clients[n]?

/-- The group with a client changed. -/
def modify (g : ClientGroup σ) (n : Nat) (f : Client → Client) : ClientGroup σ :=
  { g with clients := g.clients.modify n f }

/-- The group with its session's slots changed. -/
def modifySlots (g : ClientGroup σ) (f : Slots → Slots) : ClientGroup σ :=
  { g with session := SessionHost.setSlots g.session (f (SessionHost.slots g.session)) }

/-- Leaves an entry in the log of the session. -/
def log (g : ClientGroup σ) (level : Level) (message : String) : ClientGroup σ :=
  { g with session := SessionHost.log g.session { level := level, message := message } }

/-- Leaves a note. -/
def note (g : ClientGroup σ) (n : AckNote) : ClientGroup σ := { g with notes := n :: g.notes }

/-- The text that names a client. -/
def describe (g : ClientGroup σ) (c : Client) : String :=
  let peer := match SessionHost.remote? g.session with
    | none => ""
    | some address => s!", peer={address}"
  s!"SessionClient [id={c.id}, session={SessionHost.label g.session}{peer}, " ++
    s!"closed={c.gate.isClosed}]"

/-- The text that names the client with a number. -/
def describeAt (g : ClientGroup σ) (n : Nat) : String :=
  match g.client? n with
  | none => ""
  | some c => g.describe c

/-- No client has had this identity. -/
def isFresh (g : ClientGroup σ) (id : ClientId) : Bool := g.clients.toList.all (·.id != id)

/-- Makes a new client for the session, with an identity that it is given, and leaves the
identity in the client slot. -/
def bindAs (g : ClientGroup σ) (id : ClientId) : Nat × ClientGroup σ :=
  let n := g.clients.size
  let label := SessionHost.label g.session
  let taken := ((SessionHost.slots g.session).get? .client).isSome
  let g := g.modifySlots (·.attach .client (.owner id))
  let g := if taken then
      g.log .warn s!"Session {label} was already bound to a client; rebinding to {id}"
    else g
  let g := g.log .debug s!"Created client {id} for session {label}"
  (n, { g with clients := g.clients.push { id := id } })

/-- Makes a new client, where clients are numbered. -/
def bind (g : ClientGroup σ) : Nat × ClientGroup σ := g.bindAs ⟨g.clients.size⟩

/-- Which client holds the client slot. -/
inductive Holder
  | nobody
  | client (id : ClientId)
  /-- A value that is no client. -/
  | other
  deriving DecidableEq, Repr

/-- What the client slot of the session holds. -/
def holder (g : ClientGroup σ) : Holder :=
  match (SessionHost.slots g.session).get? .client with
  | none => .nobody
  | some (.owner id) => .client id
  | some _ => .other

omit [SessionHost σ] in
theorem client?_modify (g : ClientGroup σ) (n m : Nat) (f : Client → Client) :
    (g.modify n f).client? m = if m = n then (g.client? m).map f else g.client? m := by
  unfold modify client?
  rw [Array.getElem?_modify]
  by_cases hm : m = n
  · subst hm
    rfl
  · rw [if_neg (Ne.symm hm), if_neg hm]

omit [SessionHost σ] in
theorem isFresh_iff {g : ClientGroup σ} {id : ClientId} :
    g.isFresh id = true ↔ ∀ n c, g.client? n = some c → c.id ≠ id := by
  unfold isFresh client?
  rw [List.all_eq_true]
  constructor
  · intro h n c hc
    simpa using h c (Array.mem_toList_iff.2 (Array.mem_of_getElem? hc))
  · intro h c hc
    obtain ⟨n, hn⟩ := Array.mem_iff_getElem?.1 (Array.mem_toList_iff.1 hc)
    simpa using h n c hn

theorem clients_bindAs (g : ClientGroup σ) (id : ClientId) :
    (g.bindAs id).2.clients = g.clients.push { id := id } := by
  unfold bindAs
  dsimp only
  split <;> rfl

theorem client?_bindAs (g : ClientGroup σ) (id : ClientId) (m : Nat) :
    (g.bindAs id).2.client? m =
      if m = g.clients.size then some { id := id } else g.client? m := by
  unfold client?
  rw [clients_bindAs, Array.getElem?_push]

end ClientGroup

end PeerLink
