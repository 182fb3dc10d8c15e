import PeerLink.Bytes
import PeerLink.Frame.Decoder

/-!
# Read buffers

A session collects what it reads in a block of memory. Decoded frames are parts of the block, so
the block cannot be reused while one of them is still held, and what has been decoded leaves a gap
at its front. How many bytes the next read may bring is what is free behind the collected bytes;
when nothing is free, the block is grown, moved or replaced first.
-/

namespace PeerLink

/-- The bytes that have been read and not decoded, in their block. -/
structure ReadBuffer where
  unread : Bytes := []
  /-- The bytes of the block that were decoded before `unread`. -/
  front : Nat := 0
  /-- The size of the block. -/
  block : Nat
  /-- Tells blocks apart: the number of blocks that were replaced before. -/
  serial : Nat := 0
  /-- A replaced block is at least as large as this. -/
  floor : Nat
  deriving Repr, Inhabited

namespace ReadBuffer

/-- The least number of bytes a full block is enlarged by. -/
def increment : Nat := 64

/-- Blocks that replace a block of `size` are at least this large: the power of two below it, none
for a small block, and never more than 64 KiB. -/
def floorOf (size : Nat) : Nat :=
  if size < 1024 then 0 else min (1 <<< Nat.log2 size) 65536

/-- An empty buffer. -/
def ofSize (size : Nat) : ReadBuffer := { block := size, floor := floorOf size }

/-- The bytes that are free behind the collected ones. -/
def free (b : ReadBuffer) : Nat := b.block - b.front - b.unread.length

/-- Makes room for a read if there is none. `shared` says that frames of this block are held. -/
def reserve (b : ReadBuffer) (shared : Bool) : ReadBuffer :=
  let len := b.unread.length
  if 0 < b.free then b
  else if b.front = 0 then { b with block := max (2 * b.block) (len + increment) }
  else if shared then
    { b with block := max (len + increment) b.floor, front := 0, serial := b.serial + 1 }
  else if len ≤ b.front ∧ len + increment ≤ b.block then { b with front := 0 }
  else { b with block := max (2 * b.block) (b.front + len + increment) }

/-- The buffer with bytes that were read. -/
def append (b : ReadBuffer) (bytes : Bytes) : ReadBuffer :=
  { b with unread := b.unread ++ bytes }

/-- The buffer after a frame was decoded. -/
def advance (b : ReadBuffer) (rest : Bytes) : ReadBuffer :=
  { b with unread := rest, front := b.front + (b.unread.length - rest.length) }

/-- Making room leaves the collected bytes alone. -/
@[simp] theorem unread_reserve (b : ReadBuffer) (shared : Bool) :
    (b.reserve shared).unread = b.unread := by
  unfold reserve
  dsimp only
  repeat' split
  all_goals rfl

end ReadBuffer

end PeerLink
