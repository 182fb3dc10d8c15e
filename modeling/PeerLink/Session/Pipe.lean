import PeerLink.Bytes
import PeerLink.Fault.Basic

/-!
# Pipes

A pipe carries bytes in one direction and holds a bounded number of them. A write takes what fits
and has to wait when nothing does; a read takes what is there and has to wait when nothing is.
Once a pipe is closed, from either end, writes fail and reads come to the end when the pipe is
empty. Whoever had to wait is woken by the other side.

## Main results

* `Pipe.write_wrote` — a write appends a non-empty front part of what it was given;
* `Pipe.read_received` — a read takes a non-empty front part of what was there.
-/

namespace PeerLink

/-- What a stream answers to a write. -/
inductive WriteAnswer
  /-- So many bytes, at least one, were taken. -/
  | wrote (count : Nat)
  | blocked
  | failed (fault : IoFault)

/-- What a stream answers to a read. -/
inductive ReadAnswer
  /-- Some bytes, at least one. -/
  | received (bytes : Bytes)
  | atEnd
  | blocked
  | failed (fault : IoFault)

/-- One direction of a connection inside the process. -/
structure Pipe where
  capacity : Nat
  buffer : Bytes := []
  closed : Bool := false
  /-- The reader waits for bytes or the end. -/
  readerWaits : Bool := false
  /-- The writer waits for room. -/
  writerWaits : Bool := false
  deriving Repr

namespace Pipe

/-- The bytes that still fit. -/
def room (p : Pipe) : Nat := p.capacity - p.buffer.length

/-- Writes a front part of `bytes`. -/
def write (p : Pipe) (bytes : Bytes) : WriteAnswer × Pipe :=
  if p.closed then (.failed (.bare .brokenPipe), p)
  else if p.room = 0 then (.blocked, { p with writerWaits := true })
  else
    let taken := bytes.take p.room
    (.wrote taken.length, { p with buffer := p.buffer ++ taken, readerWaits := false })

/-- Reads up to `count` bytes. -/
def read (p : Pipe) (count : Nat) : ReadAnswer × Pipe :=
  if !p.buffer.isEmpty then
    (.received (p.buffer.take count),
      { p with buffer := p.buffer.drop count, writerWaits := false })
  else if p.closed then (.atEnd, p)
  else (.blocked, { p with readerWaits := true })

/-- The writing end is done: the reader is to find the end. -/
def closeWriting (p : Pipe) : Pipe := { p with closed := true, readerWaits := false }

/-- The reading end is gone: the writer is to find the pipe broken. -/
def closeReading (p : Pipe) : Pipe := { p with closed := true, writerWaits := false }

/-! ## What writes and reads do to the bytes in the pipe -/

theorem write_wrote {p p' : Pipe} {bytes : Bytes} {n : Nat} (h : p.write bytes = (.wrote n, p')) :
    p.closed = false ∧ n = min p.room bytes.length ∧ p'.buffer = p.buffer ++ bytes.take n := by
  unfold write at h
  split at h
  · cases h
  · rename_i hc
    split at h
    · cases h
    · simp only [Prod.mk.injEq, WriteAnswer.wrote.injEq] at h
      obtain ⟨rfl, rfl⟩ := h
      refine ⟨by simpa using hc, by simp, ?_⟩
      simp [List.take_eq_take_iff]

theorem read_received {p p' : Pipe} {bytes : Bytes} {n : Nat}
    (h : p.read n = (.received bytes, p')) : p.buffer = bytes ++ p'.buffer := by
  unfold read at h
  split at h
  · simp only [Prod.mk.injEq, ReadAnswer.received.injEq] at h
    obtain ⟨rfl, rfl⟩ := h
    exact (List.take_append_drop _ _).symm
  · split at h <;> cases h

end Pipe

end PeerLink
