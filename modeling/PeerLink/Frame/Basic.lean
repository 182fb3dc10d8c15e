import PeerLink.Bytes
import PeerLink.Fault.Basic

/-!
# Frames

On the wire a message is a frame: four bytes that count the bytes after them, two bytes of type
code, and the body.

```text
+--------+------+---------------+
| length | type | body          |
| 4      | 2    | length - 2    |
+--------+------+---------------+
```

## Main results

* `Frame.encode_eq_ok_iff` — a frame can be written exactly when four bytes can count it, and it
  is then the three fields in order;
* `Frame.length_encode` — a written frame is six bytes longer than its body.
-/

namespace PeerLink

/-- A typed message body. -/
structure Frame where
  /-- Says what kind of message the body is. -/
  typeCode : UInt16
  body : Bytes
  deriving DecidableEq, Repr, Inhabited

namespace Frame

/-- The most bytes of a whole frame unless a session is set up otherwise: 16 MiB. -/
def defaultLimit : Nat := 16 * 1024 * 1024

/-- The largest number the length field can hold; no frame limit goes beyond it. -/
def wireLimit : Nat := UInt32.size - 1

/-- Length field and type code. -/
def headerSize : Nat := 4 + 2

/-- The limit that holds when `limit` is asked for. -/
def effectiveLimit (limit : Nat) : Nat := min limit wireLimit

/-- The bytes of a whole frame. -/
def size (f : Frame) : Nat := headerSize + f.body.length

/-- The length field for a frame of `total` bytes, which counts what follows it. -/
def lengthField (total : Nat) : Except TransportError Bytes :=
  if total - 4 ≤ wireLimit then .ok (Bytes.ofNat 4 (total - 4))
  else .error (.frameTooLarge total wireLimit)

/-- The frame on the wire. -/
def encode (f : Frame) : Except TransportError Bytes :=
  (lengthField f.size).map fun len => len ++ Bytes.ofNat 2 f.typeCode.toNat ++ f.body

theorem encode_eq_ok_iff {f : Frame} {wire : Bytes} :
    f.encode = .ok wire ↔ f.body.length + 2 ≤ wireLimit ∧
      wire = Bytes.ofNat 4 (f.body.length + 2) ++ Bytes.ofNat 2 f.typeCode.toNat ++ f.body := by
  have hsize : f.size - 4 = f.body.length + 2 := by simp only [size, headerSize]; omega
  unfold encode lengthField
  rw [hsize]
  by_cases h : f.body.length + 2 ≤ wireLimit
  · simp [h, Except.map, eq_comm]
  · simp [h, Except.map]

theorem length_encode {f : Frame} {wire : Bytes} (h : f.encode = .ok wire) :
    wire.length = f.size := by
  obtain ⟨-, rfl⟩ := encode_eq_ok_iff.1 h
  simp [size, headerSize]
  omega

end Frame

end PeerLink
