import PeerLink.Frame.Decoder

/-!
# Decoding in machine words

On a machine, lengths and limits are words of some width.  Adding two words drops what
does not fit, unless the addition is told to stop at the largest word, and taking more
bytes off a buffer than there are aborts the caller.

`WordDecoder.decode` is the decoder in such words, with the buffer operations that it
uses.  It is made for widths in which the length field of a frame fits.

## Main results

* `WordDecoder.toNat_saturatingAdd` — saturating addition is addition up to the largest
  word.
* `WordDecoder.advance_of_le`, `WordDecoder.splitTo_of_le` — what is there can be taken.
-/

namespace PeerLink

/-- A decoder of frames with its limit in a word. -/
structure WordDecoder (width : Nat) where
  maxFrameSize : BitVec width
  deriving DecidableEq, Repr

namespace WordDecoder

variable {width : Nat}

/-- A decoder with a limit that the length field can hold. -/
def withLimit (limit : BitVec width) : WordDecoder width :=
  let wire := BitVec.ofNat width Frame.wireLimit
  ⟨if wire < limit then wire else limit⟩

/-- Addition that stops at the largest word. -/
def saturatingAdd (a b : BitVec width) : BitVec width :=
  if a.uaddOverflow b then .allOnes width else a + b

/-! ## Taking bytes off a buffer

Nothing comes back if there are not enough of them. -/

/-- Drops bytes from the front. -/
def advance (buffer : Bytes) (count : BitVec width) : Option Bytes :=
  if count.toNat ≤ buffer.length then some (buffer.drop count.toNat) else none

/-- Splits bytes off the front. -/
def splitTo (buffer : Bytes) (count : BitVec width) : Option (Bytes × Bytes) :=
  if count.toNat ≤ buffer.length then
    some (buffer.take count.toNat, buffer.drop count.toNat)
  else none

/-- Takes a number of two bytes off the front. -/
def getU16 : Bytes → Option (UInt16 × Bytes)
  | high :: low :: rest => some (UInt16.ofNat (Bytes.toNat [high, low]), rest)
  | _ => none

/-- Takes off the length field and the frame of so many bytes behind it. -/
def takeFrame (buffer : Bytes) (announced : BitVec width) : Option Decoded := do
  let tail ← advance buffer (4 : BitVec width)
  let (content, rest) ← splitTo tail announced
  let (typeCode, body) ← getU16 content
  return .frame ⟨typeCode, body⟩ rest

/-- Looks for a frame at the front of a buffer; nothing if the caller is aborted. -/
def decode (d : WordDecoder width) (buffer : Bytes) : Option Decoded :=
  let length := BitVec.ofNat width buffer.length
  if length < 4 then some .incomplete
  else
    let announced := BitVec.ofNat width (Bytes.toNat (buffer.take 4))
    let total := saturatingAdd announced 4
    if d.maxFrameSize < total then
      some (.failed (.frameTooLarge total.toNat d.maxFrameSize.toNat))
    else if announced < 2 then some (.failed .malformed)
    else if length < 4 + announced then some .incomplete
    else takeFrame buffer announced

/-! ## What the operations do -/

theorem toNat_saturatingAdd (a b : BitVec width) :
    (saturatingAdd a b).toNat = min (a.toNat + b.toNat) (BitVec.allOnes width).toNat := by
  have ha := a.isLt
  have hb := b.isLt
  unfold saturatingAdd BitVec.uaddOverflow
  rw [BitVec.toNat_allOnes]
  split
  · rename_i h
    have hover := of_decide_eq_true h
    rw [BitVec.toNat_allOnes]
    omega
  · rename_i h
    have hfits := Nat.lt_of_not_le (mt decide_eq_true h)
    rw [BitVec.toNat_add_of_lt hfits]
    omega

theorem advance_of_le {buffer : Bytes} {count : BitVec width}
    (h : count.toNat ≤ buffer.length) : advance buffer count = some (buffer.drop count.toNat) :=
  if_pos h

theorem splitTo_of_le {buffer : Bytes} {count : BitVec width}
    (h : count.toNat ≤ buffer.length) :
    splitTo buffer count = some (buffer.take count.toNat, buffer.drop count.toNat) :=
  if_pos h

theorem getU16_of_two_le {buffer : Bytes} (h : 2 ≤ buffer.length) :
    getU16 buffer = some (UInt16.ofNat (Bytes.toNat (buffer.take 2)), buffer.drop 2) := by
  match buffer, h with
  | high :: low :: rest, _ => rfl

end WordDecoder

end PeerLink
