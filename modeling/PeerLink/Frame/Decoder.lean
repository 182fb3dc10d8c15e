import PeerLink.Frame.Basic

/-!
# Decoding frames

The bytes of a session arrive in pieces of any size. The decoder looks at what has been collected
and takes the first frame off it, if the frame is all there. The length field alone decides
whether a frame is refused, so a frame that is too long is refused before it has arrived.

## Main results

* `Frame.length_lt_of_decode` — taking a frame leaves fewer bytes;
* `Frame.decode_encode_append` — a written frame is read back, whatever follows it;
* `Frame.decodeAll_eq` — taking all frames is taking one and going on with the rest.
-/

namespace PeerLink

/-- What the decoder finds at the front of the collected bytes. -/
inductive Decoded
  /-- Not a whole frame yet. -/
  | incomplete
  /-- A frame and the bytes behind it. -/
  | frame (f : Frame) (rest : Bytes)
  /-- A length field that no frame may have. -/
  | failed (error : TransportError)
  deriving DecidableEq, Repr

namespace Frame

/-- Looks for a frame at the front of `bytes`. Refused bytes stay where they are. -/
def decode (limit : Nat) (bytes : Bytes) : Decoded :=
  let field := bytes.take 4
  if field.length < 4 then .incomplete
  else
    let len := Bytes.toNat field
    if effectiveLimit limit < len + 4 then
      .failed (.frameTooLarge (len + 4) (effectiveLimit limit))
    else if len < 2 then .failed .malformed
    else
      let tail := bytes.drop 4
      let content := tail.take len
      if content.length < len then .incomplete
      else .frame ⟨UInt16.ofNat (Bytes.toNat (content.take 2)), content.drop 2⟩ (tail.drop len)

theorem length_lt_of_decode {limit : Nat} {bytes rest : Bytes} {f : Frame}
    (h : decode limit bytes = .frame f rest) : rest.length < bytes.length := by
  unfold decode at h
  simp only at h
  split at h
  · exact nomatch h
  split at h
  · exact nomatch h
  split at h
  · exact nomatch h
  split at h
  · exact nomatch h
  · rename_i h4 _ _ _
    obtain ⟨-, rfl⟩ := Decoded.frame.inj h
    simp only [List.length_take] at h4
    simp only [List.length_drop]
    omega

/-- What is left when no more frames can be taken. -/
structure Decoding where
  frames : List Frame
  /-- Why decoding stopped, unless it waits for more bytes. -/
  failure : Option TransportError
  rest : Bytes
  deriving DecidableEq, Repr

/-- Takes frames off the front of `bytes` until there is none or one is refused. -/
def decodeAll (limit : Nat) (bytes : Bytes) : Decoding :=
  match _h : decode limit bytes with
  | .incomplete => ⟨[], none, bytes⟩
  | .failed e => ⟨[], some e, bytes⟩
  | .frame f rest =>
    let more := decodeAll limit rest
    { more with frames := f :: more.frames }
termination_by bytes.length
decreasing_by exact length_lt_of_decode ‹_›

theorem decodeAll_eq (limit : Nat) (bytes : Bytes) :
    decodeAll limit bytes = match decode limit bytes with
      | .incomplete => ⟨[], none, bytes⟩
      | .failed e => ⟨[], some e, bytes⟩
      | .frame f rest =>
        { decodeAll limit rest with frames := f :: (decodeAll limit rest).frames } := by
  rw [decodeAll]
  split <;> simp_all

theorem decode_encode_append {limit : Nat} {f : Frame} {wire : Bytes} (rest : Bytes)
    (h : f.encode = .ok wire) (hl : f.size ≤ effectiveLimit limit) :
    decode limit (wire ++ rest) = .frame f rest := by
  obtain ⟨hw, rfl⟩ := encode_eq_ok_iff.1 h
  have hfield : Bytes.toNat (Bytes.ofNat 4 (f.body.length + 2)) = f.body.length + 2 := by
    rw [Bytes.toNat_ofNat, Bytes.numbers_four, Nat.mod_eq_of_lt]
    simp only [wireLimit, UInt32.size] at hw
    omega
  have hcode : UInt16.ofNat (Bytes.toNat (Bytes.ofNat 2 f.typeCode.toNat)) = f.typeCode := by
    rw [Bytes.toNat_ofNat, Bytes.numbers_two, Nat.mod_eq_of_lt f.typeCode.toNat_lt]
    simp
  have hl' : ¬ effectiveLimit limit < f.body.length + 2 + 4 := by
    simp only [size, headerSize] at hl
    omega
  have h4 : ∀ l : Bytes, (Bytes.ofNat 4 (f.body.length + 2) ++ l).take 4 =
      Bytes.ofNat 4 (f.body.length + 2) := fun l => by
    rw [List.take_append_of_le_length (by simp), List.take_of_length_le (by simp)]
  have hd : ∀ l : Bytes, (Bytes.ofNat 4 (f.body.length + 2) ++ l).drop 4 = l := fun l => by
    rw [List.drop_append_of_le_length (by simp), List.drop_of_length_le (by simp)]
    rfl
  have htake : (Bytes.ofNat 2 f.typeCode.toNat ++ (f.body ++ rest)).take (f.body.length + 2) =
      Bytes.ofNat 2 f.typeCode.toNat ++ f.body := by
    rw [← List.append_assoc, List.take_append_of_le_length (by simp; omega),
      List.take_of_length_le (by simp; omega)]
  have hdrop : (Bytes.ofNat 2 f.typeCode.toNat ++ (f.body ++ rest)).drop (f.body.length + 2) =
      rest := by
    rw [← List.append_assoc, List.drop_append, List.drop_of_length_le (by simp; omega),
      List.nil_append, show f.body.length + 2 - _ = 0 by simp; omega]
    rfl
  unfold decode
  simp only [List.append_assoc, h4, hd, hfield, htake]
  have hsplit : (Bytes.ofNat 2 f.typeCode.toNat ++ f.body).take 2 =
      Bytes.ofNat 2 f.typeCode.toNat ∧ (Bytes.ofNat 2 f.typeCode.toNat ++ f.body).drop 2 =
      f.body := by
    constructor
    · rw [List.take_append_of_le_length (by simp), List.take_of_length_le (by simp)]
    · rw [List.drop_append_of_le_length (by simp), List.drop_of_length_le (by simp)]
      rfl
  rw [if_neg (by simp), if_neg hl', if_neg (by omega), if_neg (by simp; omega), hsplit.1,
    hsplit.2, hcode, hdrop]

end Frame

end PeerLink
