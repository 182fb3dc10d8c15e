import Mathlib.Data.List.Basic
import PeerLink.Frame.Decoder

/-!
# Frames in a stream

A stream is cut into pieces that know nothing of frames.  What the decoder finds
at the front of the bytes it has does not change when more bytes come behind
them, so decoding piece by piece finds what decoding at once would find.

If the stream consists of written frames, each within the limit, then all that
has arrived of it is a number of whole frames and a part of the next one; no
frame is ever refused.

## Main results

* `Frame.decode_append` — a frame that was found is found whatever follows.
* `Frame.decodeAll_append_rest` — decoding may stop and go on with more bytes.
* `Frame.decodeAll_of_isPrefix` — a part of a stream of written frames decodes to
  the first of them.
-/

namespace PeerLink.Frame

variable {limit : Nat} {bytes rest : Bytes} {f : Frame}

/-! ## More bytes behind those at hand -/

/-- Whatever is decided is decided by the bytes that are there. -/
private theorem four_le_of_decode (h : decode limit bytes ≠ .incomplete) :
    4 ≤ bytes.length := by
  by_contra hshort
  refine h ?_
  unfold decode
  rw [if_pos]
  simp only [List.length_take]
  omega

theorem decode_append (h : decode limit bytes = .frame f rest) (more : Bytes) :
    decode limit (bytes ++ more) = .frame f (rest ++ more) := by
  have hfour : 4 ≤ bytes.length := four_le_of_decode (by rw [h]; nofun)
  have htake : (bytes ++ more).take 4 = bytes.take 4 := List.take_append_of_le_length hfour
  have hdrop : (bytes ++ more).drop 4 = bytes.drop 4 ++ more :=
    List.drop_append_of_le_length hfour
  unfold decode at h ⊢
  simp only [htake, hdrop] at h ⊢
  split at h
  · cases h
  rename_i hfield
  rw [if_neg hfield]
  split at h
  · cases h
  rename_i hlimit
  rw [if_neg hlimit]
  split at h
  · cases h
  rename_i hcode
  rw [if_neg hcode]
  split at h
  · cases h
  rename_i hcontent
  have hlen : Bytes.toNat (bytes.take 4) ≤ (bytes.drop 4).length := by
    rw [List.length_take] at hcontent
    omega
  rw [List.take_append_of_le_length hlen, List.drop_append_of_le_length hlen,
    if_neg hcontent]
  obtain ⟨rfl, rfl⟩ := Decoded.frame.inj h
  rfl

theorem decode_failed_append {e : TransportError} (h : decode limit bytes = .failed e)
    (more : Bytes) : decode limit (bytes ++ more) = .failed e := by
  have hfour : 4 ≤ bytes.length := four_le_of_decode (by rw [h]; nofun)
  have htake : (bytes ++ more).take 4 = bytes.take 4 := List.take_append_of_le_length hfour
  unfold decode at h ⊢
  simp only [htake] at h ⊢
  split at h
  · cases h
  rename_i hfield
  rw [if_neg hfield]
  split at h
  · rename_i hlimit
    rw [if_pos hlimit]
    exact h
  rename_i hlimit
  rw [if_neg hlimit]
  split at h
  · rename_i hcode
    rw [if_pos hcode]
    exact h
  split at h
  · cases h
  · cases h

/-! ## Taking all frames -/

theorem decodeAll_of_incomplete (h : decode limit bytes = .incomplete) :
    decodeAll limit bytes = ⟨[], none, bytes⟩ := by
  rw [decodeAll_eq, h]

theorem decodeAll_of_failed {e : TransportError} (h : decode limit bytes = .failed e) :
    decodeAll limit bytes = ⟨[], some e, bytes⟩ := by
  rw [decodeAll_eq, h]

theorem decodeAll_of_frame (h : decode limit bytes = .frame f rest) :
    decodeAll limit bytes =
      { decodeAll limit rest with frames := f :: (decodeAll limit rest).frames } := by
  rw [decodeAll_eq, h]

/-- Frames that were taken before others. -/
def Decoding.after (d : Decoding) (frames : List Frame) : Decoding :=
  { d with frames := frames ++ d.frames }

/-- Decoding goes on where it stopped, whatever the reason. -/
theorem decodeAll_append_rest (limit : Nat) (bytes more : Bytes) :
    decodeAll limit (bytes ++ more) =
      (decodeAll limit ((decodeAll limit bytes).rest ++ more)).after
        (decodeAll limit bytes).frames := by
  induction hn : bytes.length using Nat.strongRecOn generalizing bytes with
  | ind n ih =>
      cases hd : decode limit bytes with
      | incomplete =>
          rw [decodeAll_of_incomplete hd]
          rfl
      | failed e =>
          rw [decodeAll_of_failed hd]
          rfl
      | frame f tail =>
          have hlt : tail.length < n := hn ▸ length_lt_of_decode hd
          rw [decodeAll_of_frame hd, decodeAll_of_frame (decode_append hd more),
            ih tail.length hlt tail rfl]
          rfl

/-- Decoding that waits for more bytes goes on where it stopped. -/
theorem decodeAll_append {frames : List Frame}
    (h : decodeAll limit bytes = ⟨frames, none, rest⟩) (more : Bytes) :
    decodeAll limit (bytes ++ more) = (decodeAll limit (rest ++ more)).after frames := by
  rw [decodeAll_append_rest, h]

/-- What is left at the end is left again when it is decoded alone. -/
theorem decodeAll_rest (limit : Nat) (bytes : Bytes) :
    decodeAll limit (decodeAll limit bytes).rest =
      ⟨[], (decodeAll limit bytes).failure, (decodeAll limit bytes).rest⟩ := by
  have h := decodeAll_append_rest limit bytes []
  rw [List.append_nil, List.append_nil] at h
  obtain ⟨hframes, hfailure, hrest⟩ := Decoding.mk.inj h
  generalize decodeAll limit (decodeAll limit bytes).rest = d at hframes hfailure hrest
  have hnil : d.frames = [] := by simpa using hframes
  rw [hfailure, hrest, ← hnil]

/-! ## A stream of written frames -/

/-- A part of a written frame is not a frame yet, nor is it refused. -/
theorem decode_of_part {wire part left : Bytes} (h : f.encode = .ok wire)
    (hl : f.size ≤ effectiveLimit limit) (hwire : wire = part ++ left) (hleft : left ≠ []) :
    decode limit part = .incomplete := by
  have hwhole : decode limit (part ++ left) = .frame f [] := by
    rw [← hwire, ← List.append_nil wire]
    exact decode_encode_append [] h hl
  cases hd : decode limit part with
  | incomplete => rfl
  | failed e =>
      rw [decode_failed_append hd left] at hwhole
      cases hwhole
  | frame g rest =>
      rw [decode_append hd left] at hwhole
      obtain ⟨-, hnil⟩ := Decoded.frame.inj hwhole
      exact absurd (List.append_eq_nil_iff.1 hnil).2 hleft

/-- The bytes of frames, one after the other; each of them is within the limit. -/
inductive Stream (limit : Nat) : List Frame → Bytes → Prop
  | nil : Stream limit [] []
  | cons {f : Frame} {fs : List Frame} {wire bytes : Bytes} (h : f.encode = .ok wire)
      (hl : f.size ≤ effectiveLimit limit) (hs : Stream limit fs bytes) :
      Stream limit (f :: fs) (wire ++ bytes)

theorem Stream.mono {fs : List Frame} {limit' : Nat} (h : Stream limit fs bytes)
    (hlimit : limit ≤ limit') : Stream limit' fs bytes := by
  induction h with
  | nil => exact .nil
  | cons hf hl _ ih =>
      refine .cons hf (Nat.le_trans hl ?_) ih
      unfold effectiveLimit
      omega

theorem Stream.decodeAll {fs : List Frame} (h : Stream limit fs bytes) :
    Frame.decodeAll limit bytes = ⟨fs, none, []⟩ := by
  induction h with
  | nil =>
      refine decodeAll_of_incomplete ?_
      rfl
  | cons hf hl _ ih => rw [decodeAll_of_frame (decode_encode_append _ hf hl), ih]

/-- A part of a stream decodes to the first of its frames, and is not refused. -/
theorem decodeAll_of_isPrefix {fs : List Frame} {part : Bytes} (h : Stream limit fs bytes)
    (hpart : part <+: bytes) :
    (decodeAll limit part).failure = none ∧ (decodeAll limit part).frames <+: fs := by
  induction h generalizing part with
  | nil =>
      rw [List.prefix_nil.1 hpart, Stream.nil.decodeAll]
      exact ⟨rfl, List.prefix_rfl⟩
  | cons hf hl hs ih =>
      rename_i f fs wire bytes
      rcases List.prefix_or_prefix_of_prefix hpart (List.prefix_append wire bytes) with
        hshort | hlong
      · obtain ⟨left, hwire⟩ := hshort
        by_cases hleft : left = []
        · rw [hleft, List.append_nil] at hwire
          have hone : Stream limit [f] part := by
            rw [hwire, ← List.append_nil wire]
            exact .cons hf hl .nil
          rw [hone.decodeAll]
          exact ⟨rfl, List.cons_prefix_cons.2 ⟨rfl, List.nil_prefix⟩⟩
        · rw [decodeAll_of_incomplete (decode_of_part hf hl hwire.symm hleft)]
          exact ⟨rfl, List.nil_prefix⟩
      · obtain ⟨tail, rfl⟩ := hlong
        have htail : tail <+: bytes := (List.prefix_append_right_inj wire).1 hpart
        rw [decodeAll_of_frame (decode_encode_append tail hf hl)]
        exact ⟨(ih htail).1, List.cons_prefix_cons.2 ⟨rfl, (ih htail).2⟩⟩

end PeerLink.Frame
