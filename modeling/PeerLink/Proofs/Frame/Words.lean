import PeerLink.Frame.Words
import PeerLink.Proofs.Frame.Grammar

/-!
# Machine words and frames

A peer chooses the length field, which may be any number of four bytes.  Whether the
decoder in machine words then does what the decoder in numbers does turns on one
question: is the length of the whole frame, length field and all, still a word?

Words of more than 32 bits hold it for every length field.  Words of 32 bits do not
hold it for the last four length fields there are.  Under a limit below the largest
word these are refused all the same, with the largest word as the size of the frame;
only a limit that is itself the largest word lets them pass.

## Main results

* `WordDecoder.decode_of_fits` — where the length is a word, nothing wraps, the bytes
  that are taken are there, and decoding is decoding in numbers.
* `WordDecoder.decode_of_not_fits` — where it is not, decoding ends in a refusal.
* `WordDecoder.words_decode_like_numbers` — the two together, for all widths from 32.
-/

namespace PeerLink.WordDecoder

open PeerLink.Frame

variable {width : Nat} {limit : BitVec width} {bytes : Bytes}

/-- The length of the frame that the length field announces is a word. -/
def Fits (width : Nat) (bytes : Bytes) : Prop :=
  announced bytes + 4 ≤ (BitVec.allOnes width).toNat

instance (width : Nat) (bytes : Bytes) : Decidable (Fits width bytes) :=
  inferInstanceAs (Decidable (_ ≤ _))

/-! ## Words for the numbers of a decoder -/

theorem announced_le_wireLimit (bytes : Bytes) : announced bytes ≤ wireLimit := by
  have hlt := Bytes.toNat_lt (bytes.take 4)
  have hmono := Bytes.numbers_mono (List.length_take_le 4 bytes)
  rw [Bytes.numbers_four] at hmono
  unfold announced
  simp only [wireLimit, UInt32.size]
  omega

theorem wireLimit_le_allOnes (hw : 32 ≤ width) :
    wireLimit ≤ (BitVec.allOnes width).toNat := by
  rw [BitVec.toNat_allOnes]
  exact Nat.sub_le_sub_right (Nat.pow_le_pow_right Nat.two_pos hw) 1

theorem toNat_ofNat_of_le {n : Nat} (h : n ≤ (BitVec.allOnes width).toNat) :
    (BitVec.ofNat width n).toNat = n := by
  have hpos := Nat.two_pow_pos width
  rw [BitVec.toNat_allOnes] at h
  rw [BitVec.toNat_ofNat]
  exact Nat.mod_eq_of_lt (by omega)

theorem toNat_add_of_le {a b : BitVec width}
    (h : a.toNat + b.toNat ≤ (BitVec.allOnes width).toNat) :
    (a + b).toNat = a.toNat + b.toNat := by
  have hpos := Nat.two_pow_pos width
  rw [BitVec.toNat_allOnes] at h
  exact BitVec.toNat_add_of_lt (by omega)

/-- A number that a length field can hold is a word. -/
theorem toNat_ofNat_of_le_wireLimit (hw : 32 ≤ width) {n : Nat} (h : n ≤ wireLimit) :
    (BitVec.ofNat width n).toNat = n :=
  toNat_ofNat_of_le (Nat.le_trans h (wireLimit_le_allOnes hw))

theorem toNat_announced (hw : 32 ≤ width) (bytes : Bytes) :
    (BitVec.ofNat width (announced bytes)).toNat = announced bytes :=
  toNat_ofNat_of_le_wireLimit hw (announced_le_wireLimit bytes)

theorem toNat_four (hw : 32 ≤ width) : (4 : BitVec width).toNat = 4 :=
  toNat_ofNat_of_le_wireLimit hw (by decide)

/-- The largest signed word bounds what a buffer can hold. -/
theorem toNat_length (h : bytes.length ≤ (BitVec.intMax width).toNat) :
    (BitVec.ofNat width bytes.length).toNat = bytes.length := by
  apply toNat_ofNat_of_le
  have hpow : (2 : Nat) ^ (width - 1) ≤ 2 ^ width :=
    Nat.pow_le_pow_right Nat.two_pos (Nat.sub_le width 1)
  rw [BitVec.toNat_intMax] at h
  rw [BitVec.toNat_allOnes]
  omega

theorem toNat_maxFrameSize (hw : 32 ≤ width) (limit : BitVec width) :
    (withLimit limit).maxFrameSize.toNat = effectiveLimit limit.toNat := by
  have hwire := toNat_ofNat_of_le_wireLimit hw (Nat.le_refl wireLimit)
  unfold withLimit effectiveLimit
  simp only [BitVec.lt_def, hwire]
  split
  · rw [hwire]
    omega
  · omega

/-! ## Two additions and a frame taken off -/

/-- The plain addition does not wrap. -/
theorem toNat_four_add (hw : 32 ≤ width) (h : Fits width bytes) :
    (4 + BitVec.ofNat width (announced bytes)).toNat = 4 + announced bytes := by
  have hfour := toNat_four hw
  have hannounced := toNat_announced hw bytes
  unfold Fits at h
  rw [toNat_add_of_le, hannounced, hfour]
  rw [hannounced, hfour]
  omega

theorem toNat_saturatingAdd_four (hw : 32 ≤ width) (bytes : Bytes) :
    (saturatingAdd (BitVec.ofNat width (announced bytes)) 4).toNat =
      min (announced bytes + 4) (BitVec.allOnes width).toNat := by
  rw [toNat_saturatingAdd, toNat_announced hw, toNat_four hw]

/-- What is taken off the buffer is there. -/
theorem takeFrame_of_whole (hw : 32 ≤ width) (hcode : 2 ≤ announced bytes)
    (hwhole : 4 + announced bytes ≤ bytes.length) :
    takeFrame bytes (BitVec.ofNat width (announced bytes)) = some (.frame
      ⟨UInt16.ofNat (Bytes.toNat (((bytes.drop 4).take (announced bytes)).take 2)),
        ((bytes.drop 4).take (announced bytes)).drop 2⟩
      ((bytes.drop 4).drop (announced bytes))) := by
  have hfour := toNat_four hw
  have hannounced := toNat_announced hw bytes
  have hadvance : advance bytes (4 : BitVec width) = some (bytes.drop 4) := by
    rw [advance_of_le (by rw [hfour]; omega), hfour]
  have hsplit : splitTo (bytes.drop 4) (BitVec.ofNat width (announced bytes)) =
      some ((bytes.drop 4).take (announced bytes), (bytes.drop 4).drop (announced bytes)) := by
    rw [splitTo_of_le (by rw [hannounced, List.length_drop]; omega), hannounced]
  have hcontent : 2 ≤ ((bytes.drop 4).take (announced bytes)).length := by
    rw [List.length_take, List.length_drop]
    omega
  rw [takeFrame, hadvance, Option.bind_eq_bind, Option.bind_some, hsplit, Option.bind_eq_bind,
    Option.bind_some]
  simp only [getU16_of_two_le hcontent, Option.bind_eq_bind, Option.bind_some]
  rfl

theorem decode_of_fits (hw : 32 ≤ width) (limit : BitVec width)
    (hlen : bytes.length ≤ (BitVec.intMax width).toNat) (h : Fits width bytes) :
    (withLimit limit).decode bytes = some (Frame.decode limit.toNat bytes) := by
  have hfour := toNat_four hw
  have htwo : (2 : BitVec width).toNat = 2 := toNat_ofNat_of_le_wireLimit hw (by decide)
  have hlength := toNat_length hlen
  have hmax := toNat_maxFrameSize hw limit
  have hannounced := toNat_announced hw bytes
  have hplain := toNat_four_add hw h
  have htotal := toNat_saturatingAdd_four hw bytes
  rw [Nat.min_eq_left h] at htotal
  have htaken := @takeFrame_of_whole width bytes hw
  unfold announced at hannounced hplain htotal htaken
  rw [decode_eq, announced]
  unfold decode
  simp only [BitVec.lt_def, hfour, htwo, hlength, hmax, hannounced, hplain, htotal]
  by_cases hshort : bytes.length < 4
  · rw [if_pos hshort, if_pos hshort]
  rw [if_neg hshort, if_neg hshort]
  by_cases hlarge : effectiveLimit limit.toNat < Bytes.toNat (bytes.take 4) + 4
  · rw [if_pos hlarge, if_pos hlarge]
  rw [if_neg hlarge, if_neg hlarge]
  by_cases hcode : Bytes.toNat (bytes.take 4) < 2
  · rw [if_pos hcode, if_pos hcode]
  rw [if_neg hcode, if_neg hcode]
  by_cases hpart : bytes.length < 4 + Bytes.toNat (bytes.take 4)
  · rw [if_pos hpart, if_pos (by omega)]
  · rw [if_neg hpart, if_neg (by omega)]
    exact htaken (Nat.le_of_not_lt hcode) (Nat.le_of_not_lt hpart)

/-! ## Lengths that are no word -/

/-- Words of more than 32 bits hold the length of every frame. -/
theorem fits_of_lt (hw : 32 < width) (bytes : Bytes) : Fits width bytes := by
  have hannounced := announced_le_wireLimit bytes
  have hpow : (2 : Nat) ^ 33 ≤ 2 ^ width := Nat.pow_le_pow_right Nat.two_pos hw
  unfold Fits
  rw [BitVec.toNat_allOnes]
  simp only [wireLimit, UInt32.size] at hannounced
  omega

theorem width_of_not_fits (hw : 32 ≤ width) (h : ¬ Fits width bytes) : width = 32 := by
  by_contra hne
  exact h (fits_of_lt (by omega) bytes)

theorem four_le_length_of_not_fits (hw : 32 ≤ width) (h : ¬ Fits width bytes) :
    4 ≤ bytes.length := by
  by_contra hshort
  apply h
  have hlt := Bytes.toNat_lt (bytes.take 4)
  have hlength : (bytes.take 4).length ≤ 3 := by
    rw [List.length_take]
    omega
  have hmono := Bytes.numbers_mono hlength
  have hwire := wireLimit_le_allOnes hw
  have hthree : Bytes.numbers 3 = 16777216 := rfl
  simp only [wireLimit, UInt32.size] at hwire
  unfold Fits announced
  omega

/-- The refusal gives the largest word for a length that is no word. -/
theorem decode_of_not_fits (limit : BitVec 32) (hlen : bytes.length ≤ (BitVec.intMax 32).toNat)
    (h : ¬ Fits 32 bytes) (hlimit : effectiveLimit limit.toNat < wireLimit) :
    (withLimit limit).decode bytes =
      some (.failed (.frameTooLarge wireLimit (effectiveLimit limit.toNat))) := by
  have hw : 32 ≤ 32 := Nat.le_refl 32
  have hlength := toNat_length hlen
  have hmax := toNat_maxFrameSize hw limit
  have hfour := four_le_length_of_not_fits hw h
  have htotal := toNat_saturatingAdd_four hw bytes
  have hwire : (BitVec.allOnes 32).toNat = wireLimit := rfl
  unfold Fits at h
  rw [Nat.min_eq_right (by omega), hwire] at htotal
  unfold announced at htotal
  unfold decode
  simp only [BitVec.lt_def, toNat_four hw, hlength, hmax, htotal]
  rw [if_neg (Nat.not_lt.2 hfour), if_pos hlimit]

theorem decode_number_of_not_fits (limit : Nat) (h : ¬ Fits 32 bytes) :
    Frame.decode limit bytes =
      .failed (.frameTooLarge (announced bytes + 4) (effectiveLimit limit)) := by
  have hfour := four_le_length_of_not_fits (Nat.le_refl 32) h
  have hwire : (BitVec.allOnes 32).toNat = wireLimit := rfl
  have hlimit := Nat.min_le_right limit wireLimit
  unfold Fits at h
  refine decode_eq_failed_iff.2 (.inl ⟨⟨hfour, ?_⟩, rfl⟩)
  unfold effectiveLimit
  omega

/-! ## All widths -/

/-- In words of 32 bits or more, under every limit and for every buffer that a machine
with such words can hold: if the length of the announced frame is a word, the plain
addition of the length field does not wrap, the caller is not aborted, and the decoder
finds what the decoder in numbers finds.  If it is not a word, a limit below the
largest length field still lets the decoder refuse the frame under the same limit,
with the largest word as its size.  Words of more than 32 bits hold every length. -/
theorem words_decode_like_numbers (hw : 32 ≤ width) (limit : BitVec width) (bytes : Bytes)
    (hlen : bytes.length ≤ (BitVec.intMax width).toNat) :
    (Fits width bytes →
      (4 + BitVec.ofNat width (announced bytes)).toNat = 4 + announced bytes ∧
        (withLimit limit).decode bytes = some (Frame.decode limit.toNat bytes)) ∧
    (¬ Fits width bytes → effectiveLimit limit.toNat < wireLimit →
      (withLimit limit).decode bytes =
          some (.failed (.frameTooLarge (BitVec.allOnes width).toNat
            (effectiveLimit limit.toNat))) ∧
        Frame.decode limit.toNat bytes =
          .failed (.frameTooLarge (announced bytes + 4) (effectiveLimit limit.toNat))) ∧
    (32 < width → Fits width bytes) := by
  refine ⟨?_, ?_, ?_⟩
  · intro hfits
    exact ⟨toNat_four_add hw hfits, decode_of_fits hw limit hlen hfits⟩
  · intro hfits hlimit
    obtain rfl := width_of_not_fits hw hfits
    exact ⟨decode_of_not_fits limit hlen hfits hlimit,
      decode_number_of_not_fits limit.toNat hfits⟩
  · intro hlarge
    exact fits_of_lt hlarge bytes

/-- A frame and a byte behind it, and the largest length field: in words of 64 bits its
length is a word, in words of 32 bits it is none and the size in the refusal differs. -/
theorem largest_length_field_in_words :
    ((32 : Nat) ≤ 32 ∧ ([0, 0, 0, 3, 0, 7, 9, 1] : Bytes).length ≤ (BitVec.intMax 32).toNat ∧
      Fits 32 [0, 0, 0, 3, 0, 7, 9, 1] ∧
      (withLimit (.allOnes 32)).decode [0, 0, 0, 3, 0, 7, 9, 1] = some (.frame ⟨7, [9]⟩ [1])) ∧
    ((32 : Nat) < 64 ∧ ([255, 255, 255, 255] : Bytes).length ≤ (BitVec.intMax 64).toNat ∧
      (4 + BitVec.ofNat 64 (announced [255, 255, 255, 255])).toNat = 4294967299 ∧
      (withLimit (.allOnes 64)).decode [255, 255, 255, 255] =
        some (.failed (.frameTooLarge 4294967299 4294967295))) ∧
    (¬ Fits 32 [255, 255, 255, 255] ∧ effectiveLimit (16 : BitVec 32).toNat < wireLimit ∧
      (withLimit (16 : BitVec 32)).decode [255, 255, 255, 255] =
        some (.failed (.frameTooLarge 4294967295 16)) ∧
      Frame.decode 16 [255, 255, 255, 255] = .failed (.frameTooLarge 4294967299 16)) := by
  have hframe := words_decode_like_numbers (by decide) (BitVec.allOnes 32)
    [0, 0, 0, 3, 0, 7, 9, 1] (by decide)
  have hwide := words_decode_like_numbers (by decide) (BitVec.allOnes 64)
    [255, 255, 255, 255] (by decide)
  have hnarrow := words_decode_like_numbers (by decide) (16 : BitVec 32)
    [255, 255, 255, 255] (by decide)
  refine ⟨⟨by decide, by decide, by decide, ?_⟩, ⟨by decide, by decide, ?_, ?_⟩,
    by decide, by decide, ?_⟩
  · rw [(hframe.1 (by decide)).2]
    decide
  · rw [(hwide.1 (hwide.2.2 (by decide))).1]
    decide
  · rw [(hwide.1 (hwide.2.2 (by decide))).2]
    decide
  · have hrefused := hnarrow.2.1 (by decide) (by decide)
    exact ⟨hrefused.1.trans (by decide), hrefused.2.trans (by decide)⟩

/-- In words of 32 bits the largest length field is not read as in numbers: the sizes in
the refusals differ, and under the largest limit there is no refusal, the plain addition
wraps, and the caller is aborted. -/
theorem narrow_words_read_otherwise :
    ([255, 255, 255, 255] : Bytes).length ≤ (BitVec.intMax 32).toNat ∧
      (withLimit (16 : BitVec 32)).decode [255, 255, 255, 255] ≠
        some (Frame.decode 16 [255, 255, 255, 255]) ∧
      (withLimit (.allOnes 32)).decode [255, 255, 255, 255] = none ∧
      (4 + BitVec.ofNat 32 (announced [255, 255, 255, 255])).toNat = 3 ∧
      Frame.decode (BitVec.allOnes 32).toNat [255, 255, 255, 255] =
        .failed (.frameTooLarge 4294967299 4294967295) := by
  decide

end PeerLink.WordDecoder
