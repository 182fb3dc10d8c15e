import PeerLink.Frame.Message
import PeerLink.Proofs.Frame.Grammar

/-!
# What becomes of a draft

A message is written behind an empty header, by code that may append what it
likes, cut the whole draft back, and fail.  The length of the draft then decides:
there are drafts beyond the limit, drafts in which there is no room for a length
field, and drafts that are framed by putting their length in.

A draft with a whole header is the frame of the message's type code and of what
stands behind the header, whatever the message did to get there.  One that was cut
back into the type code makes a frame that no decoder takes.

## Main results

* `Frame.announced_encode` — the length field of a written frame.
* `Message.encode_frame_of_framed` — a framed message is a written frame, unless it
  was cut back into the header.
* `Message.encoding_follows_draft` — what comes out for every message and limit, and
  what a decoder with the same limit makes of it.
-/

namespace PeerLink

variable {limit reading : Nat} {f : Frame} {m : Message} {wire : Bytes}

/-! ## The length field of what is written -/

namespace Frame

/-- A number in front that four bytes can hold is read back. -/
theorem announced_ofNat_append {n : Nat} (h : n ≤ wireLimit) (rest : Bytes) :
    announced (Bytes.ofNat 4 n ++ rest) = n := by
  have hlt : n < Bytes.numbers 4 := Nat.lt_succ_of_le h
  unfold announced
  rw [List.take_append_of_le_length (by simp), List.take_of_length_le (by simp),
    Bytes.toNat_ofNat, Nat.mod_eq_of_lt hlt]

/-- The length field of a written frame counts what follows it. -/
theorem announced_encode (h : f.encode = .ok wire) (rest : Bytes) :
    announced (wire ++ rest) + 4 = f.size := by
  obtain ⟨hwire, rfl⟩ := encode_eq_ok_iff.1 h
  rw [List.append_assoc, List.append_assoc, announced_ofNat_append hwire, size, headerSize]
  omega

/-- A decoder whose limit a frame exceeds refuses it, as large as it is. -/
theorem decode_of_lt_size (h : f.encode = .ok wire) (hlimit : effectiveLimit reading < f.size)
    (rest : Bytes) :
    decode reading (wire ++ rest) =
      .failed (.frameTooLarge f.size (effectiveLimit reading)) := by
  have hfield := announced_encode h rest
  have hlength := length_encode h
  refine decode_eq_failed_iff.2 (.inl ⟨⟨?_, ?_⟩, ?_⟩)
  · simp only [size, headerSize] at hlength
    simp only [List.length_append]
    omega
  · rw [hfield]
    exact hlimit
  · rw [hfield]

end Frame

/-! ## The four ways -/

namespace Message

open PeerLink.Frame

theorem encode_of_failure {e : TransportError} (h : m.failure = some e) :
    m.encode limit = .refused e := by
  simp only [encode, h]

theorem encode_of_limit_lt (hf : m.failure = none)
    (h : effectiveLimit limit < m.draft.length) :
    m.encode limit = .refused (.frameTooLarge m.draft.length (effectiveLimit limit)) := by
  simp only [encode, hf, if_pos h]

/-- Within the limit the length field can always be written. -/
theorem lengthField_of_le_limit (h : m.draft.length ≤ effectiveLimit limit) :
    lengthField m.draft.length = .ok (Bytes.ofNat 4 (m.draft.length - 4)) :=
  lengthField_of_le (Nat.le_trans h (Nat.min_le_right _ _))

theorem encode_of_lt_four (hf : m.failure = none)
    (hlimit : m.draft.length ≤ effectiveLimit limit) (h : m.draft.length < 4) :
    m.encode limit = .aborted := by
  simp only [encode, hf, if_neg (Nat.not_lt_of_le hlimit), lengthField_of_le_limit hlimit,
    if_pos h]

/-! ## What is framed -/

/-- Cutting a draft back behind the header leaves the header. -/
theorem take_six_draft (h : 6 ≤ m.draft.length) :
    m.draft.take 6 = Bytes.ofNat 4 0 ++ Bytes.ofNat 2 m.typeCode.toNat := by
  have hheader : (Bytes.ofNat 4 0 ++ Bytes.ofNat 2 m.typeCode.toNat ++ m.body).take 6 =
      Bytes.ofNat 4 0 ++ Bytes.ofNat 2 m.typeCode.toNat := by
    rw [List.take_append_of_le_length (by simp), List.take_of_length_le (by simp)]
  unfold draft at h ⊢
  cases hcut : m.cut with
  | none => exact hheader
  | some n =>
      rw [hcut, List.length_take] at h
      rw [List.take_take, Nat.min_eq_left (by omega)]
      exact hheader

/-- Behind the length field of a draft stand the type code and the body. -/
theorem drop_four_draft (h : 6 ≤ m.draft.length) :
    m.draft.drop 4 = Bytes.ofNat 2 m.typeCode.toNat ++ m.draft.drop 6 := by
  have hsplit : Bytes.ofNat 4 0 ++ (Bytes.ofNat 2 m.typeCode.toNat ++ m.draft.drop 6) =
      m.draft := by
    rw [← List.append_assoc, ← take_six_draft h, List.take_append_drop]
  calc m.draft.drop 4
      = (Bytes.ofNat 4 0 ++ (Bytes.ofNat 2 m.typeCode.toNat ++ m.draft.drop 6)).drop 4 := by
        rw [hsplit]
    _ = Bytes.ofNat 2 m.typeCode.toNat ++ m.draft.drop 6 := by
        rw [List.drop_append_of_le_length (by simp), List.drop_of_length_le (by simp),
          List.nil_append]

/-- A draft with a whole header makes a written frame. -/
theorem encode_frame_of_framed (h : m.encode limit = .framed wire) (hsix : 6 ≤ m.draft.length) :
    (Frame.mk m.typeCode (m.draft.drop 6)).encode = .ok wire ∧
      (Frame.mk m.typeCode (m.draft.drop 6)).size = m.draft.length := by
  obtain ⟨-, -, hlimit, rfl⟩ := encode_eq_framed_iff.1 h
  have hwire := Nat.le_trans hlimit (Nat.min_le_right _ _)
  have hlength : (m.draft.drop 6).length + 2 = m.draft.length - 4 := by
    rw [List.length_drop]
    omega
  constructor
  · refine encode_eq_ok_iff.2 ⟨?_, ?_⟩
    · simp only [hlength]
      omega
    · simp only [hlength, drop_four_draft hsix, List.append_assoc]
  · simp only [size, headerSize]
    omega

/-- A draft that was cut back into its type code makes a frame without room for one. -/
theorem decode_of_framed_short (h : m.encode limit = .framed wire) (hsix : m.draft.length < 6) :
    decode limit wire = .failed .malformed := by
  obtain ⟨-, hfour, hlimit, rfl⟩ := encode_eq_framed_iff.1 h
  have hwire := Nat.le_trans hlimit (Nat.min_le_right _ _)
  have hfield := announced_ofNat_append (n := m.draft.length - 4) (by omega) (m.draft.drop 4)
  refine decode_eq_failed_iff.2 (.inr ⟨⟨by simp, ?_, ?_⟩, rfl⟩)
  · rw [hfield]
    omega
  · rw [hfield]
    omega

/-- What a message appends and leaves alone stands behind the header. -/
theorem drop_six_draft (h : m.IsAppendOnly) : m.draft.drop 6 = m.parts.flatten := by
  rw [draft_of_isAppendOnly h, List.drop_append_of_le_length (by simp),
    List.drop_of_length_le (by simp)]
  rfl

theorem six_le_draft (h : m.IsAppendOnly) : 6 ≤ m.draft.length := by
  rw [draft_of_isAppendOnly h]
  simp only [List.length_append, Bytes.length_ofNat]
  omega

/-- What a decoder with the same limit makes of a framed message. -/
structure Arrives (m : Message) (limit : Nat) (wire : Bytes) : Prop where
  length_eq : wire.length = m.draft.length
  /-- With a whole header it is one frame, and the two hold the same bytes. -/
  whole : 6 ≤ m.draft.length → decodeAll limit wire = ⟨[⟨m.typeCode, m.draft.drop 6⟩], none, []⟩ ∧
    wire.drop 4 = Bytes.ofNat 2 m.typeCode.toNat ++ m.draft.drop 6
  /-- Without one it is refused, and stays where it is. -/
  stub : m.draft.length < 6 → decodeAll limit wire = ⟨[], some .malformed, wire⟩
  /-- A message that only appends is framed like its body. -/
  appended : m.IsAppendOnly → (Frame.mk m.typeCode m.parts.flatten).encode = .ok wire

theorem arrives_of_framed (h : m.encode limit = .framed wire) : m.Arrives limit wire := by
  obtain ⟨-, hfour, hlimit, hwire⟩ := encode_eq_framed_iff.1 h
  refine ⟨?_, fun hsix => ?_, fun hsix => ?_, fun happend => ?_⟩
  · rw [hwire, List.length_append, Bytes.length_ofNat, List.length_drop]
    omega
  · obtain ⟨hframe, hsize⟩ := encode_frame_of_framed h hsix
    constructor
    · have hone : Stream limit [⟨m.typeCode, m.draft.drop 6⟩] wire := by
        rw [← List.append_nil wire]
        exact .cons hframe (hsize ▸ hlimit) .nil
      exact hone.decodeAll
    · rw [hwire, List.drop_append_of_le_length (by simp), List.drop_of_length_le (by simp),
        List.nil_append, drop_four_draft hsix]
  · exact decodeAll_of_failed (decode_of_framed_short h hsix)
  · rw [← drop_six_draft happend]
    exact (encode_frame_of_framed h (six_le_draft happend)).1

/-- The failure of a message's writing comes first.  After that the length of the
draft decides: beyond the limit it is refused, below the length field the caller is
aborted, and in between it is framed by writing its length into it.  The length field
never fails.  What is framed arrives as one frame if there is a whole header. -/
theorem encoding_follows_draft (m : Message) (limit : Nat) :
    (∀ e, m.failure = some e → m.encode limit = .refused e) ∧
    (m.failure = none → effectiveLimit limit < m.draft.length →
      m.encode limit = .refused (.frameTooLarge m.draft.length (effectiveLimit limit))) ∧
    (m.failure = none → m.draft.length ≤ effectiveLimit limit → m.draft.length < 4 →
      m.encode limit = .aborted) ∧
    (m.failure = none → m.draft.length ≤ effectiveLimit limit → 4 ≤ m.draft.length →
      m.encode limit = .framed (Bytes.ofNat 4 (m.draft.length - 4) ++ m.draft.drop 4)) ∧
    (m.draft.length ≤ effectiveLimit limit → ∃ field, lengthField m.draft.length = .ok field) ∧
    ∀ wire, m.encode limit = .framed wire → m.Arrives limit wire := by
  refine ⟨fun e he => encode_of_failure he, fun hf hlimit => encode_of_limit_lt hf hlimit,
    fun hf hlimit hfour => encode_of_lt_four hf hlimit hfour, fun hf hlimit hfour => ?_,
    fun hlimit => ⟨_, lengthField_of_le_limit hlimit⟩, fun wire h => arrives_of_framed h⟩
  exact encode_eq_framed_iff.2 ⟨hf, hfour, hlimit, rfl⟩

/-- Two parts of three bytes together, cut back to the limit. -/
def clipped : Message := ⟨5, [[1], [2, 3]], some 8, none, 0⟩

/-- A message that was cut back into its type code. -/
def beheaded : Message := ⟨5, [[1], [2, 3]], some 5, none, 0⟩

/-- The one arrives without its last byte, the other is refused. -/
theorem cut_messages_follow_their_drafts :
    clipped.encode 8 = .framed [0, 0, 0, 4, 0, 5, 1, 2] ∧
      decodeAll 8 [0, 0, 0, 4, 0, 5, 1, 2] = ⟨[⟨5, [1, 2]⟩], none, []⟩ ∧
      beheaded.encode 8 = .framed [0, 0, 0, 1, 0] ∧
      decodeAll 8 [0, 0, 0, 1, 0] = ⟨[], some .malformed, [0, 0, 0, 1, 0]⟩ := by
  obtain ⟨-, -, -, hclipped, -, harrives⟩ := encoding_follows_draft clipped 8
  obtain ⟨-, -, -, hbeheaded, -, hrefused⟩ := encoding_follows_draft beheaded 8
  have hframed := hclipped rfl (by decide) (by decide)
  have hstub := hbeheaded rfl (by decide) (by decide)
  exact ⟨hframed, ((harrives _ hframed).whole (by decide)).1, hstub,
    (hrefused _ hstub).stub (by decide)⟩

end Message

end PeerLink
