import PeerLink.Frame.Basic

/-!
# Messages and payloads

What is handed to a session is either a finished frame or a message that writes its own body. A
message is described by what its writing does to the buffer it is given: it appends some parts,
it may cut the whole buffer back, and it may fail. Cutting reaches into the header that the
session has put there, which is why the result of encoding has a third outcome.

## Main results

* `Message.encode_eq_framed_iff` — a message is framed exactly when its writing does not fail and
  leaves between four bytes and the limit;
* `Message.encode_ofBody` — a message that is just a body is framed as `Frame.encode` frames it.
-/

namespace PeerLink

/-- A message, by the effect of writing it. -/
structure Message where
  /-- The type code of its frame. -/
  typeCode : UInt16
  /-- Appended to the buffer one after the other. -/
  parts : List Bytes
  /-- The length the whole buffer is then cut back to. -/
  cut : Option Nat
  /-- The failure the writing ends with. -/
  failure : Option TransportError
  /-- How long the body is said to be before it is written. Room is set aside for so much, and
  nothing that is written depends on it. -/
  hint : Nat
  deriving Repr, Inhabited

/-- What becomes of a message that is to be framed. -/
inductive Encoding
  /-- The frame on the wire. -/
  | framed (wire : Bytes)
  | refused (error : TransportError)
  /-- The writing left no room for the length field, and the caller is aborted. -/
  | aborted
  deriving DecidableEq, Repr

namespace Message

/-- A message that is nothing but its body. -/
def ofBody (typeCode : UInt16) (body : Bytes) : Message where
  typeCode := typeCode
  parts := [body]
  cut := none
  failure := none
  hint := body.length

/-- The message only appends: it neither cuts nor fails. -/
def IsAppendOnly (m : Message) : Prop :=
  m.cut = none ∧ m.failure = none

instance (m : Message) : Decidable m.IsAppendOnly :=
  inferInstanceAs (Decidable (_ ∧ _))

/-- What the message appends. -/
def body (m : Message) : Bytes := m.parts.flatten

/-- The buffer after the message was written into it behind an empty header. -/
def draft (m : Message) : Bytes :=
  let whole := Bytes.ofNat 4 0 ++ Bytes.ofNat 2 m.typeCode.toNat ++ m.body
  match m.cut with
  | none => whole
  | some n => whole.take n

/-- Frames a message. A failure of its writing comes first, then the limit, then the length
field, which needs the first four bytes of the draft. -/
def encode (m : Message) (limit : Nat) : Encoding :=
  match m.failure with
  | some e => .refused e
  | none =>
    let draft := m.draft
    let total := draft.length
    if Frame.effectiveLimit limit < total then
      .refused (.frameTooLarge total (Frame.effectiveLimit limit))
    else match Frame.lengthField total with
      | .error e => .refused e
      | .ok len => if total < 4 then .aborted else .framed (len ++ draft.drop 4)

/-! ## When a message is framed -/

theorem lengthField_of_le {total : Nat} (h : total ≤ Frame.wireLimit) :
    Frame.lengthField total = .ok (Bytes.ofNat 4 (total - 4)) := by
  rw [Frame.lengthField, if_pos (by omega)]

theorem encode_eq_framed_iff {m : Message} {limit : Nat} {wire : Bytes} :
    m.encode limit = .framed wire ↔
      m.failure = none ∧ 4 ≤ m.draft.length ∧ m.draft.length ≤ Frame.effectiveLimit limit ∧
        wire = Bytes.ofNat 4 (m.draft.length - 4) ++ m.draft.drop 4 := by
  unfold encode
  cases hf : m.failure with
  | some e => simp
  | none =>
    by_cases hl : Frame.effectiveLimit limit < m.draft.length
    · simp only [hl, if_true, reduceCtorEq, true_and, false_iff]
      omega
    · have hw : m.draft.length ≤ Frame.wireLimit :=
        Nat.le_trans (Nat.le_of_not_lt hl) (Nat.min_le_right _ _)
      simp only [hl, if_false, lengthField_of_le hw, true_and]
      by_cases h4 : m.draft.length < 4
      · simp only [h4, if_true, reduceCtorEq, false_iff]
        omega
      · simp only [h4, if_false, Encoding.framed.injEq]
        constructor
        · rintro rfl
          exact ⟨by omega, by omega, rfl⟩
        · rintro ⟨-, -, rfl⟩
          rfl

theorem draft_of_isAppendOnly {m : Message} (h : m.IsAppendOnly) :
    m.draft = Bytes.ofNat 4 0 ++ Bytes.ofNat 2 m.typeCode.toNat ++ m.body := by
  simp [draft, h.1]

theorem encode_of_isAppendOnly {m : Message} (h : m.IsAppendOnly) {limit : Nat}
    (hl : (Frame.mk m.typeCode m.body).size ≤ Frame.effectiveLimit limit) :
    ∃ wire, (Frame.mk m.typeCode m.body).encode = .ok wire ∧ m.encode limit = .framed wire := by
  have hd := draft_of_isAppendOnly h
  have hlen : m.draft.length = m.body.length + 6 := by
    rw [hd]; simp; omega
  have hw : m.body.length + 6 ≤ Frame.wireLimit := by
    have := Nat.le_trans hl (Nat.min_le_right _ _)
    simp only [Frame.size, Frame.headerSize] at this
    omega
  refine ⟨_, Frame.encode_eq_ok_iff.2 ⟨by simp only; omega, rfl⟩, encode_eq_framed_iff.2 ?_⟩
  refine ⟨h.2, by omega, ?_, ?_⟩
  · simp only [Frame.size, Frame.headerSize] at hl
    omega
  · rw [hlen, hd]
    simp [List.append_assoc]

theorem encode_ofBody {typeCode : UInt16} {body : Bytes} {limit : Nat}
    (hl : (Frame.mk typeCode body).size ≤ Frame.effectiveLimit limit) :
    ∃ wire, (Frame.mk typeCode body).encode = .ok wire ∧
      (ofBody typeCode body).encode limit = .framed wire := by
  have hb : (ofBody typeCode body).body = body := by simp [ofBody, Message.body]
  have ha : (ofBody typeCode body).IsAppendOnly := ⟨rfl, rfl⟩
  have h := encode_of_isAppendOnly ha (by rw [hb]; exact hl)
  rwa [hb] at h

end Message

/-- What a sender hands to a session. -/
inductive Payload
  /-- A finished frame, written as it is. -/
  | buffer (wire : Bytes)
  /-- A message that the session frames. -/
  | message (m : Message)
  deriving Repr

namespace Payload

/-- The bytes a session with this limit would write for the payload. -/
def encode (p : Payload) (limit : Nat) : Encoding :=
  match p with
  | .message m => m.encode limit
  | .buffer wire =>
    if limit < wire.length then .refused (.frameTooLarge wire.length limit) else .framed wire

end Payload

end PeerLink
