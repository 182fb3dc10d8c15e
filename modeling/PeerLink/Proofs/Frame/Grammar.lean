import PeerLink.Proofs.Frame.Stream

/-!
# The grammar of frames

Bytes that arrive are read as a number of frames within the limit and a rest at
which reading stops.  The first four bytes of the rest alone say why: they announce
a frame beyond the limit, or one without room for a type code, or they announce a
good frame that has not arrived as a whole, or there are not even four of them.

The three reasons exclude each other and none of them is met by bytes that begin
with a whole frame, so there is just one such reading, and the decoder finds it.

## Main results

* `Frame.decode_eq_incomplete_iff`, `Frame.decode_eq_failed_iff`,
  `Frame.decode_eq_frame_iff` — what the decoder finds at the front of bytes, in
  terms of the length field and of written frames.
* `Frame.decoding_is_the_only_parse` — decoding finds the only way of reading bytes
  as frames, and takes back what was written.
-/

namespace PeerLink.Frame

variable {limit : Nat} {bytes rest : Bytes} {f : Frame} {fs : List Frame}

/-! ## What stands at the front -/

/-- The number that the length field at the front of `bytes` stands for. -/
def announced (bytes : Bytes) : Nat := Bytes.toNat (bytes.take 4)

/-- The length field announces a frame beyond the limit. -/
def Oversized (limit : Nat) (bytes : Bytes) : Prop :=
  4 ≤ bytes.length ∧ effectiveLimit limit < announced bytes + 4

/-- The length field is within the limit, and leaves no room for a type code. -/
def Undersized (limit : Nat) (bytes : Bytes) : Prop :=
  4 ≤ bytes.length ∧ announced bytes + 4 ≤ effectiveLimit limit ∧ announced bytes < 2

/-- There is no whole length field, or there is a good one and not all the bytes that
it announces. -/
def Unfinished (limit : Nat) (bytes : Bytes) : Prop :=
  bytes.length < 4 ∨ announced bytes + 4 ≤ effectiveLimit limit ∧ 2 ≤ announced bytes ∧
    bytes.length < announced bytes + 4

instance (limit : Nat) (bytes : Bytes) : Decidable (Oversized limit bytes) :=
  inferInstanceAs (Decidable (_ ∧ _))

instance (limit : Nat) (bytes : Bytes) : Decidable (Undersized limit bytes) :=
  inferInstanceAs (Decidable (_ ∧ _))

instance (limit : Nat) (bytes : Bytes) : Decidable (Unfinished limit bytes) :=
  inferInstanceAs (Decidable (_ ∨ _))

/-- The decoder looks at the length field and at the number of bytes. -/
theorem decode_eq (limit : Nat) (bytes : Bytes) :
    decode limit bytes =
      if bytes.length < 4 then .incomplete
      else if effectiveLimit limit < announced bytes + 4 then
        .failed (.frameTooLarge (announced bytes + 4) (effectiveLimit limit))
      else if announced bytes < 2 then .failed .malformed
      else if bytes.length < announced bytes + 4 then .incomplete
      else .frame ⟨UInt16.ofNat (Bytes.toNat (((bytes.drop 4).take (announced bytes)).take 2)),
        ((bytes.drop 4).take (announced bytes)).drop 2⟩
        ((bytes.drop 4).drop (announced bytes)) := by
  have hfield : (bytes.take 4).length < 4 ↔ bytes.length < 4 := by
    rw [List.length_take]
    omega
  have hcontent (h : ¬ bytes.length < 4) :
      ((bytes.drop 4).take (announced bytes)).length < announced bytes ↔
        bytes.length < announced bytes + 4 := by
    rw [List.length_take, List.length_drop]
    omega
  unfold decode
  by_cases hfour : bytes.length < 4
  · rw [if_pos hfour]
    exact if_pos (hfield.2 hfour)
  · have hcontent := hcontent hfour
    unfold announced at hcontent ⊢
    simp only [hfield, if_neg hfour, hcontent]

theorem decode_eq_incomplete_iff : decode limit bytes = .incomplete ↔ Unfinished limit bytes := by
  rw [decode_eq, Unfinished]
  split
  · simp [*]
  · split
    · simp
      omega
    · split
      · simp
        omega
      · split
        · simp
          omega
        · simp
          omega

theorem decode_eq_failed_iff {e : TransportError} :
    decode limit bytes = .failed e ↔
      Oversized limit bytes ∧
          e = .frameTooLarge (announced bytes + 4) (effectiveLimit limit) ∨
        Undersized limit bytes ∧ e = .malformed := by
  rw [decode_eq, Oversized, Undersized]
  split
  · simp
    omega
  · split
    · simp only [Decoded.failed.injEq]
      constructor
      · rintro rfl
        exact .inl ⟨by omega, rfl⟩
      · rintro (⟨-, rfl⟩ | ⟨h, -⟩)
        · rfl
        · omega
    · split
      · simp only [Decoded.failed.injEq]
        constructor
        · rintro rfl
          exact .inr ⟨by omega, rfl⟩
        · rintro (⟨h, -⟩ | ⟨-, rfl⟩)
          · omega
          · rfl
      · split
        · simp
          omega
        · simp
          omega

/-- A frame that is found is a written frame at the front. -/
private theorem encode_of_decode (h : decode limit bytes = .frame f rest) :
    ∃ wire, f.encode = .ok wire ∧ f.size ≤ effectiveLimit limit ∧ bytes = wire ++ rest := by
  rw [decode_eq] at h
  split at h
  · cases h
  split at h
  · cases h
  split at h
  · cases h
  split at h
  · cases h
  rename_i hfour hlimit hcode hwhole
  obtain ⟨rfl, rfl⟩ := Decoded.frame.inj h
  have hfield : (bytes.take 4).length = 4 := by
    rw [List.length_take]
    omega
  have hcontent : ((bytes.drop 4).take (announced bytes)).length = announced bytes := by
    rw [List.length_take, List.length_drop]
    omega
  generalize hc : (bytes.drop 4).take (announced bytes) = content at hcontent
  have htype : (content.take 2).length = 2 := by
    rw [List.length_take]
    omega
  have hsize : (content.drop 2).length + 2 = announced bytes := by
    rw [List.length_drop]
    omega
  have hle : announced bytes ≤ wireLimit := by
    have := Nat.min_le_right limit wireLimit
    unfold effectiveLimit at hlimit
    omega
  refine ⟨_, encode_eq_ok_iff.2 ⟨?_, rfl⟩, ?_, ?_⟩
  · simp only [hsize]
    exact hle
  · simp only [size, headerSize]
    omega
  · have hnumber : Bytes.ofNat 4 (announced bytes) = bytes.take 4 := by
      have := Bytes.ofNat_toNat (bytes.take 4)
      rwa [hfield] at this
    have hlt : Bytes.toNat (content.take 2) < 65536 := by
      have := Bytes.toNat_lt (content.take 2)
      rwa [htype] at this
    have hbytes : Bytes.ofNat 2 (UInt16.ofNat (Bytes.toNat (content.take 2))).toNat =
        content.take 2 := by
      rw [UInt16.toNat_ofNat_of_lt' hlt]
      have := Bytes.ofNat_toNat (content.take 2)
      rwa [htype] at this
    simp only [hsize, hnumber, hbytes]
    rw [List.append_assoc, List.append_assoc, ← List.append_assoc (content.take 2),
      List.take_append_drop, ← hc, List.take_append_drop, List.take_append_drop]

theorem decode_eq_frame_iff :
    decode limit bytes = .frame f rest ↔
      ∃ wire, f.encode = .ok wire ∧ f.size ≤ effectiveLimit limit ∧ bytes = wire ++ rest := by
  constructor
  · exact encode_of_decode
  · rintro ⟨wire, hwire, hsize, rfl⟩
    exact decode_encode_append rest hwire hsize

/-! ## Frames on the wire -/

/-- Frames on the wire, one after the other. -/
def encodeAll : List Frame → Except TransportError Bytes
  | [] => .ok []
  | f :: fs => do
    let wire ← f.encode
    let others ← encodeAll fs
    return wire ++ others

theorem encodeAll_cons_eq_ok_iff :
    encodeAll (f :: fs) = .ok bytes ↔
      ∃ wire others, f.encode = .ok wire ∧ encodeAll fs = .ok others ∧ bytes = wire ++ others := by
  rw [encodeAll]
  cases hf : f.encode with
  | error e => simp [bind, Except.bind]
  | ok wire =>
      cases hfs : encodeAll fs with
      | error e => simp [bind, Except.bind]
      | ok others => simp [bind, Except.bind, pure, Except.pure, eq_comm]

theorem stream_iff :
    Stream limit fs bytes ↔
      encodeAll fs = .ok bytes ∧ ∀ f ∈ fs, f.size ≤ effectiveLimit limit := by
  constructor
  · intro h
    induction h with
    | nil => exact ⟨rfl, nofun⟩
    | cons hf hl _ ih =>
        exact ⟨encodeAll_cons_eq_ok_iff.2 ⟨_, _, hf, ih.1, rfl⟩, List.forall_mem_cons.2 ⟨hl, ih.2⟩⟩
  · rintro ⟨hbytes, hsize⟩
    induction fs generalizing bytes with
    | nil =>
        obtain rfl := Except.ok.inj hbytes
        exact .nil
    | cons f fs ih =>
        obtain ⟨hl, hsize⟩ := List.forall_mem_cons.1 hsize
        obtain ⟨wire, others, hf, hfs, rfl⟩ := encodeAll_cons_eq_ok_iff.1 hbytes
        exact .cons hf hl (ih hfs hsize)

/-- Frames within the limit can be written. -/
theorem exists_encodeAll (h : ∀ f ∈ fs, f.size ≤ effectiveLimit limit) :
    ∃ wire, encodeAll fs = .ok wire := by
  induction fs with
  | nil => exact ⟨[], rfl⟩
  | cons f fs ih =>
      obtain ⟨hl, hfs⟩ := List.forall_mem_cons.1 h
      obtain ⟨others, hothers⟩ := ih hfs
      have hcounted : f.body.length + 2 ≤ wireLimit := by
        have := Nat.min_le_right limit wireLimit
        simp only [size, headerSize, effectiveLimit] at hl
        omega
      exact ⟨_, encodeAll_cons_eq_ok_iff.2
        ⟨_, others, encode_eq_ok_iff.2 ⟨hcounted, rfl⟩, hothers, rfl⟩⟩

/-- Each written frame takes at least a header. -/
theorem Stream.headers_le (h : Stream limit fs bytes) :
    headerSize * fs.length ≤ bytes.length := by
  induction h with
  | nil => simp
  | cons hf _ _ ih =>
      rw [List.length_cons, List.length_append, length_encode hf, size, Nat.mul_add_one]
      omega

theorem Stream.decodeAll_append (h : Stream limit fs bytes) (rest : Bytes) :
    Frame.decodeAll limit (bytes ++ rest) = (Frame.decodeAll limit rest).after fs :=
  Frame.decodeAll_append h.decodeAll rest

/-- Decoding leaves off behind a number of written frames. -/
theorem exists_stream (limit : Nat) (bytes : Bytes) :
    ∃ front, Stream limit (decodeAll limit bytes).frames front ∧
      bytes = front ++ (decodeAll limit bytes).rest := by
  induction hn : bytes.length using Nat.strongRecOn generalizing bytes with
  | ind n ih =>
      cases hd : decode limit bytes with
      | incomplete =>
          rw [decodeAll_of_incomplete hd]
          exact ⟨[], .nil, rfl⟩
      | failed e =>
          rw [decodeAll_of_failed hd]
          exact ⟨[], .nil, rfl⟩
      | frame f tail =>
          obtain ⟨wire, hwire, hsize, rfl⟩ := decode_eq_frame_iff.1 hd
          obtain ⟨front, hstream, htail⟩ := ih _ (hn ▸ length_lt_of_decode hd) tail rfl
          rw [decodeAll_of_frame hd]
          refine ⟨wire ++ front, .cons hwire hsize hstream, ?_⟩
          rw [List.append_assoc, ← htail]

/-- A reader with a limit of its own finds the first frames of a stream in a part of it,
and nothing else. -/
theorem Stream.frames_isPrefix {reading : Nat} {part : Bytes} (h : Stream limit fs bytes)
    (hpart : part <+: bytes) : (Frame.decodeAll reading part).frames <+: fs := by
  induction h generalizing part with
  | nil =>
      obtain rfl := List.prefix_nil.1 hpart
      simp [Stream.decodeAll .nil]
  | cons hf hl hs ih =>
      rename_i f fs wire bytes
      cases hd : decode reading part with
      | incomplete =>
          rw [decodeAll_of_incomplete hd]
          exact List.nil_prefix
      | failed e =>
          rw [decodeAll_of_failed hd]
          exact List.nil_prefix
      | frame g rest =>
          obtain ⟨wire', hg, hsize, rfl⟩ := decode_eq_frame_iff.1 hd
          obtain ⟨more, hmore⟩ := hpart
          -- read without a limit, the stream begins with either frame
          have hwide {limit : Nat} : effectiveLimit limit ≤ effectiveLimit wireLimit := by
            simp only [effectiveLimit]
            omega
          have hfirst := decode_encode_append bytes hf (Nat.le_trans hl hwide)
          rw [← hmore, List.append_assoc,
            decode_encode_append (rest ++ more) hg (Nat.le_trans hsize hwide)] at hfirst
          obtain ⟨rfl, hrest⟩ := Decoded.frame.inj hfirst
          rw [decodeAll_of_frame hd]
          exact List.cons_prefix_cons.2 ⟨rfl, ih ⟨more, hrest⟩⟩

/-! ## The one reading -/

/-- A way of reading `bytes`: as frames within the limit and a rest, with the reason
why reading stops at the rest. -/
structure Parse (limit : Nat) (bytes : Bytes) (d : Decoding) : Prop where
  frames : ∃ front, encodeAll d.frames = .ok front ∧ bytes = front ++ d.rest
  size_le : ∀ f ∈ d.frames, f.size ≤ effectiveLimit limit
  /-- Reading waits for more, or is refused for one of two reasons. -/
  stops : d.failure = none ∨ d.failure = some .malformed ∨
    ∃ size bound, d.failure = some (.frameTooLarge size bound)
  frameTooLarge_iff : ∀ size bound, d.failure = some (.frameTooLarge size bound) ↔
    Oversized limit d.rest ∧ size = announced d.rest + 4 ∧ bound = effectiveLimit limit
  malformed_iff : d.failure = some .malformed ↔ Undersized limit d.rest
  waiting_iff : d.failure = none ↔ Unfinished limit d.rest

/-- Where decoding stops, the decoder gives the reason. -/
theorem failure_decodeAll (limit : Nat) (bytes : Bytes) :
    (∀ e, (decodeAll limit bytes).failure = some e ↔
      decode limit (decodeAll limit bytes).rest = .failed e) ∧
    ((decodeAll limit bytes).failure = none ↔
      decode limit (decodeAll limit bytes).rest = .incomplete) := by
  have h := decodeAll_rest limit bytes
  generalize (decodeAll limit bytes).failure = failure at h ⊢
  generalize (decodeAll limit bytes).rest = rest at h ⊢
  cases hd : decode limit rest with
  | incomplete =>
      rw [decodeAll_of_incomplete hd] at h
      obtain ⟨-, rfl, -⟩ := Decoding.mk.inj h
      simp
  | failed e =>
      rw [decodeAll_of_failed hd] at h
      obtain ⟨-, rfl, -⟩ := Decoding.mk.inj h
      simp
  | frame f tail =>
      rw [decodeAll_of_frame hd] at h
      cases (Decoding.mk.inj h).1

theorem parse_decodeAll (limit : Nat) (bytes : Bytes) :
    Parse limit bytes (decodeAll limit bytes) := by
  obtain ⟨front, hstream, hbytes⟩ := exists_stream limit bytes
  obtain ⟨hfront, hsize⟩ := stream_iff.1 hstream
  obtain ⟨hfailed, hwaiting⟩ := failure_decodeAll limit bytes
  refine ⟨⟨front, hfront, hbytes⟩, hsize, ?_, ?_, ?_, ?_⟩
  · cases hfailure : (decodeAll limit bytes).failure with
    | none => exact .inl rfl
    | some e =>
        rcases decode_eq_failed_iff.1 ((hfailed e).1 hfailure) with ⟨-, rfl⟩ | ⟨-, rfl⟩
        · exact .inr (.inr ⟨_, _, rfl⟩)
        · exact .inr (.inl rfl)
  · intro size bound
    rw [hfailed, decode_eq_failed_iff]
    simp
  · rw [hfailed, decode_eq_failed_iff]
    simp
  · rw [hwaiting, decode_eq_incomplete_iff]

theorem Parse.eq_decodeAll {d : Decoding} (h : Parse limit bytes d) :
    d = decodeAll limit bytes := by
  obtain ⟨front, hfront, rfl⟩ := h.frames
  have hstream : Stream limit d.frames front := stream_iff.2 ⟨hfront, h.size_le⟩
  have hstop : decodeAll limit d.rest = ⟨[], d.failure, d.rest⟩ := by
    rcases h.stops with hnone | hmalformed | ⟨size, bound, hlarge⟩
    · rw [hnone]
      exact decodeAll_of_incomplete (decode_eq_incomplete_iff.2 (h.waiting_iff.1 hnone))
    · rw [hmalformed]
      exact decodeAll_of_failed
        (decode_eq_failed_iff.2 (.inr ⟨h.malformed_iff.1 hmalformed, rfl⟩))
    · obtain ⟨hoversized, rfl, rfl⟩ := (h.frameTooLarge_iff size bound).1 hlarge
      rw [hlarge]
      exact decodeAll_of_failed (decode_eq_failed_iff.2 (.inl ⟨hoversized, rfl⟩))
  rw [hstream.decodeAll_append, hstop]
  simp [Decoding.after]

/-- Decoding any bytes to the end reads them as frames within the limit and a rest,
with the reason why reading stops there; there is no other way of reading them so.
It takes no more rounds than headers fit in, and gives back any frames within the
limit that were written. -/
theorem decoding_is_the_only_parse (limit : Nat) (bytes : Bytes) :
    Parse limit bytes (decodeAll limit bytes) ∧
      (∀ d, Parse limit bytes d → d = decodeAll limit bytes) ∧
      headerSize * (decodeAll limit bytes).frames.length +
        (decodeAll limit bytes).rest.length ≤ bytes.length ∧
      ∀ fs : List Frame, (∀ f ∈ fs, f.size ≤ effectiveLimit limit) →
        ∃ wire, encodeAll fs = .ok wire ∧ decodeAll limit wire = ⟨fs, none, []⟩ := by
  refine ⟨parse_decodeAll limit bytes, fun d hd => hd.eq_decodeAll, ?_, fun fs hfs => ?_⟩
  · obtain ⟨front, hstream, hbytes⟩ := exists_stream limit bytes
    have hlength := congrArg List.length hbytes
    rw [List.length_append] at hlength
    have hheaders := hstream.headers_le
    omega
  · obtain ⟨wire, hwire⟩ := exists_encodeAll hfs
    exact ⟨wire, hwire, (stream_iff.2 ⟨hwire, hfs⟩).decodeAll⟩

/-- Two frames, the second as large as the limit allows, and a length field that
leaves no room for a type code. -/
theorem two_frames_and_a_stub_parse :
    Parse 8 [0, 0, 0, 2, 0, 5, 0, 0, 0, 4, 1, 0, 7, 8, 0, 0, 0, 1]
        ⟨[⟨5, []⟩, ⟨256, [7, 8]⟩], some .malformed, [0, 0, 0, 1]⟩ ∧
      decodeAll 8 [0, 0, 0, 2, 0, 5, 0, 0, 0, 4, 1, 0, 7, 8, 0, 0, 0, 1] =
        ⟨[⟨5, []⟩, ⟨256, [7, 8]⟩], some .malformed, [0, 0, 0, 1]⟩ := by
  have hparse : Parse 8 [0, 0, 0, 2, 0, 5, 0, 0, 0, 4, 1, 0, 7, 8, 0, 0, 0, 1]
      ⟨[⟨5, []⟩, ⟨256, [7, 8]⟩], some .malformed, [0, 0, 0, 1]⟩ := by
    have hlarge : ¬ Oversized 8 [0, 0, 0, 1] := by decide
    have hsmall : Undersized 8 [0, 0, 0, 1] := by decide
    have hwhole : ¬ Unfinished 8 [0, 0, 0, 1] := by decide
    exact ⟨⟨_, rfl, rfl⟩, by decide, .inr (.inl rfl), by simp [hlarge], by simp [hsmall],
      by simp [hwhole]⟩
  exact ⟨hparse, ((decoding_is_the_only_parse 8 _).2.1 _ hparse).symm⟩

end PeerLink.Frame
