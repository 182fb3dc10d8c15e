import PeerLink.Proofs.Frame.Drafts
import PeerLink.Proofs.Session.Declined

/-!
# Two ways to hand over a frame

A frame may be handed to a session as it is, written by whoever sends it, or as a
message that the session frames.  The first way compares the bytes with the limit of
the session, the second compares the draft of the message, and a receiver compares
the length field that arrives.  They all measure the whole frame.

That the first two agree depends on the limit of the session being one that the
length field can hold, which is what starting the session sees to: beyond that, the
message would be refused and the buffer would not.

## Main results

* `Payload.encode_alike` — both ways are refused, or give the same bytes.
* `Session.startSend_alike` — a session tells no difference between them.
* `Run.both_ways_measure_alike` — what a session does with a frame, at any moment of
  any run, and what decoders make of it.
-/

namespace PeerLink

variable {limit : Nat} {f : Frame} {wire : Bytes}

/-- The message that is nothing but the body of a frame. -/
def Frame.asMessage (f : Frame) : Message := .ofBody f.typeCode f.body

/-! ## Framing -/

theorem Frame.length_draft_asMessage (f : Frame) : f.asMessage.draft.length = f.size := by
  have happend : f.asMessage.IsAppendOnly := ⟨rfl, rfl⟩
  have hbody : f.asMessage.body = f.body := by simp [asMessage, Message.ofBody, Message.body]
  rw [Message.draft_of_isAppendOnly happend, hbody, size, headerSize]
  simp only [List.length_append, Bytes.length_ofNat]

/-- What a session refuses as a buffer it refuses as a message, with the same failure. -/
theorem Payload.refused_alike (hwire : f.encode = .ok wire) {e : TransportError} :
    (∀ p, p = .buffer wire ∨ p = .message f.asMessage →
      (Payload.Refused limit p e ↔ limit < f.size ∧ e = .frameTooLarge f.size limit)) := by
  rintro p (rfl | rfl)
  · rw [← Frame.length_encode hwire]
    constructor
    · intro h
      cases h with
      | longBuffer h => exact ⟨h, rfl⟩
    · rintro ⟨h, rfl⟩
      exact .longBuffer h
  · rw [← f.length_draft_asMessage]
    constructor
    · intro h
      cases h with
      | unwritten h => cases h
      | longMessage hf h => exact ⟨h, rfl⟩
    · rintro ⟨h, rfl⟩
      exact .longMessage rfl h

/-- Both ways give the bytes of the frame, if they are within the limit. -/
theorem Payload.encode_of_fits (hwire : f.encode = .ok wire) (hlimit : limit ≤ Frame.wireLimit)
    (hsize : f.size ≤ limit) :
    (Payload.buffer wire).encode limit = .framed wire ∧
      (Payload.message f.asMessage).encode limit = .framed wire := by
  have heffective : Frame.effectiveLimit limit = limit := Nat.min_eq_left hlimit
  constructor
  · refine if_neg ?_
    rw [Frame.length_encode hwire]
    omega
  · obtain ⟨wire', hwire', hframed⟩ := @Message.encode_ofBody f.typeCode f.body limit
      (by rw [heffective]; exact hsize)
    obtain rfl := Except.ok.inj (hwire.symm.trans hwire')
    exact hframed

/-- A buffer and a message with the same frame are framed alike. -/
theorem Payload.encode_alike (hwire : f.encode = .ok wire) (hlimit : limit ≤ Frame.wireLimit) :
    (Payload.buffer wire).encode limit = (Payload.message f.asMessage).encode limit := by
  by_cases hsize : f.size ≤ limit
  · obtain ⟨hbuffer, hmessage⟩ := encode_of_fits hwire hlimit hsize
    rw [hbuffer, hmessage]
  · have hlong : limit < f.size ∧
        TransportError.frameTooLarge f.size limit = .frameTooLarge f.size limit :=
      ⟨Nat.lt_of_not_le hsize, rfl⟩
    rw [encode_of_refused hlimit ((refused_alike hwire _ (.inl rfl)).2 hlong),
      encode_of_refused hlimit ((refused_alike hwire _ (.inr rfl)).2 hlong)]

/-! ## Sending -/

namespace Session

variable {s : Session}

/-- A send of either kind finds the same when it looks at the session. -/
theorem startSend_alike (hwire : f.encode = .ok wire) (hlimit : s.frameLimit ≤ Frame.wireLimit) :
    s.startSend (.buffer wire) = s.startSend (.message f.asMessage) := by
  unfold startSend
  rw [Payload.encode_alike hwire hlimit]

/-- A session that is open takes a frame on exactly if it is within the limit. -/
theorem declines_frame_iff (hwire : f.encode = .ok wire) (hopen : s.closed = false)
    {e : TransportError} :
    s.Declines limit (.buffer wire) e ↔ limit < f.size ∧ e = .frameTooLarge f.size limit := by
  rw [Declines, hopen]
  exact Payload.refused_alike hwire _ (.inl rfl)

end Session

namespace Run

variable {w : Run}

/-- A frame within the limit is taken on by an open session: its bytes enter the queue. -/
theorem Reached.send_of_fits (h : w.Reached) (hwire : f.encode = .ok wire)
    (hopen : w.session.closed = false) (hsize : f.size ≤ w.session.frameLimit) :
    w.session.startSend (.buffer wire) = .framed wire ∧
      ∃ s, w.session.send (.buffer wire) w.clock = some (w.session.board.size, s) ∧
        s.queue = w.session.queue ++ [⟨wire, w.session.board.size⟩] ∧
        s.board.result? w.session.board.size = none := by
  have hstart : w.session.startSend (.buffer wire) = .framed wire := by
    obtain ⟨hbuffer, -⟩ := Payload.encode_of_fits hwire h.frameLimit_le hsize
    simp [Session.startSend, hopen, hbuffer]
  have hsend : w.session.send (.buffer wire) w.clock = some (w.session.board.size,
      { w.session with
        board := w.session.board.push .pending
        stamps := w.session.stamps.touchSchedule w.clock
        queue := w.session.queue ++ [⟨wire, w.session.board.size⟩] }) := by
    simp only [Session.send, hstart, Session.enqueue_of_open (h.queueClosed_of_open hopen)]
  exact ⟨hstart, _, hsend, rfl, (Board.result?_push _ _ _).trans (if_pos rfl)⟩

/-- A frame beyond the limit is declined by an open session. -/
theorem Reached.send_of_exceeds (h : w.Reached) (hwire : f.encode = .ok wire)
    (hopen : w.session.closed = false) (hsize : w.session.frameLimit < f.size) :
    ∃ s, w.session.send (.buffer wire) w.clock = some (w.session.board.size, s) ∧
      s.queue = w.session.queue ∧ s.board.result? w.session.board.size =
        some (.error (.frameTooLarge f.size w.session.frameLimit)) := by
  obtain ⟨journal, hstart⟩ := Session.startSend_of_declines h.frameLimit_le
    ((Session.declines_frame_iff hwire hopen).2 ⟨hsize, rfl⟩)
  have hsend : w.session.send (.buffer wire) w.clock = some (w.session.board.size,
      { w.session with
        board := w.session.board.push
          (.resolved (.error (.frameTooLarge f.size w.session.frameLimit)))
        journal := journal }) := by
    simp only [Session.send, hstart]
  exact ⟨_, hsend, rfl, (Board.result?_push _ _ _).trans (if_pos rfl)⟩

/-- A frame that was written is handed over as it is or as a message: at each moment of
a run the session treats both alike.  While it is open, the same bytes enter the queue
or both are refused for the size of the whole frame.  A decoder whose limit is at least
that size takes a frame that was taken on back, and one with a smaller limit refuses it
for that size. -/
theorem both_ways_measure_alike {label : String} {remote : Option Address}
    {config : SessionConfig} {now : Duration} (hs : Steps (start label remote config now) w)
    (hwire : f.encode = .ok wire) :
    (w.session.startSend (.buffer wire) = w.session.startSend (.message f.asMessage) ∧
      w.session.send (.buffer wire) w.clock =
        w.session.send (.message f.asMessage) w.clock) ∧
    (w.session.closed = false → f.size ≤ Frame.effectiveLimit config.maxFrameSize →
      w.session.startSend (.buffer wire) = .framed wire ∧
      ∃ s, w.session.send (.buffer wire) w.clock = some (w.session.board.size, s) ∧
        s.queue = w.session.queue ++ [⟨wire, w.session.board.size⟩] ∧
        s.board.result? w.session.board.size = none) ∧
    (w.session.closed = false → Frame.effectiveLimit config.maxFrameSize < f.size →
      ∃ s, w.session.send (.buffer wire) w.clock = some (w.session.board.size, s) ∧
        s.queue = w.session.queue ∧ s.board.result? w.session.board.size =
          some (.error (.frameTooLarge f.size (Frame.effectiveLimit config.maxFrameSize)))) ∧
    (f.size ≤ Frame.effectiveLimit config.maxFrameSize → ∀ reading, f.size ≤ reading →
      Frame.decodeAll reading wire = ⟨[f], none, []⟩) ∧
    ∀ reading, Frame.effectiveLimit reading < f.size →
      Frame.decode reading wire =
        .failed (.frameTooLarge f.size (Frame.effectiveLimit reading)) := by
  have h : w.Reached := ⟨_, .start label remote config now, hs⟩
  have hstart := Session.startSend_alike hwire h.frameLimit_le
  rw [← frameLimit_start label remote config now, ← frameLimit_of_steps hs]
  refine ⟨⟨hstart, ?_⟩, h.send_of_fits hwire, h.send_of_exceeds hwire, ?_, ?_⟩
  · simp only [Session.send, hstart]
  · intro hsize reading hreading
    have hfits : f.size ≤ Frame.effectiveLimit reading :=
      Nat.le_min.2 ⟨hreading, Nat.le_trans hsize h.frameLimit_le⟩
    have hone : Frame.Stream reading [f] (wire ++ []) := .cons hwire hfits .nil
    rw [List.append_nil] at hone
    exact hone.decodeAll
  · intro reading hreading
    have hrefused := Frame.decode_of_lt_size hwire hreading []
    rwa [List.append_nil] at hrefused

/-- A session with a limit of eight bytes whose reader waits for the stream. -/
def narrow : Run := (start "1" none { maxFrameSize := 8 } default).after [.read, .read]

/-- A body of two bytes just fits, and one of three does not. -/
theorem narrow_measures_alike :
    (∃ s, narrow.session.send (.message (Frame.mk 256 [7, 8]).asMessage) narrow.clock =
        some (0, s) ∧ s.queue = [⟨[0, 0, 0, 4, 1, 0, 7, 8], 0⟩]) ∧
      Frame.decodeAll 8 [0, 0, 0, 4, 1, 0, 7, 8] = ⟨[⟨256, [7, 8]⟩], none, []⟩ ∧
      (∃ s, narrow.session.send (.message (Frame.mk 256 [7, 8, 9]).asMessage) narrow.clock =
        some (0, s) ∧ s.board.result? 0 = some (.error (.frameTooLarge 9 8))) ∧
      Frame.decode 8 [0, 0, 0, 5, 1, 0, 7, 8, 9] = .failed (.frameTooLarge 9 8) := by
  have hsteps : Steps (start "1" none { maxFrameSize := 8 } default) narrow := steps_after _ _
  have htwo : (Frame.mk 256 [7, 8]).encode = .ok [0, 0, 0, 4, 1, 0, 7, 8] := rfl
  have hthree : (Frame.mk 256 [7, 8, 9]).encode = .ok [0, 0, 0, 5, 1, 0, 7, 8, 9] := rfl
  obtain ⟨⟨-, hfits⟩, htaken, -, hback, -⟩ := both_ways_measure_alike hsteps htwo
  obtain ⟨⟨-, hlong⟩, -, hdeclined, -, hrefused⟩ := both_ways_measure_alike hsteps hthree
  obtain ⟨-, s, hsend, hqueue, -⟩ := htaken rfl (by decide)
  obtain ⟨s', hsend', -, hresult⟩ := hdeclined rfl (by decide)
  rw [hfits] at hsend
  rw [hlong] at hsend'
  exact ⟨⟨s, hsend, hqueue⟩, hback (by decide) 8 (by decide), ⟨s', hsend', hresult⟩,
    hrefused 8 (by decide)⟩

end Run

end PeerLink
