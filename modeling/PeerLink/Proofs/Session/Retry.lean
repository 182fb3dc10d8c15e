import PeerLink.Proofs.Frame.Grammar
import PeerLink.Proofs.Session.Joined

/-!
# Sending again

A caller whose send has failed may send the same again on another session.  It arrives
twice if the peer has got it from the first session all the same.

It has not.  The peer emits a frame when it has all the bytes of it, and so the near
writer has put all of them out (`Joined.Reached.putOut_of_emitted`).  A failed write
leaves bytes behind, nothing follows them on the wire, and a request that was given up
was never put out.  So an operation whose bytes are all out has not failed
(`Run.Reached.result_of_putOut`).

Neither session needs to know the other's limit for frames.

## Main results

* `Joined.Reached.emitted_isPrefix` — the far session emits the first of the frames
  that the near one took on.
* `Joined.failed_sends_are_not_emitted` — a frame whose operation has failed is not
  emitted, then or later.
-/

namespace PeerLink

theorem Handover.Holds.bytes_ne_nil {limit : Nat} {x : Handover} {f : Frame}
    (h : x.Holds limit f) : x.request.bytes ≠ [] := by
  intro hnil
  have hlength := Frame.length_encode h.encode
  rw [hnil, Frame.size, Frame.headerSize, List.length_nil] at hlength
  omega

namespace Joined

variable {j j' : Joined} {frames : List Frame}

/-- The far session has emitted the frame of an operation of the near one.  Frames are
emitted in the order in which their requests entered the queue. -/
def Emits (j : Joined) (n : Nat) : Prop :=
  ∃ (k : Nat) (x : Handover) (f : Frame), j.far.emitted[k]? = some f ∧
    j.near.entered[k]? = some x ∧ x.request.operation = n

/-! ## What was emitted is out -/

theorem Reached.received_isPrefix (h : j.Reached) :
    j.far.received <+: j.near.wire :=
  ⟨j.pipe.buffer, h.linked.bytes.symm⟩

/-- The frames that the far session can make out are the first of those that the near
one took on. -/
private theorem Reached.decoded_isPrefix (h : j.Reached)
    (hall : List.Forall₂ (Handover.Holds j.near.session.frameLimit) j.near.entered frames) :
    (Frame.decodeAll j.far.session.frameLimit j.far.received).frames <+: frames := by
  obtain ⟨hnear, -⟩ := h.sessions
  exact (Handover.stream hall).frames_isPrefix
    (h.received_isPrefix.trans hnear.wire_isPrefix)

private theorem Reached.emitted_decoded (h : j.Reached) :
    j.far.emitted <+: (Frame.decodeAll j.far.session.frameLimit j.far.received).frames := by
  obtain ⟨-, hfar⟩ := h.sessions
  exact hfar.faithful.emitted.trans hfar.faithful.reported_isPrefix

theorem Reached.emitted_isPrefix (h : j.Reached)
    (hall : List.Forall₂ (Handover.Holds j.near.session.frameLimit) j.near.entered frames) :
    j.far.emitted <+: frames :=
  h.emitted_decoded.trans (h.decoded_isPrefix hall)

/-- When a frame is emitted, the near writer has put out everything up to its end. -/
theorem Reached.putOut_of_emitted (h : j.Reached)
    (hall : List.Forall₂ (Handover.Holds j.near.session.frameLimit) j.near.entered frames)
    {k : Nat} (hk : k < j.far.emitted.length) : j.near.PutOut k := by
  have hdecoded := h.decoded_isPrefix hall
  have hemitted := h.emitted_decoded
  obtain ⟨front, hstream, hreceived⟩ :=
    Frame.exists_stream j.far.session.frameLimit j.far.received
  generalize (Frame.decodeAll j.far.session.frameLimit j.far.received).frames = found
    at hdecoded hemitted hstream
  -- the bytes of the frames that were found are those of as many requests
  have hfront : (j.near.requests.take found.length).flatMap WriteRequest.bytes = front := by
    have hfound := Handover.stream (List.forall₂_take found.length hall)
    rw [← List.prefix_iff_eq_take.1 hdecoded, List.map_take] at hfound
    exact Except.ok.inj
      ((Frame.stream_iff.1 hfound).1.symm.trans (Frame.stream_iff.1 hstream).1)
  have hle : k + 1 ≤ found.length := Nat.le_trans hk hemitted.length_le
  obtain ⟨between, hbetween⟩ : j.near.requests.take (k + 1) <+:
      j.near.requests.take found.length := List.take_prefix_take_left hle
  have hout : (j.near.requests.take (k + 1)).flatMap WriteRequest.bytes <+: front := by
    rw [← hfront, ← hbetween, List.flatMap_append]
    exact List.prefix_append _ _
  have harrived : front <+: j.far.received := by
    rw [hreceived]
    exact List.prefix_append _ _
  exact hout.trans (harrived.trans h.received_isPrefix)

/-! ## What has failed is not emitted -/

/-- An emitted frame is that of the request with its number, all of which is out; its
operation has not failed. -/
theorem Reached.emitted_at (h : j.Reached)
    (hcarries : ∀ x ∈ j.near.entered, ∃ f, x.payload.Carries f)
    (hflush : ∀ b, j.near.broken = some b → b.left ≠ []) {k : Nat} {f : Frame}
    (hf : j.far.emitted[k]? = some f) :
    ∃ x, j.near.entered[k]? = some x ∧ x.payload.Carries f ∧
      f.encode = .ok x.request.bytes ∧ j.near.PutOut k ∧
      (j.near.session.board.result? x.request.operation = some .succeeded ∨
        j.near.session.board.result? x.request.operation = none) := by
  obtain ⟨hnear, -⟩ := h.sessions
  obtain ⟨frames, hall⟩ := hnear.frames hcarries
  have hk := (List.getElem?_eq_some_iff.1 hf).1
  have hframe : frames[k]? = some f := by
    obtain ⟨more, hmore⟩ := h.emitted_isPrefix hall
    rw [← hmore, List.getElem?_append_left hk, hf]
  have hlt := (List.getElem?_eq_some_iff.1 hframe).1
  have hentered : k < j.near.entered.length := by
    rw [hall.length_eq]
    exact hlt
  have hx := List.getElem?_eq_getElem hentered
  have hholds : (j.near.entered[k]).Holds j.near.session.frameLimit f := by
    have hget := hall.get hentered hlt
    rw [List.get_eq_getElem, List.get_eq_getElem,
      (List.getElem?_eq_some_iff.1 hframe).2] at hget
    exact hget
  have hout := h.putOut_of_emitted hall hk
  have hrequest : j.near.requests[k]? = some (j.near.entered[k]).request := by
    rw [Run.requests, List.getElem?_map, hx]
    rfl
  exact ⟨_, hx, hholds.carries, hholds.encode, hout,
    hnear.result_of_putOut hflush hrequest hholds.bytes_ne_nil hout⟩

/-- Let all that entered the near queue be frames, and let a failed write, if there was
one, have left bytes behind.  Then every frame that the far session has emitted is that
of the request with its number, whose bytes were all put out.  An operation that had
failed, at this moment or an earlier one, is not among them. -/
theorem failed_sends_are_not_emitted (h : j.Reached) (hs : Steps j j')
    (hcarries : ∀ x ∈ j'.near.entered, ∃ f, x.payload.Carries f)
    (hflush : ∀ b, j'.near.broken = some b → b.left ≠ []) :
    (∀ (k : Nat) (f : Frame), j'.far.emitted[k]? = some f →
      ∃ x, j'.near.entered[k]? = some x ∧ x.payload.Carries f ∧
        f.encode = .ok x.request.bytes ∧ j'.near.PutOut k) ∧
      ∀ (n : Nat) (e : TransportError),
        j.near.session.board.result? n = some (.error e) → ¬ j'.Emits n := by
  have hreached : j'.Reached := h.steps hs
  constructor
  · intro k f hf
    obtain ⟨x, hx, hcarried, hencode, hout, -⟩ := hreached.emitted_at hcarries hflush hf
    exact ⟨x, hx, hcarried, hencode, hout⟩
  · rintro n e hfailed ⟨k, x, f, hf, hx, rfl⟩
    have hstays := hs.sessions.1.extends _ _ hfailed
    obtain ⟨x', hx', -, -, -, hresult⟩ := hreached.emitted_at hcarries hflush hf
    obtain rfl := Option.some.inj (hx.symm.trans hx')
    rw [hstays] at hresult
    rcases hresult with hgood | hpending
    · cases hgood
    · cases hpending

/-- Three frames are sent, and the pipe breaks inside the second.  Its operation has
failed, and the last one was given up. -/
def torn : Joined :=
  after ⟨.start "1" none {} default, { capacity := 8 }, .start "2" none {} default⟩ <|
    [.near (.send (.buffer [0, 0, 0, 2, 0, 1])), .near (.look 0), .near (.enqueue 0),
      .near (.send (.buffer [0, 0, 0, 2, 0, 2])), .near (.look 1), .near (.enqueue 1),
      .near (.send (.buffer [0, 0, 0, 2, 0, 3])), .near (.look 2), .near (.enqueue 2),
      .near .take, .write, .near .write, .near .take, .write, .closeReading, .write] ++
    List.replicate 8 (.near .write)

/-- Then the far session reads all that is left in the pipe. -/
def salvaged : Joined :=
  torn.after [.far .read, .far .read, .read 64, .far .read, .far .read, .far .read, .read 64]

theorem torn_sends_are_not_salvaged :
    torn.near.session.board.result? 1 = some (.error (.io (.bare .brokenPipe))) ∧
      torn.near.session.board.result? 2 = some (.error .sessionClosed) ∧
      salvaged.far.stop = some .atEnd ∧ salvaged.far.emitted = [⟨1, []⟩] ∧
      salvaged.Emits 0 ∧ ¬ salvaged.Emits 1 ∧ ¬ salvaged.Emits 2 := by
  have hreached : torn.Reached :=
    ⟨_, ⟨.start _ _ _ _, .start _ _ _ _, rfl, rfl⟩, steps_after _ _⟩
  have hpayloads : salvaged.near.entered.map Handover.payload =
      [.buffer [0, 0, 0, 2, 0, 1], .buffer [0, 0, 0, 2, 0, 2],
        .buffer [0, 0, 0, 2, 0, 3]] := by rfl
  have hframes : ∀ p ∈ [Payload.buffer [0, 0, 0, 2, 0, 1], .buffer [0, 0, 0, 2, 0, 2],
      .buffer [0, 0, 0, 2, 0, 3]], ∃ f, p.Carries f := by
    have hcarries (n : UInt16) (wire : Bytes) (hn : (Frame.mk n []).encode = .ok wire) :
        ∃ f, (Payload.buffer wire).Carries f := ⟨_, .buffer hn⟩
    simp only [List.forall_mem_cons]
    exact ⟨hcarries 1 _ rfl, hcarries 2 _ rfl, hcarries 3 _ rfl, fun p hp => by cases hp⟩
  have hcarries : ∀ x ∈ salvaged.near.entered, ∃ f, x.payload.Carries f := by
    intro x hx
    refine hframes _ ?_
    rw [← hpayloads]
    exact List.mem_map_of_mem hx
  have hbroken : salvaged.near.broken =
      some ⟨⟨[0, 0, 0, 2, 0, 2], 1⟩, [0, 2, 0, 2], .bare .brokenPipe⟩ := rfl
  have hflush : ∀ b, salvaged.near.broken = some b → b.left ≠ [] := by
    intro b hb
    rw [hbroken] at hb
    obtain rfl := Option.some.inj hb
    exact List.cons_ne_nil _ _
  obtain ⟨-, hnever⟩ :=
    failed_sends_are_not_emitted hreached (steps_after torn _) hcarries hflush
  exact ⟨rfl, rfl, rfl, rfl, ⟨0, _, _, rfl, rfl, rfl⟩, hnever 1 _ rfl, hnever 2 _ rfl⟩

end Joined

end PeerLink
