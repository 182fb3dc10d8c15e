import Mathlib.Data.List.Forall2
import PeerLink.Proofs.Session.Reading
import PeerLink.Proofs.Session.Wire
import PeerLink.Session.Pipe

/-!
# Two sessions and a pipe between them

A pipe of any capacity carries the bytes of the near session to the far one.
The writer of the near session offers its bytes to the pipe, which takes what
fits; the reader of the far session asks the pipe for any number of bytes.
Either end of the pipe may be closed at any time, and everything else that may
happen to a session may happen to either of them, a failed write or a failed
read included.

The bytes that the far reader has received, and those in the pipe, are the
bytes that the near writer has put out (`Joined.Linked`).  With the invariants of
the two tasks it follows that frames arrive as they were sent.

## Main results

* `Joined.Reached.linked` — no byte is lost, added or moved between the two.
* `Joined.frames_arrive_in_order` — the far session reports the frames that the
  near one took on, in order, and all of them when it comes to the end.
-/

namespace PeerLink

/-! ## The frames that payloads stand for -/

/-- The payload is a message that only appends, or a finished frame. -/
inductive Payload.Carries : Payload → Frame → Prop
  | message (m : Message) (h : m.IsAppendOnly) : Carries (.message m) ⟨m.typeCode, m.body⟩
  | buffer {f : Frame} {wire : Bytes} (h : f.encode = .ok wire) : Carries (.buffer wire) f

/-- What is written for such a payload is its frame, within the limit. -/
theorem Payload.Carries.encode {p : Payload} {f : Frame} (h : p.Carries f) {limit : Nat}
    {bytes : Bytes} (hp : p.encode limit = .framed bytes) :
    f.encode = .ok bytes ∧ f.size ≤ limit := by
  cases h with
  | message m h =>
      have hframed := Message.encode_eq_framed_iff.1 hp
      have hdraft : m.draft.length = (Frame.mk m.typeCode m.body).size := by
        rw [Message.draft_of_isAppendOnly h]
        simp [Frame.size, Frame.headerSize]
        omega
      have hsize : (Frame.mk m.typeCode m.body).size ≤ Frame.effectiveLimit limit := by
        rw [← hdraft]
        exact hframed.2.2.1
      obtain ⟨wire, hencode, hwire⟩ := Message.encode_of_isAppendOnly h hsize
      have hsame : bytes = wire := by
        rw [show m.encode limit = .framed bytes from hp] at hwire
        exact Encoding.framed.inj hwire
      rw [hsame]
      exact ⟨hencode, Nat.le_trans hsize (Nat.min_le_left _ _)⟩
  | buffer h =>
      simp only [Payload.encode] at hp
      split at hp
      · cases hp
      · rename_i hlimit
        obtain rfl := Encoding.framed.inj hp
        rw [← Frame.length_encode h]
        exact ⟨h, by omega⟩

/-- The request was framed from a payload that stands for a frame. -/
structure Handover.Holds (limit : Nat) (x : Handover) (f : Frame) : Prop where
  carries : x.payload.Carries f
  encode : f.encode = .ok x.request.bytes
  size_le : f.size ≤ Frame.effectiveLimit limit

/-- Such requests make up a stream of frames. -/
theorem Handover.stream {limit : Nat} {handovers : List Handover} {frames : List Frame}
    (h : List.Forall₂ (Handover.Holds limit) handovers frames) :
    Frame.Stream limit frames
      ((handovers.map Handover.request).flatMap WriteRequest.bytes) := by
  induction h with
  | nil => exact .nil
  | cons hx _ ih => exact .cons hx.encode hx.size_le ih

/-- What entered the queue are frames, if the payloads are. -/
theorem Run.Reached.frames {w : Run} (h : w.Reached)
    (hcarries : ∀ x ∈ w.entered, ∃ f, x.payload.Carries f) :
    ∃ frames, List.Forall₂ (Handover.Holds w.session.frameLimit) w.entered frames := by
  have hholds : ∀ x ∈ w.entered, ∃ f, x.Holds w.session.frameLimit f := by
    intro x hx
    obtain ⟨f, hf⟩ := hcarries x hx
    obtain ⟨hencode, hsize⟩ := hf.encode (h.sends.framed x (List.mem_append_left _ hx))
    exact ⟨f, hf, hencode, Nat.le_min.2 ⟨hsize, Nat.le_trans hsize h.frameLimit_le⟩⟩
  generalize w.entered = handovers at hholds
  induction handovers with
  | nil => exact ⟨[], .nil⟩
  | cons x rest ih =>
      obtain ⟨⟨f, hf⟩, hrest⟩ := List.forall_mem_cons.1 hholds
      obtain ⟨frames, hall⟩ := ih hrest
      exact ⟨f :: frames, .cons hf hall⟩

/-! ## The two sessions -/

/-- Two sessions, and the pipe from the near one to the far one. -/
structure Joined where
  near : Run
  pipe : Pipe
  far : Run

/-- One atomic step of either session, or of the pipe between them. -/
inductive JoinedEvent
  /-- A step of the near session by itself. -/
  | near (e : RunEvent)
  /-- A step of the far session by itself. -/
  | far (e : RunEvent)
  /-- The near writer offers its bytes to the pipe. -/
  | write
  /-- The far reader asks the pipe for up to so many bytes. -/
  | read (count : Nat)
  | closeWriting
  | closeReading

/-- The stream takes bytes in this step. -/
def RunEvent.puts : RunEvent → Bool
  | .put _ => true
  | _ => false

/-- The stream gives bytes, or its end, in this step. -/
def RunEvent.gives : RunEvent → Bool
  | .got _ | .atEnd => true
  | _ => false

namespace Joined

/-- The near writer offers its bytes to the pipe. -/
def write (j : Joined) : Option Joined :=
  match j.near.session.writerMove j.near.clock with
  | .write bytes =>
    match j.pipe.write bytes with
    | (.wrote count, pipe) =>
      (j.near.put count).map fun near => { j with near := near, pipe := pipe }
    | (.failed fault, pipe) =>
      (j.near.failWrite fault).map fun near => { j with near := near, pipe := pipe }
    | (.blocked, pipe) => some { j with pipe := pipe }
  | _ => none

/-- The far reader asks the pipe for up to `count` bytes. -/
def read (j : Joined) (count : Nat) : Option Joined :=
  match j.pipe.read count with
  | (.received bytes, pipe) =>
    (j.far.step? (.got bytes)).map fun far => { j with far := far, pipe := pipe }
  | (.atEnd, pipe) =>
    (j.far.step? .atEnd).map fun far => { j with far := far, pipe := pipe }
  | (.failed fault, pipe) =>
    (j.far.step? (.failRead fault)).map fun far => { j with far := far, pipe := pipe }
  | (.blocked, pipe) => some { j with pipe := pipe }

/-- One step; nothing if the event is not possible now. -/
def step? (j : Joined) : JoinedEvent → Option Joined
  | .near e =>
    if e.puts then none else (j.near.step? e).map fun near => { j with near := near }
  | .far e =>
    if e.gives then none else (j.far.step? e).map fun far => { j with far := far }
  | .write => j.write
  | .read count => j.read count
  | .closeWriting => some { j with pipe := j.pipe.closeWriting }
  | .closeReading => some { j with pipe := j.pipe.closeReading }

/-- From one moment to a later one. -/
abbrev Steps : Joined → Joined → Prop := Relation.ReflTransGen (Leads step?)

/-- The joined sessions after a sequence of steps; they stay as they are if one of them
is not possible. -/
abbrev after (j : Joined) (events : List JoinedEvent) : Joined := stateAfter step? j events

/-- Both sessions are at their beginning, and the pipe is empty. -/
structure Begins (j : Joined) : Prop where
  near : j.near.Begins
  far : j.far.Begins
  pipe : j.pipe.buffer = [] ∧ j.pipe.closed = false

/-- The two sessions are at a moment of their life together. -/
abbrev Reached (j : Joined) : Prop := Reachable Begins (Leads step?) j

variable {j j' : Joined}

/-! ## Either session by itself -/

private theorem steps_single {w w' : Run} {e : RunEvent} (h : w.step? e = some w') :
    Run.Steps w w' :=
  .single ⟨e, h⟩

/-- What a step does to either session is a step of that session, or nothing. -/
theorem sessions_of_step {e : JoinedEvent} (he : j.step? e = some j') :
    Run.Steps j.near j'.near ∧ Run.Steps j.far j'.far := by
  cases e with
  | near e =>
      simp only [step?] at he
      split at he
      · cases he
      · obtain ⟨near, hnear, rfl⟩ := Option.map_eq_some_iff.1 he
        exact ⟨steps_single hnear, .refl⟩
  | far e =>
      simp only [step?] at he
      split at he
      · cases he
      · obtain ⟨far, hfar, rfl⟩ := Option.map_eq_some_iff.1 he
        exact ⟨.refl, steps_single hfar⟩
  | write =>
      simp only [step?, write] at he
      split at he
      · split at he
        · rename_i count pipe hpipe
          obtain ⟨near, hnear, rfl⟩ := Option.map_eq_some_iff.1 he
          exact ⟨steps_single (e := .put count) hnear, .refl⟩
        · rename_i fault pipe hpipe
          obtain ⟨near, hnear, rfl⟩ := Option.map_eq_some_iff.1 he
          exact ⟨steps_single (e := .failWrite fault) hnear, .refl⟩
        · obtain rfl := Option.some.inj he
          exact ⟨.refl, .refl⟩
      · cases he
  | read count =>
      simp only [step?, read] at he
      split at he
      · obtain ⟨far, hfar, rfl⟩ := Option.map_eq_some_iff.1 he
        exact ⟨.refl, steps_single hfar⟩
      · obtain ⟨far, hfar, rfl⟩ := Option.map_eq_some_iff.1 he
        exact ⟨.refl, steps_single hfar⟩
      · obtain ⟨far, hfar, rfl⟩ := Option.map_eq_some_iff.1 he
        exact ⟨.refl, steps_single hfar⟩
      · obtain rfl := Option.some.inj he
        exact ⟨.refl, .refl⟩
  | closeWriting =>
      obtain rfl := Option.some.inj he
      exact ⟨.refl, .refl⟩
  | closeReading =>
      obtain rfl := Option.some.inj he
      exact ⟨.refl, .refl⟩

theorem Steps.sessions (h : Steps j j') :
    Run.Steps j.near j'.near ∧ Run.Steps j.far j'.far := by
  induction h with
  | refl => exact ⟨.refl, .refl⟩
  | tail _ he ih =>
      obtain ⟨e, he⟩ := he
      obtain ⟨hnear, hfar⟩ := sessions_of_step he
      exact ⟨ih.1.trans hnear, ih.2.trans hfar⟩

theorem Reached.sessions (h : j.Reached) : j.near.Reached ∧ j.far.Reached := by
  obtain ⟨j₀, hbegins, hs⟩ := h
  obtain ⟨hsnear, hsfar⟩ := Steps.sessions hs
  exact ⟨⟨_, hbegins.near, hsnear⟩, _, hbegins.far, hsfar⟩

/-! ## The bytes between the two -/

/-- The bytes that were put out are those that have arrived, and after them
those in the pipe; once the far reader has seen the end there are none. -/
structure Linked (j : Joined) : Prop where
  bytes : j.near.wire = j.far.received ++ j.pipe.buffer
  ended : j.far.stop = some .atEnd → j.pipe.closed = true ∧ j.pipe.buffer = []

/-- Only the stream puts bytes on the wire. -/
private theorem wire_of_step {w w' : Run} {e : RunEvent} (h : w.step? e = some w')
    (he : e.puts = false) : w'.wire = w.wire := by
  cases e with
  | put count => cases he
  | look i =>
      obtain ⟨p, -, ⟨e, journal, -, rfl⟩ | ⟨bytes, -, rfl⟩ | rfl⟩ := Run.looking_of_look h <;>
        rfl
  | enqueue i =>
      obtain ⟨p, bytes, -, ⟨-, rfl⟩ | ⟨-, rfl⟩⟩ := Run.queueing_of_enqueue h <;> rfl
  | closeStep i =>
      obtain ⟨stage, -, rfl⟩ := Run.stage_of_closeStep h
      rfl
  | write =>
      obtain ⟨s, firing, -, rfl⟩ := Run.writerGoes_of_write h
      rfl
  | take =>
      obtain ⟨r, queue, -, -, rfl⟩ := Run.idle_of_take h
      rfl
  | failWrite fault =>
      obtain ⟨r, rest, flushed, journal, -, rfl⟩ := Run.writing_of_failWrite h
      rfl
  | read =>
      obtain ⟨s, -, rfl⟩ := Run.readerGoes_of_read h
      rfl
  | got bytes =>
      simp only [Run.step?] at h
      split at h
      · cases h
      · obtain ⟨-, rfl⟩ := Run.reading_of_answerRead h
        rfl
  | atEnd =>
      obtain ⟨-, rfl⟩ := Run.reading_of_answerRead h
      rfl
  | failRead fault =>
      obtain ⟨-, rfl⟩ := Run.reading_of_answerRead h
      rfl
  | send p | close | outside call | tick now =>
      obtain rfl := Option.some.inj h
      rfl

/-- Only the stream gives a reader bytes, or the end. -/
private theorem received_of_step {w w' : Run} {e : RunEvent} (h : w.step? e = some w')
    (he : e.gives = false) :
    w'.received = w.received ∧ (w'.stop = some .atEnd → w.stop = some .atEnd) := by
  cases e with
  | got bytes => cases he
  | atEnd => cases he
  | read =>
      obtain ⟨s, -, rfl⟩ := Run.readerGoes_of_read h
      refine ⟨rfl, fun hstop => ?_⟩
      have hcause : w.session.stopCause.or w.stop = some .atEnd := hstop
      rcases Option.or_eq_some_iff.1 hcause with hnow | ⟨-, hbefore⟩
      · unfold Session.stopCause at hnow
        split at hnow
        · split at hnow <;> cases hnow
        · split at hnow <;> cases hnow
        · cases hnow
      · exact hbefore
  | failRead fault =>
      obtain ⟨-, rfl⟩ := Run.reading_of_answerRead h
      exact ⟨List.append_nil _, nofun⟩
  | look i =>
      obtain ⟨p, -, ⟨e, journal, -, rfl⟩ | ⟨bytes, -, rfl⟩ | rfl⟩ := Run.looking_of_look h <;>
        exact ⟨rfl, id⟩
  | enqueue i =>
      obtain ⟨p, bytes, -, ⟨-, rfl⟩ | ⟨-, rfl⟩⟩ := Run.queueing_of_enqueue h <;>
        exact ⟨rfl, id⟩
  | closeStep i =>
      obtain ⟨stage, -, rfl⟩ := Run.stage_of_closeStep h
      exact ⟨rfl, id⟩
  | write =>
      obtain ⟨s, firing, -, rfl⟩ := Run.writerGoes_of_write h
      exact ⟨rfl, id⟩
  | take =>
      obtain ⟨r, queue, -, -, rfl⟩ := Run.idle_of_take h
      exact ⟨rfl, id⟩
  | put count =>
      obtain ⟨r, rest, flushed, -, -, -, rfl⟩ := Run.writing_of_put h
      exact ⟨rfl, id⟩
  | failWrite fault =>
      obtain ⟨r, rest, flushed, journal, -, rfl⟩ := Run.writing_of_failWrite h
      exact ⟨rfl, id⟩
  | send p | close | outside call | tick now =>
      obtain rfl := Option.some.inj h
      exact ⟨rfl, id⟩

private theorem linked_write (h : j.Linked) (he : j.write = some j') : j'.Linked := by
  unfold write at he
  split at he
  · rename_i bytes hmove
    split at he
    · rename_i count pipe hpipe
      obtain ⟨near, hnear, rfl⟩ := Option.map_eq_some_iff.1 he
      obtain ⟨r, rest, flushed, hw, -, -, rfl⟩ := Run.writing_of_put hnear
      obtain ⟨hopen, -, hbuffer⟩ := Pipe.write_wrote hpipe
      have hrest : rest = bytes := by
        unfold Session.writerMove at hmove
        rw [hw] at hmove
        cases rest with
        | nil => cases hmove
        | cons byte rest => exact WriterMove.write.inj hmove
      constructor
      · show j.near.wire ++ rest.take count = j.far.received ++ pipe.buffer
        rw [hbuffer, hrest, h.bytes, List.append_assoc]
      · intro hstop
        rw [(h.ended hstop).1] at hopen
        cases hopen
    · rename_i fault pipe hpipe
      obtain ⟨near, hnear, rfl⟩ := Option.map_eq_some_iff.1 he
      obtain ⟨r, rest, flushed, journal, -, rfl⟩ := Run.writing_of_failWrite hnear
      have hsame : pipe = j.pipe := by
        unfold Pipe.write at hpipe
        split at hpipe
        · exact (Prod.mk.inj hpipe).2.symm
        · split at hpipe <;> cases hpipe
      subst hsame
      exact ⟨h.bytes, h.ended⟩
    · rename_i pipe hpipe
      obtain rfl := Option.some.inj he
      have hsame : pipe.buffer = j.pipe.buffer ∧ pipe.closed = j.pipe.closed := by
        unfold Pipe.write at hpipe
        split at hpipe
        · cases hpipe
        · split at hpipe
          · obtain rfl := (Prod.mk.inj hpipe).2
            exact ⟨rfl, rfl⟩
          · cases hpipe
      constructor
      · show j.near.wire = j.far.received ++ pipe.buffer
        rw [hsame.1, h.bytes]
      · intro hstop
        show pipe.closed = true ∧ pipe.buffer = []
        rw [hsame.1, hsame.2]
        exact h.ended hstop
  · cases he

private theorem linked_read (h : j.Linked) {count : Nat} (he : j.read count = some j') :
    j'.Linked := by
  unfold read at he
  split at he
  · rename_i bytes pipe hpipe
    obtain ⟨far, hfar, rfl⟩ := Option.map_eq_some_iff.1 he
    simp only [Run.step?] at hfar
    split at hfar
    · cases hfar
    · rename_i hsome
      obtain ⟨-, rfl⟩ := Run.reading_of_answerRead hfar
      have hbuffer := Pipe.read_received hpipe
      constructor
      · show j.near.wire = j.far.received ++ bytes ++ pipe.buffer
        rw [h.bytes, hbuffer, List.append_assoc]
      · intro hstop
        have hnil := (h.ended hstop).2
        rw [hbuffer] at hnil
        exact absurd (List.append_eq_nil_iff.1 hnil).1 hsome
  · rename_i pipe hpipe
    obtain ⟨far, hfar, rfl⟩ := Option.map_eq_some_iff.1 he
    obtain ⟨-, rfl⟩ := Run.reading_of_answerRead hfar
    unfold Pipe.read at hpipe
    split at hpipe
    · cases hpipe
    · rename_i hempty
      have hnil : j.pipe.buffer = [] := by simpa using hempty
      split at hpipe
      · rename_i hclosed
        obtain rfl := (Prod.mk.inj hpipe).2
        constructor
        · show j.near.wire = j.far.received ++ [] ++ j.pipe.buffer
          rw [List.append_nil, h.bytes]
        · intro _
          exact ⟨hclosed, hnil⟩
      · cases hpipe
  · rename_i fault pipe hpipe
    unfold Pipe.read at hpipe
    split at hpipe
    · cases hpipe
    · split at hpipe <;> cases hpipe
  · rename_i pipe hpipe
    obtain rfl := Option.some.inj he
    unfold Pipe.read at hpipe
    split at hpipe
    · cases hpipe
    · split at hpipe
      · cases hpipe
      · obtain rfl := (Prod.mk.inj hpipe).2
        exact ⟨h.bytes, h.ended⟩

theorem linked_of_step {e : JoinedEvent} (he : j.step? e = some j') (h : j.Linked) :
    j'.Linked := by
  cases e with
  | near e =>
      simp only [step?] at he
      split at he
      · cases he
      · rename_i hputs
        obtain ⟨near, hnear, rfl⟩ := Option.map_eq_some_iff.1 he
        have hwire := wire_of_step hnear (by simpa using hputs)
        exact ⟨hwire.trans h.bytes, h.ended⟩
  | far e =>
      simp only [step?] at he
      split at he
      · cases he
      · rename_i hgives
        obtain ⟨far, hfar, rfl⟩ := Option.map_eq_some_iff.1 he
        obtain ⟨hreceived, hstop⟩ := received_of_step hfar (by simpa using hgives)
        constructor
        · show j.near.wire = far.received ++ j.pipe.buffer
          rw [hreceived, h.bytes]
        · exact fun hend => h.ended (hstop hend)
  | write => exact linked_write h he
  | read count => exact linked_read h he
  | closeWriting =>
      obtain rfl := Option.some.inj he
      exact ⟨h.bytes, fun hstop => ⟨rfl, (h.ended hstop).2⟩⟩
  | closeReading =>
      obtain rfl := Option.some.inj he
      exact ⟨h.bytes, fun hstop => ⟨rfl, (h.ended hstop).2⟩⟩

theorem Reached.linked (h : j.Reached) : j.Linked := by
  obtain ⟨j₀, hbegins, hs⟩ := h
  induction hs with
  | refl =>
      obtain ⟨near, pipe, far⟩ := j₀
      obtain ⟨⟨label, remote, config, now⟩, ⟨label', remote', config', now'⟩, hpipe, -⟩ := hbegins
      constructor
      · rw [hpipe]
        rfl
      · nofun
  | tail _ he ih =>
      obtain ⟨e, he⟩ := he
      exact linked_of_step he ih

/-! ## Frames -/

/-- The bytes of the near session's queue are a stream of frames for the far one. -/
private theorem Reached.stream (h : j.Reached)
    (hlimit : j.near.session.frameLimit ≤ j.far.session.frameLimit)
    (hcarries : ∀ x ∈ j.near.entered, ∃ f, x.payload.Carries f) :
    ∃ frames, List.Forall₂ Payload.Carries (j.near.entered.map Handover.payload) frames ∧
      Frame.Stream j.far.session.frameLimit frames
        (j.near.requests.flatMap WriteRequest.bytes) := by
  obtain ⟨hnear, -⟩ := h.sessions
  obtain ⟨frames, hall⟩ := hnear.frames hcarries
  refine ⟨frames, ?_, (Handover.stream hall).mono hlimit⟩
  exact List.forall₂_map_left_iff.2 (hall.imp fun x f hx => hx.carries)

/-- Let the far session allow frames as long as the near one does, and let all
that entered the near queue be frames.  Then the far session emits a prefix of
these frames at every moment, and never refuses one.  It has reported all of
them once a caller has closed the near session, no write has failed, the near
writer has ended and the far reader has come to the end. -/
theorem frames_arrive_in_order (h : j.Reached)
    (hlimit : j.near.session.frameLimit ≤ j.far.session.frameLimit)
    (hcarries : ∀ x ∈ j.near.entered, ∃ f, x.payload.Carries f) :
    ∃ frames, List.Forall₂ Payload.Carries (j.near.entered.map Handover.payload) frames ∧
      j.far.emitted <+: frames ∧
      (∀ e, j.far.stop ≠ some (.refused e)) ∧
      (j.near.session.writer = .ended → j.near.winner = some .caller →
        j.near.broken = none → j.far.stop = some .atEnd →
        j.far.reported = frames ∧
          (j.far.session.listening = true → j.far.emitted = frames)) := by
  obtain ⟨hnear, hfar⟩ := h.sessions
  have hfaithful := hfar.faithful
  have hlinked := h.linked
  obtain ⟨frames, hall, hstream⟩ := h.stream hlimit hcarries
  have harrived : j.far.received <+: j.near.requests.flatMap WriteRequest.bytes :=
    List.IsPrefix.trans ⟨j.pipe.buffer, hlinked.bytes.symm⟩ hnear.wire_isPrefix
  obtain ⟨hsound, hframes⟩ := Frame.decodeAll_of_isPrefix hstream harrived
  refine ⟨frames, hall, ?_, ?_, ?_⟩
  · exact hfaithful.emitted.trans (hfaithful.reported_isPrefix.trans hframes)
  · intro e hstop
    have hfailure := hfaithful.failure_of_refused hstop
    rw [show Frame.decodeAll j.far.intake.limit j.far.intake.received =
      Frame.decodeAll j.far.session.frameLimit j.far.received from rfl, hsound] at hfailure
    cases hfailure
  · intro hend hwinner hbroken hstop
    have hwhole : j.far.received = j.near.requests.flatMap WriteRequest.bytes := by
      have hwire := hlinked.bytes
      rw [(hlinked.ended hstop).2, List.append_nil] at hwire
      rw [← hwire, hnear.wire_of_caller hend hwinner hbroken]
    have hstopped : j.far.intake.stop = some .atEnd := hstop
    have hreported := hfaithful.reported_of_stop (by rw [hstopped]; nofun)
      (by rw [hstopped]; nofun)
    have hdecoded : Frame.decodeAll j.far.intake.limit j.far.intake.received =
        ⟨frames, none, []⟩ := by
      show Frame.decodeAll j.far.session.frameLimit j.far.received = _
      rw [hwhole]
      exact hstream.decodeAll
    rw [hdecoded] at hreported
    have hsame : j.far.reported = frames := (Frame.Decoding.mk.inj hreported).1.symm
    refine ⟨hsame, fun hlistening => ?_⟩
    rw [← hsame]
    exact hfaithful.listening hlistening

/-- A message and a finished frame cross a pipe that holds five bytes. -/
def crossing : Joined :=
  after ⟨.start "1" none {} default, { capacity := 5 }, .start "2" none {} default⟩ <|
    [.near (.send (.message (.ofBody 7 [1]))), .near (.look 0), .near (.enqueue 0),
      .near (.send (.buffer [0, 0, 0, 2, 0, 9])), .near (.look 1), .near (.enqueue 1),
      .near .close, .near (.closeStep 0), .near (.closeStep 0), .near (.closeStep 0),
      .far .read, .far .read, .near .write, .near .write, .near .write, .near .write,
      .write, .read 3, .far .read, .read 9, .write, .near .write, .near .write, .write,
      .far .read, .read 9, .far .read, .far .read, .far .read, .write, .near .write,
      .near .write, .near .write, .near .write, .closeWriting, .read 8, .far .read,
      .far .read, .far .read, .read 1]

theorem crossing_arrives :
    ∃ frames, List.Forall₂ Payload.Carries
      [.message (.ofBody 7 [1]), .buffer [0, 0, 0, 2, 0, 9]] frames ∧
        crossing.far.emitted = frames := by
  have hreached : crossing.Reached :=
    ⟨_, ⟨.start _ _ _ _, .start _ _ _ _, rfl, rfl⟩, steps_after _ _⟩
  have hpayloads : crossing.near.entered.map Handover.payload =
      [.message (.ofBody 7 [1]), .buffer [0, 0, 0, 2, 0, 9]] := by rfl
  have hcarries : ∀ x ∈ crossing.near.entered, ∃ f, x.payload.Carries f := by
    intro x hx
    have hmem : x.payload ∈ crossing.near.entered.map Handover.payload :=
      List.mem_map_of_mem hx
    rw [hpayloads] at hmem
    rcases List.mem_cons.1 hmem with hfirst | hmem
    · rw [hfirst]
      exact ⟨_, .message _ ⟨rfl, rfl⟩⟩
    · rw [List.mem_singleton.1 hmem]
      exact ⟨⟨9, []⟩, .buffer (Frame.encode_eq_ok_iff.2 ⟨by decide, by rfl⟩)⟩
  obtain ⟨frames, hall, -, -, harrived⟩ :=
    frames_arrive_in_order hreached (Nat.le_refl _) hcarries
  rw [hpayloads] at hall
  exact ⟨frames, hall, (harrived rfl rfl rfl rfl).2 rfl⟩

end Joined

end PeerLink
