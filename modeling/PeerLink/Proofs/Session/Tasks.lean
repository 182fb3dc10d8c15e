import PeerLink.Proofs.Session.Run

/-!
# What a task can do next

The writer and the reader are functions of the phase they are in.  This module
turns each of them around: `Session.WriterGoes` and `Session.ReaderGoes` list
what a task may have done, one case for each kind of step, with the condition
under which it does it and the session it leaves.  Later proofs go through
these lists and do not open the functions again.  Log texts are left open,
since nothing depends on them.

## Main results

* `Session.writerGoes_of_move` — every step of the writer is on its list.
* `Session.readerGoes_of_move` — every step of the reader is on its list.
-/

namespace PeerLink

/-- The ack that is to be run when a completer is used. -/
def Board.firing (b : Board Ack) (n : Nat) (r : SendResult) : Option Firing :=
  match (b.complete n r).1 with
  | .recorded (some ack) => some ⟨n, ack, r⟩
  | _ => none

/-- The ack that is run is the one that the operation carried. -/
theorem Board.firing_of_pending {b : Board Ack} {n : Nat} (h : b.IsPending n)
    (r : SendResult) :
    b.firing n r = (b.callback? n).map fun ack => ⟨n, ack, r⟩ := by
  unfold firing
  rw [complete_of_pending h]
  cases b.callback? n <;> rfl

/-- The ack is the same, whatever counters it is handed out with. -/
@[simp] theorem DueAck.map_firing (f : Option Firing) (t : Traffic) :
    (f.map fun f => DueAck.mk f t).map DueAck.firing = f := by
  cases f <;> rfl

namespace Session

/-! ## A step of a close

It touches the closed flag, the mode, the slots and the log. -/

section CloseStep

variable (s : Session) (reason : Option String) (mode : Mode) (stage : ClosingStage)

/-- What a step of a close leaves as it is. -/
theorem closeStep_eq : ∃ closed mode' slots journal,
    (s.closeStep reason mode stage).2 =
      { s with closed := closed, mode := mode', slots := slots, journal := journal } := by
  cases stage with
  | claiming =>
      simp only [closeStep, claimClose]
      cases hc : s.closed
      · exact ⟨true, s.mode, s.slots, s.journal, rfl⟩
      · exact ⟨true, s.mode, s.slots, s.journal, rfl⟩
  | recording => cases reason <;> exact ⟨_, _, _, _, rfl⟩
  | publishing => exact ⟨_, _, _, _, rfl⟩
  | done effective => exact ⟨s.closed, s.mode, s.slots, s.journal, rfl⟩

@[simp] theorem config_closeStep : (s.closeStep reason mode stage).2.config = s.config := by
  obtain ⟨closed, mode', slots, journal, h⟩ := s.closeStep_eq reason mode stage
  rw [h]

@[simp] theorem queue_closeStep : (s.closeStep reason mode stage).2.queue = s.queue := by
  obtain ⟨closed, mode', slots, journal, h⟩ := s.closeStep_eq reason mode stage
  rw [h]

@[simp] theorem queueClosed_closeStep :
    (s.closeStep reason mode stage).2.queueClosed = s.queueClosed := by
  obtain ⟨closed, mode', slots, journal, h⟩ := s.closeStep_eq reason mode stage
  rw [h]

@[simp] theorem board_closeStep : (s.closeStep reason mode stage).2.board = s.board := by
  obtain ⟨closed, mode', slots, journal, h⟩ := s.closeStep_eq reason mode stage
  rw [h]

@[simp] theorem writer_closeStep : (s.closeStep reason mode stage).2.writer = s.writer := by
  obtain ⟨closed, mode', slots, journal, h⟩ := s.closeStep_eq reason mode stage
  rw [h]

@[simp] theorem reader_closeStep : (s.closeStep reason mode stage).2.reader = s.reader := by
  obtain ⟨closed, mode', slots, journal, h⟩ := s.closeStep_eq reason mode stage
  rw [h]

@[simp] theorem buffer_closeStep : (s.closeStep reason mode stage).2.buffer = s.buffer := by
  obtain ⟨closed, mode', slots, journal, h⟩ := s.closeStep_eq reason mode stage
  rw [h]

@[simp] theorem events_closeStep : (s.closeStep reason mode stage).2.events = s.events := by
  obtain ⟨closed, mode', slots, journal, h⟩ := s.closeStep_eq reason mode stage
  rw [h]

@[simp] theorem listening_closeStep :
    (s.closeStep reason mode stage).2.listening = s.listening := by
  obtain ⟨closed, mode', slots, journal, h⟩ := s.closeStep_eq reason mode stage
  rw [h]

@[simp] theorem traffic_closeStep :
    (s.closeStep reason mode stage).2.traffic = s.traffic := by
  obtain ⟨closed, mode', slots, journal, h⟩ := s.closeStep_eq reason mode stage
  rw [h]

end CloseStep

/-! ## The writer -/

/-- Ending an operation changes the board only, and runs what the board says. -/
theorem resolve_eq (s : Session) (n : Nat) (r : SendResult) :
    s.resolve n r =
      ({ s with board := (s.board.complete n r).2 },
        (s.board.firing n r).map fun f => ⟨f, s.traffic⟩) := by
  unfold resolve Board.firing
  split <;> simp_all

/-- What is handed out was left with the operation, and goes with the counters of the
session that ended it. -/
theorem traffic_of_resolve {s : Session} {n : Nat} {r : SendResult} {due : DueAck}
    (h : (s.resolve n r).2 = some due) :
    s.board.firing n r = some due.firing ∧ due.traffic = s.traffic := by
  rw [resolve_eq] at h
  obtain ⟨f, hf, rfl⟩ := Option.map_eq_some_iff.1 h
  exact ⟨hf, rfl⟩

/-- What the writer may have done when it went on by itself. -/
inductive WriterGoes (s : Session) (now : Duration) : Session → Option Firing → Prop
  /-- It saw that the session is to end. -/
  | wakes (hw : s.writer = .idle) (hm : s.mode ≠ .running) :
      WriterGoes s now { s with writer := .stopping true } none
  /-- It took the next request of a running session. -/
  | takes {r : WriteRequest} {queue : List WriteRequest} (hw : s.writer = .idle)
      (hq : s.queue = r :: queue) :
      WriterGoes s now { s with queue := queue, writer := .writing r r.bytes none } none
  /-- It ended a request whose bytes had all been taken. -/
  | completes {r : WriteRequest} {flushed : Option Nat} (journal : List LogEntry)
      (hw : s.writer = .writing r [] flushed) :
      WriterGoes s now
        { s.countWritten r now with
          journal := journal
          board := (s.board.complete r.operation .succeeded).2
          writer := phaseAfterWritten flushed }
        (s.board.firing r.operation .succeeded)
  /-- It ended a request whose write had failed. -/
  | reports {r : WriteRequest} {fault : IoFault} {flushed : Option Nat} (reason : String)
      (hw : s.writer = .failed r fault flushed) :
      WriterGoes s now
        { s with
          board := (s.board.complete r.operation (.error (.io fault))).2
          writer := .breaking reason flushed .claiming }
        (s.board.firing r.operation (.error (.io fault)))
  /-- It did a step of closing the session. -/
  | closes {reason : String} {flushed : Option Nat} {stage : ClosingStage}
      (hw : s.writer = .breaking reason flushed stage) :
      WriterGoes s now
        { (s.closeStep (some reason) .abort stage).2 with
          writer := .breaking reason flushed (s.closeStep (some reason) .abort stage).1 }
        none
  /-- It was done with closing the session. -/
  | closed {reason : String} {flushed : Option Nat} {effective : Bool}
      (hw : s.writer = .breaking reason flushed (.done effective)) :
      WriterGoes s now { s with writer := phaseAfterFailure flushed } none
  /-- It closed the queue. -/
  | stops {healthy : Bool} (hw : s.writer = .stopping healthy) :
      WriterGoes s now { s with queueClosed := true, writer := .choosing healthy } none
  /-- It was to finish the queue. -/
  | drains (hw : s.writer = .choosing true) (hm : s.mode = .drain) :
      WriterGoes s now { s with writer := .draining 0 } none
  /-- It was to give the queue up. -/
  | rejects {healthy : Bool} (hw : s.writer = .choosing healthy)
      (hm : ¬ (healthy = true ∧ s.mode = .drain)) :
      WriterGoes s now { s with writer := .rejecting healthy 0 } none
  /-- It took the next request of the queue it finishes. -/
  | takesLast {r : WriteRequest} {queue : List WriteRequest} {flushed : Nat}
      (hw : s.writer = .draining flushed) (hq : s.queue = r :: queue) :
      WriterGoes s now
        { s with queue := queue, writer := .writing r r.bytes (some flushed) } none
  /-- It had finished the queue. -/
  | emptied {flushed : Nat} (hw : s.writer = .draining flushed) (hq : s.queue = []) :
      WriterGoes s now { s with writer := .drained true flushed } none
  /-- It counted what was finished. -/
  | counts {healthy : Bool} {flushed : Nat} (journal : List LogEntry)
      (hw : s.writer = .drained healthy flushed) :
      WriterGoes s now { s with journal := journal, writer := .rejecting healthy 0 } none
  /-- It gave a request up. -/
  | givesUp {r : WriteRequest} {queue : List WriteRequest} {healthy : Bool} {dropped : Nat}
      (hw : s.writer = .rejecting healthy dropped) (hq : s.queue = r :: queue) :
      WriterGoes s now
        { s with
          queue := queue
          board := (s.board.complete r.operation (.error .sessionClosed)).2
          writer := .rejecting healthy (dropped + 1) }
        (s.board.firing r.operation (.error .sessionClosed))
  /-- It had nothing left to do. -/
  | ends {healthy : Bool} {dropped : Nat} (journal : List LogEntry)
      (hw : s.writer = .rejecting healthy dropped) (hq : s.queue = []) :
      WriterGoes s now { s with journal := journal, writer := .ended } none

theorem writerGoes_of_move {s s' : Session} {now : Duration} {firing : Option Firing}
    (h : (s.writerMove now).outcome? = some (s', firing)) :
    WriterGoes s now s' firing := by
  unfold writerMove at h
  split at h
  · rename_i hw
    split at h
    · rename_i hm
      obtain ⟨rfl, rfl⟩ := Prod.mk.inj (Option.some.inj h)
      exact .wakes hw hm
    · split at h
      · cases h
      · rename_i r queue hq
        obtain ⟨rfl, rfl⟩ := Prod.mk.inj (Option.some.inj h)
        exact .takes hw hq
  · rename_i r flushed hw
    simp only [resolve_eq, WriterMove.outcome?, DueAck.map_firing] at h
    obtain ⟨rfl, rfl⟩ := Prod.mk.inj (Option.some.inj h)
    exact .completes _ hw
  · cases h
  · rename_i r fault flushed hw
    simp only [resolve_eq, WriterMove.outcome?, DueAck.map_firing] at h
    obtain ⟨rfl, rfl⟩ := Prod.mk.inj (Option.some.inj h)
    exact .reports _ hw
  · rename_i reason flushed effective hw
    obtain ⟨rfl, rfl⟩ := Prod.mk.inj (Option.some.inj h)
    exact .closed hw
  · rename_i reason flushed stage _ hw
    obtain ⟨rfl, rfl⟩ := Prod.mk.inj (Option.some.inj h)
    exact .closes hw
  · rename_i healthy hw
    obtain ⟨rfl, rfl⟩ := Prod.mk.inj (Option.some.inj h)
    exact .stops hw
  · rename_i healthy hw
    obtain ⟨rfl, rfl⟩ := Prod.mk.inj (Option.some.inj h)
    by_cases hm : healthy = true ∧ s.mode = .drain
    · rw [if_pos hm]
      obtain ⟨rfl, hm⟩ := hm
      exact .drains hw hm
    · rw [if_neg hm]
      exact .rejects hw hm
  · rename_i flushed hw
    split at h
    · rename_i hq
      obtain ⟨rfl, rfl⟩ := Prod.mk.inj (Option.some.inj h)
      exact .emptied hw hq
    · rename_i r queue hq
      obtain ⟨rfl, rfl⟩ := Prod.mk.inj (Option.some.inj h)
      exact .takesLast hw hq
  · rename_i healthy flushed hw
    obtain ⟨rfl, rfl⟩ := Prod.mk.inj (Option.some.inj h)
    split
    · exact .counts _ hw
    · exact .counts s.journal hw
  · rename_i healthy dropped hw
    split at h
    · rename_i r queue hq
      simp only [resolve_eq, WriterMove.outcome?, DueAck.map_firing] at h
      obtain ⟨rfl, rfl⟩ := Prod.mk.inj (Option.some.inj h)
      exact .givesUp hw hq
    · rename_i hq
      obtain ⟨rfl, rfl⟩ := Prod.mk.inj (Option.some.inj h)
      split
      · exact .ends _ hw hq
      · exact .ends s.journal hw hq
  · cases h

/-! ## The reader -/

/-- What the reader may have done when it went on by itself. -/
inductive ReaderGoes (s : Session) (now : Duration) : Session → Prop
  /-- It made its buffer. -/
  | begins (hr : s.reader = .starting) : ReaderGoes s now { s with reader := .decoding }
  /-- It could not make its buffer. -/
  | fails (hr : s.reader = .starting) : ReaderGoes s now { s with reader := .ended }
  /-- It found no whole frame. -/
  | needsMore (hr : s.reader = .decoding)
      (hd : Frame.decode s.frameLimit s.buffer.unread = .incomplete) :
      ReaderGoes s now { s with reader := .reading }
  /-- It refused a frame. -/
  | refuses {e : TransportError} (reason : String) (journal : List LogEntry)
      (hr : s.reader = .decoding)
      (hd : Frame.decode s.frameLimit s.buffer.unread = .failed e) :
      ReaderGoes s now
        { s with journal := journal, reader := .closing (some reason) .claiming }
  /-- It found a frame. -/
  | decodes {f : Frame} {rest : Bytes} (journal : List LogEntry)
      (hr : s.reader = .decoding)
      (hd : Frame.decode s.frameLimit s.buffer.unread = .frame f rest) :
      ReaderGoes s now
        { s with
          buffer := s.buffer.advance rest
          stamps := s.stamps.touchReceive now
          traffic := s.traffic.countDecoded
          journal := journal
          reader := .delivering f }
  /-- It gave a report up because nobody listens. -/
  | drops {f : Frame} (journal : List LogEntry) (hr : s.reader = .delivering f)
      (hl : s.listening = false) :
      ReaderGoes s now { s with journal := journal, reader := .decoding }
  /-- It reported a frame. -/
  | emits {f : Frame} (hr : s.reader = .delivering f) (hl : s.listening = true) :
      ReaderGoes s now
        { s with events := s.events ++ [.message f s.buffer.serial], reader := .decoding }
  /-- It saw that the session is to end. -/
  | told (hr : s.reader = .reading) (hm : s.mode ≠ .running) :
      ReaderGoes s now { s with reader := .closing none .claiming }
  /-- It did a step of closing the session. -/
  | closes {reason : Option String} {stage : ClosingStage}
      (hr : s.reader = .closing reason stage) :
      ReaderGoes s now
        { (s.closeStep reason .abort stage).2 with
          reader := .closing reason (s.closeStep reason .abort stage).1 }
  /-- It was done with closing the session. -/
  | closed {reason : Option String} {effective : Bool} (journal : List LogEntry)
      (hr : s.reader = .closing reason (.done effective)) :
      ReaderGoes s now { s with journal := journal, reader := .announcing reason }
  /-- It ended without a report because nobody listens. -/
  | leaves {reason : Option String} (hr : s.reader = .announcing reason)
      (hl : s.listening = false) : ReaderGoes s now { s with reader := .ended }
  /-- It reported the end. -/
  | announces {reason : Option String} (hr : s.reader = .announcing reason)
      (hl : s.listening = true) :
      ReaderGoes s now { s with events := s.events ++ [.closed reason], reader := .ended }

theorem readerGoes_of_move {s s' : Session} {now : Duration}
    (h : (s.readerMove now).outcome? = some s') : ReaderGoes s now s' := by
  unfold readerMove at h
  split at h
  · rename_i hr
    split at h
    · obtain rfl := Option.some.inj h
      exact .begins hr
    · obtain rfl := Option.some.inj h
      exact .fails hr
  · rename_i hr
    split at h
    · rename_i hd
      obtain rfl := Option.some.inj h
      exact .needsMore hr hd
    · rename_i e hd
      obtain rfl := Option.some.inj h
      exact .refuses _ _ hr hd
    · rename_i f rest hd
      obtain rfl := Option.some.inj h
      exact .decodes _ hr hd
  · rename_i f hr
    split at h
    · rename_i hl
      obtain rfl := Option.some.inj h
      exact .drops _ hr (by simpa using hl)
    · rename_i hl
      split at h
      · obtain rfl := Option.some.inj h
        exact .emits hr (by simpa using hl)
      · cases h
  · rename_i hr
    split at h
    · rename_i hm
      obtain rfl := Option.some.inj h
      exact .told hr hm
    · cases h
  · rename_i reason effective hr
    obtain rfl := Option.some.inj h
    exact .closed _ hr
  · rename_i reason stage _ hr
    obtain rfl := Option.some.inj h
    exact .closes hr
  · rename_i reason hr
    split at h
    · rename_i hl
      obtain rfl := Option.some.inj h
      exact .leaves hr (by simpa using hl)
    · rename_i hl
      split at h
      · obtain rfl := Option.some.inj h
        exact .announces hr (by simpa using hl)
      · cases h
  · cases h

/-! ## Callers -/

/-- A send that ends at once adds an operation that has failed already. -/
theorem startSend_ended {s s' : Session} {p : Payload} {n : Nat}
    (h : s.startSend p = .ended n s') :
    ∃ e journal, n = s.board.size ∧
      s' = { s with board := s.board.push (.resolved (.error e)), journal := journal } ∧
      (s.closed = false → p.encode s.frameLimit = .refused e) := by
  unfold startSend at h
  split at h
  · rename_i hc
    obtain ⟨rfl, rfl⟩ := SendStart.ended.inj h
    exact ⟨.sessionClosed, s.journal, rfl, rfl, fun ho => by rw [hc] at ho; cases ho⟩
  · split at h
    · cases h
    · rename_i e he
      obtain ⟨rfl, rfl⟩ := SendStart.ended.inj h
      exact ⟨e, _, rfl, rfl, fun _ => he⟩
    · cases h

/-- A send goes on to the queue with the bytes of its payload. -/
theorem startSend_framed {s : Session} {p : Payload} {bytes : Bytes}
    (h : s.startSend p = .framed bytes) :
    s.closed = false ∧ p.encode s.frameLimit = .framed bytes := by
  unfold startSend at h
  split at h
  · cases h
  · rename_i hc
    split at h
    · cases h
    · cases h
    · rename_i bytes' he
      cases h
      exact ⟨by simpa using hc, he⟩

theorem enqueue_of_closed {s : Session} (h : s.queueClosed = true) (bytes : Bytes)
    (now : Duration) :
    s.enqueue bytes now = (s.board.size,
      { s with
        board := ((s.board.push .pending).complete s.board.size (.error .sessionClosed)).2
        stamps := s.stamps.touchSchedule now }) := by
  unfold enqueue
  exact if_pos h

theorem enqueue_of_open {s : Session} (h : s.queueClosed = false) (bytes : Bytes)
    (now : Duration) :
    s.enqueue bytes now = (s.board.size,
      { s with
        board := s.board.push .pending
        stamps := s.stamps.touchSchedule now
        queue := s.queue ++ [⟨bytes, s.board.size⟩] }) := by
  unfold enqueue
  exact if_neg (by simp [h])

end Session

namespace Run

variable {w w' : Run}

/-! ## Steps of a run, turned around -/

theorem looking_of_look {i : Nat} (h : w.look i = some w') :
    ∃ p, w.sends[i]? = some ⟨p, .looking⟩ ∧
      ((∃ e journal,
        (w.session.closed = false → p.encode w.session.frameLimit = .refused e) ∧
        w' = (w.setSession .caller { w.session with
            board := w.session.board.push (.resolved (.error e))
            journal := journal }).setStage i p (.returned w.session.board.size)) ∨
      (∃ bytes, p.encode w.session.frameLimit = .framed bytes ∧
        w' = w.setStage i p (.queueing bytes)) ∨
      w' = w.setStage i p .aborted) := by
  unfold look at h
  split at h
  · rename_i p hi
    refine ⟨p, hi, ?_⟩
    split at h
    · rename_i n s hstart
      obtain ⟨e, journal, rfl, rfl, he⟩ := Session.startSend_ended hstart
      exact .inl ⟨e, journal, he, (Option.some.inj h).symm⟩
    · rename_i bytes hstart
      obtain ⟨-, hencode⟩ := Session.startSend_framed hstart
      exact .inr (.inl ⟨bytes, hencode, (Option.some.inj h).symm⟩)
    · exact .inr (.inr (Option.some.inj h).symm)
  · cases h

/-- What a send finds at a closed queue: its operation ends at once. -/
def turnAway (w : Run) (i : Nat) (p : Payload) (bytes : Bytes) : Run :=
  { (w.setSession .caller { w.session with
      board := ((w.session.board.push .pending).complete w.session.board.size
        (.error .sessionClosed)).2
      stamps := w.session.stamps.touchSchedule w.clock }).setStage i p
        (.returned w.session.board.size) with
    handedBack := w.handedBack ++ [⟨p, ⟨bytes, w.session.board.size⟩⟩] }

/-- What a send does to an open queue: its bytes become the last request. -/
def lineUp (w : Run) (i : Nat) (p : Payload) (bytes : Bytes) : Run :=
  { (w.setSession .caller { w.session with
      board := w.session.board.push .pending
      stamps := w.session.stamps.touchSchedule w.clock
      queue := w.session.queue ++ [⟨bytes, w.session.board.size⟩] }).setStage i p
        (.returned w.session.board.size) with
    entered := w.entered ++ [⟨p, ⟨bytes, w.session.board.size⟩⟩] }

theorem queueing_of_enqueue {i : Nat} (h : w.enqueue i = some w') :
    ∃ p bytes, w.sends[i]? = some ⟨p, .queueing bytes⟩ ∧
      ((w.session.queueClosed = true ∧ w' = w.turnAway i p bytes) ∨
      (w.session.queueClosed = false ∧ w' = w.lineUp i p bytes)) := by
  unfold enqueue at h
  split at h
  · rename_i p bytes hi
    refine ⟨p, bytes, hi, ?_⟩
    by_cases hq : w.session.queueClosed = true
    · simp only [Session.enqueue_of_closed hq, if_pos hq] at h
      exact .inl ⟨hq, (Option.some.inj h).symm⟩
    · have ho : w.session.queueClosed = false := by simpa using hq
      simp only [Session.enqueue_of_open ho, if_neg hq] at h
      exact .inr ⟨ho, (Option.some.inj h).symm⟩
  · cases h

theorem stage_of_closeStep {i : Nat} (h : w.closeStep i = some w') :
    ∃ stage, w.closes[i]? = some stage ∧
      w' = { w.setSession .caller (w.session.closeStep none .drain stage).2 with
        closes := w.closes.set i (w.session.closeStep none .drain stage).1 } := by
  unfold closeStep at h
  split at h
  · cases h
  · rename_i stage hi
    exact ⟨stage, hi, (Option.some.inj h).symm⟩

theorem reading_of_answerRead {answer : ReadAnswer} {bytes : Bytes}
    {stop : Option ReaderStop} (h : w.answerRead answer bytes stop = some w') :
    w.session.reader = .reading ∧
      w' = { w.setSession .reader (w.session.makeRoom.afterRead answer) with
        received := w.received ++ bytes
        stop := stop.or w.stop } := by
  unfold answerRead at h
  split at h
  · rename_i hr
    exact ⟨hr, (Option.some.inj h).symm⟩
  · cases h

theorem writerGoes_of_write (h : w.write = some w') :
    ∃ s firing, Session.WriterGoes w.session w.clock s firing ∧
      w' = { w.setSession .writer s with
        written := w.written ++ w.session.writer.completed
        fired := w.fired ++ firing.toList } := by
  unfold write at h
  split at h
  · cases h
  · rename_i s firing hmove
    exact ⟨s, firing, Session.writerGoes_of_move hmove, (Option.some.inj h).symm⟩

theorem readerGoes_of_read (h : w.read = some w') :
    ∃ s, Session.ReaderGoes w.session w.clock s ∧
      w' = { w.setSession .reader s with
        reported := w.reported ++ w.session.reader.reporting
        emitted := w.emitted ++
          (s.events.drop w.session.events.length).filterMap SessionEvent.frame?
        stop := w.session.stopCause.or w.stop } := by
  unfold read at h
  split at h
  · cases h
  · rename_i s hmove
    exact ⟨s, Session.readerGoes_of_move hmove, (Option.some.inj h).symm⟩

theorem writing_of_put {count : Nat} (h : w.put count = some w') :
    ∃ r rest flushed, w.session.writer = .writing r rest flushed ∧
      0 < count ∧ count ≤ rest.length ∧
      w' = { w.setSession .writer
          { w.session with writer := .writing r (rest.drop count) flushed } with
        wire := w.wire ++ rest.take count } := by
  unfold put at h
  split at h
  · rename_i bytes hmove
    split at h
    · rename_i hcount
      have hphase : ∃ r flushed, w.session.writer = .writing r bytes flushed := by
        unfold Session.writerMove at hmove
        split at hmove
        all_goals try (repeat' split at hmove) <;> cases hmove
        rename_i r rest flushed _ hw
        exact ⟨_, _, hw⟩
      obtain ⟨r, flushed, hw⟩ := hphase
      refine ⟨r, bytes, flushed, hw, hcount.1, hcount.2, ?_⟩
      rw [← Option.some.inj h]
      simp only [Session.afterWrite, hw]
    · cases h
  · cases h

theorem writing_of_failWrite {fault : IoFault} (h : w.failWrite fault = some w') :
    ∃ r rest flushed journal, w.session.writer = .writing r rest flushed ∧
      w' = { w.setSession .writer
          { w.session with journal := journal, writer := .failed r fault flushed } with
        broken := some ⟨r, rest, fault⟩ } := by
  unfold failWrite at h
  split at h
  · rename_i r rest flushed hw
    refine ⟨r, rest, flushed, (w.session.afterWrite (.failed fault)).journal, hw, ?_⟩
    rw [← Option.some.inj h]
    simp only [Session.afterWrite, hw]
    rfl
  · cases h

theorem idle_of_take (h : w.take = some w') :
    ∃ r queue, w.session.writer = .idle ∧ w.session.queue = r :: queue ∧
      w' = w.setSession .writer
        { w.session with queue := queue, writer := .writing r r.bytes none } := by
  unfold take at h
  split at h
  · rename_i r queue hw hq
    exact ⟨r, queue, hw, hq, (Option.some.inj h).symm⟩
  · cases h

end Run

end PeerLink
