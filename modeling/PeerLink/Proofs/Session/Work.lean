import PeerLink.Proofs.Session.Closing

/-!
# The work of the writer

Of all that a run holds, the writer's part is its queue, its phase, the board,
and what the observer notes about requests and bytes.  `Run.work` is that part,
and `Run.Effect` lists what a step can do to it: most steps leave it alone, and
each of the others changes a few fields in a way that is written out here.

What is to be shown about requests, bytes or acks goes through this list.

## Main results

* `Run.effect_of_step` — every step of a run has one of these effects.
* `Run.extends_of_step` — no step takes a result back.
* `Run.Reached.recorded` — the observer's list of endings names each operation
  that has ended once, with the result on the board.
-/

namespace PeerLink

/-- The writer's part of a run. -/
structure Work where
  queue : List WriteRequest
  queueClosed : Bool
  writer : WriterPhase
  board : Board Ack
  entered : List Handover
  handedBack : List Handover
  wire : Bytes
  written : List WriteRequest
  broken : Option BrokenWrite
  fired : List Firing

/-- The phase from which the writer takes a request. -/
def WriterPhase.ready : (flushed : Option Nat) → WriterPhase
  | none => .idle
  | some flushed => .draining flushed

/-- Acks are left with an operation, or taken off it, in this step. -/
def RunEvent.hooks : RunEvent → Bool
  | .outside (.watch _ _) | .outside (.unwatch _) => true
  | _ => false

namespace Run

/-- The writer's part of a run. -/
def work (w : Run) : Work where
  queue := w.session.queue
  queueClosed := w.session.queueClosed
  writer := w.session.writer
  board := w.session.board
  entered := w.entered
  handedBack := w.handedBack
  wire := w.wire
  written := w.written
  broken := w.broken
  fired := w.fired

/-- The writer goes from one phase to the next without touching a request; the
flag says whether the queue is closed then. -/
inductive PhaseMove (w : Run) : WriterPhase → Bool → Prop
  | wakes (hw : w.session.writer = .idle) (hm : w.session.mode ≠ .running) :
      PhaseMove w (.stopping true) w.session.queueClosed
  | closes {reason : String} {flushed : Option Nat} {stage : ClosingStage}
      (stage' : ClosingStage) (hw : w.session.writer = .breaking reason flushed stage) :
      PhaseMove w (.breaking reason flushed stage') w.session.queueClosed
  | closed {reason : String} {flushed : Option Nat} {effective : Bool}
      (hw : w.session.writer = .breaking reason flushed (.done effective)) :
      PhaseMove w (Session.phaseAfterFailure flushed) w.session.queueClosed
  | stops {healthy : Bool} (hw : w.session.writer = .stopping healthy) :
      PhaseMove w (.choosing healthy) true
  | drains (hw : w.session.writer = .choosing true) :
      PhaseMove w (.draining 0) w.session.queueClosed
  | rejects {healthy : Bool} (hw : w.session.writer = .choosing healthy)
      (hm : ¬ (healthy = true ∧ w.session.mode = .drain)) :
      PhaseMove w (.rejecting healthy 0) w.session.queueClosed
  | emptied {flushed : Nat} (hw : w.session.writer = .draining flushed)
      (hq : w.session.queue = []) :
      PhaseMove w (.drained true flushed) w.session.queueClosed
  | counts {healthy : Bool} {flushed : Nat}
      (hw : w.session.writer = .drained healthy flushed) :
      PhaseMove w (.rejecting healthy 0) w.session.queueClosed
  | ends {healthy : Bool} {dropped : Nat}
      (hw : w.session.writer = .rejecting healthy dropped) (hq : w.session.queue = []) :
      PhaseMove w .ended w.session.queueClosed

/-- What a step does to the writer's part of a run. -/
inductive Effect (w : Run) (e : RunEvent) (w' : Run) : Prop
  /-- Nothing. -/
  | aside (h : w'.work = w.work)
  /-- An ack is left with an operation, or taken off it. -/
  | callbacks (he : e.hooks = true) (board : Board Ack)
      (hb : w.session.board.SameOutcomes board)
      (h : w'.work = { w.work with board := board })
  /-- A send ended before it came to the queue. -/
  | refuses (error : TransportError)
      (h : w'.work = { w.work with
        board := w.session.board.push (.resolved (.error error)) })
  /-- A send found the queue closed. -/
  | turnsAway (p : Payload) (bytes : Bytes) (hq : w.session.queueClosed = true)
      (h : w'.work = { w.work with
        board := ((w.session.board.push .pending).complete w.session.board.size
          (.error .sessionClosed)).2
        handedBack := w.handedBack ++ [⟨p, ⟨bytes, w.session.board.size⟩⟩] })
  /-- A send put its request at the end of the queue. -/
  | admits (p : Payload) (bytes : Bytes) (hq : w.session.queueClosed = false)
      (h : w'.work = { w.work with
        board := w.session.board.push .pending
        queue := w.session.queue ++ [⟨bytes, w.session.board.size⟩]
        entered := w.entered ++ [⟨p, ⟨bytes, w.session.board.size⟩⟩] })
  /-- The writer took the request at the front of the queue. -/
  | takes {r : WriteRequest} {queue : List WriteRequest} (flushed : Option Nat)
      (hw : w.session.writer = .ready flushed) (hq : w.session.queue = r :: queue)
      (h : w'.work = { w.work with
        queue := queue
        writer := .writing r r.bytes flushed })
  /-- The stream took some bytes. -/
  | puts {r : WriteRequest} {rest : Bytes} {flushed : Option Nat} (count : Nat)
      (hw : w.session.writer = .writing r rest flushed)
      (h : w'.work = { w.work with
        writer := .writing r (rest.drop count) flushed
        wire := w.wire ++ rest.take count })
  /-- A write failed. -/
  | breaks {r : WriteRequest} {rest : Bytes} {flushed : Option Nat} (fault : IoFault)
      (hw : w.session.writer = .writing r rest flushed)
      (h : w'.work = { w.work with
        writer := .failed r fault flushed
        broken := some ⟨r, rest, fault⟩ })
  /-- The writer ended a request that was written. -/
  | completes {r : WriteRequest} {flushed : Option Nat}
      (hw : w.session.writer = .writing r [] flushed)
      (h : w'.work = { w.work with
        board := (w.session.board.complete r.operation .succeeded).2
        writer := Session.phaseAfterWritten flushed
        written := w.written ++ [r]
        fired := w.fired ++ (w.session.board.firing r.operation .succeeded).toList })
  /-- The writer ended the request whose write failed. -/
  | reports {r : WriteRequest} {fault : IoFault} {flushed : Option Nat} (reason : String)
      (hw : w.session.writer = .failed r fault flushed)
      (h : w'.work = { w.work with
        board := (w.session.board.complete r.operation (.error (.io fault))).2
        writer := .breaking reason flushed .claiming
        fired := w.fired ++
          (w.session.board.firing r.operation (.error (.io fault))).toList })
  /-- The writer gave a request up. -/
  | givesUp {r : WriteRequest} {queue : List WriteRequest} {healthy : Bool} {dropped : Nat}
      (hw : w.session.writer = .rejecting healthy dropped)
      (hq : w.session.queue = r :: queue)
      (h : w'.work = { w.work with
        queue := queue
        board := (w.session.board.complete r.operation (.error .sessionClosed)).2
        writer := .rejecting healthy (dropped + 1)
        fired := w.fired ++
          (w.session.board.firing r.operation (.error .sessionClosed)).toList })
  /-- The writer went to its next phase. -/
  | moves (phase : WriterPhase) (closed : Bool) (hp : PhaseMove w phase closed)
      (h : w'.work = { w.work with writer := phase, queueClosed := closed })

variable {w w' : Run} {e : RunEvent}

private theorem effect_look {i : Nat} (h : w.look i = some w') : Effect w e w' := by
  obtain ⟨p, -, ⟨e, journal, -, rfl⟩ | ⟨bytes, -, rfl⟩ | rfl⟩ := looking_of_look h
  · exact .refuses e rfl
  · exact .aside rfl
  · exact .aside rfl

private theorem effect_enqueue {i : Nat} (h : w.enqueue i = some w') : Effect w e w' := by
  obtain ⟨p, bytes, -, ⟨hq, rfl⟩ | ⟨hq, rfl⟩⟩ := queueing_of_enqueue h
  · exact .turnsAway p bytes hq rfl
  · exact .admits p bytes hq rfl

private theorem effect_closeStep {i : Nat} (h : w.closeStep i = some w') :
    Effect w e w' := by
  obtain ⟨stage, -, rfl⟩ := stage_of_closeStep h
  exact .aside (by simp [work, setSession])

/-- A step of the writer that runs no ack and completes no write. -/
private theorem work_of_write {s : Session} {firing : Option Firing}
    (hw' : w' = { w.setSession .writer s with
      written := w.written ++ w.session.writer.completed
      fired := w.fired ++ firing.toList })
    (hcompleted : w.session.writer.completed = []) (hfiring : firing = none) :
    w'.work = { w.work with
      queue := s.queue
      queueClosed := s.queueClosed
      writer := s.writer
      board := s.board } := by
  subst hw' hfiring
  simp [work, setSession, hcompleted]

private theorem effect_write (h : w.write = some w') : Effect w e w' := by
  obtain ⟨s, firing, hgoes, hw'⟩ := writerGoes_of_write h
  cases hgoes with
  | wakes hw hm =>
      exact .moves _ _ (.wakes hw hm)
        (work_of_write hw' (by rw [hw]; rfl) rfl)
  | takes hw hq =>
      exact .takes none hw hq (work_of_write hw' (by rw [hw]; rfl) rfl)
  | completes journal hw =>
      refine .completes hw ?_
      subst hw'
      simp [work, setSession, Session.countWritten, hw, WriterPhase.completed]
  | reports reason hw =>
      refine .reports reason hw ?_
      subst hw'
      simp [work, setSession, hw, WriterPhase.completed]
  | closes hw =>
      rename_i reason flushed stage
      refine .moves _ _ (.closes (w.session.closeStep (some reason) .abort stage).1 hw)
        ((work_of_write hw' (by rw [hw]; rfl) rfl).trans ?_)
      simp [work]
  | closed hw =>
      exact .moves _ _ (.closed hw) (work_of_write hw' (by rw [hw]; rfl) rfl)
  | stops hw =>
      exact .moves _ _ (.stops hw) (work_of_write hw' (by rw [hw]; rfl) rfl)
  | drains hw hm =>
      exact .moves _ _ (.drains hw) (work_of_write hw' (by rw [hw]; rfl) rfl)
  | rejects hw hm =>
      exact .moves _ _ (.rejects hw hm) (work_of_write hw' (by rw [hw]; rfl) rfl)
  | takesLast hw hq =>
      exact .takes (some _) hw hq (work_of_write hw' (by rw [hw]; rfl) rfl)
  | emptied hw hq =>
      exact .moves _ _ (.emptied hw hq) (work_of_write hw' (by rw [hw]; rfl) rfl)
  | counts journal hw =>
      exact .moves _ _ (.counts hw) (work_of_write hw' (by rw [hw]; rfl) rfl)
  | givesUp hw hq =>
      refine .givesUp hw hq ?_
      subst hw'
      simp [work, setSession, hw, WriterPhase.completed]
  | ends journal hw hq =>
      exact .moves _ _ (.ends hw hq) (work_of_write hw' (by rw [hw]; rfl) rfl)

private theorem effect_read (h : w.read = some w') : Effect w e w' := by
  obtain ⟨s, hgoes, rfl⟩ := readerGoes_of_read h
  cases hgoes with
  | closes hr => exact .aside (by simp [work, setSession])
  | _ => exact .aside rfl

private theorem effect_answerRead {answer : ReadAnswer} {bytes : Bytes}
    {stop : Option ReaderStop} (h : w.answerRead answer bytes stop = some w') :
    Effect w e w' := by
  obtain ⟨-, rfl⟩ := reading_of_answerRead h
  cases answer <;> exact .aside rfl

private theorem effect_outside (call : OutsideCall) :
    Effect w (.outside call) (w.setSession .caller (w.session.outside call)) := by
  cases call with
  | watch n ack =>
      exact .callbacks rfl _ (Board.sameOutcomes_onComplete _ n ack) rfl
  | unwatch n => exact .callbacks rfl _ (Board.sameOutcomes_takeCallback _ n) rfl
  | _ => exact .aside rfl

theorem effect_of_step (h : w.step? e = some w') : Effect w e w' := by
  cases e with
  | send p =>
      obtain rfl := Option.some.inj h
      exact .aside rfl
  | look i => exact effect_look h
  | enqueue i => exact effect_enqueue h
  | close =>
      obtain rfl := Option.some.inj h
      exact .aside rfl
  | closeStep i => exact effect_closeStep h
  | write => exact effect_write h
  | take =>
      obtain ⟨r, queue, hw, hq, rfl⟩ := idle_of_take h
      exact .takes none hw hq rfl
  | put count =>
      obtain ⟨r, rest, flushed, hw, -, -, rfl⟩ := writing_of_put h
      exact .puts count hw rfl
  | failWrite fault =>
      obtain ⟨r, rest, flushed, journal, hw, rfl⟩ := writing_of_failWrite h
      exact .breaks fault hw rfl
  | read => exact effect_read h
  | got bytes =>
      simp only [step?] at h
      split at h
      · cases h
      · exact effect_answerRead h
  | atEnd => exact effect_answerRead h
  | failRead fault => exact effect_answerRead h
  | outside call =>
      obtain rfl := Option.some.inj h
      exact effect_outside call
  | tick now =>
      obtain rfl := Option.some.inj h
      exact .aside rfl

/-- The writer has nothing to do at the beginning. -/
theorem work_start (label : String) (remote : Option Address) (config : SessionConfig)
    (now : Duration) :
    (start label remote config now).work =
      { queue := [], queueClosed := false, writer := .idle, board := .empty, entered := []
        handedBack := [], wire := [], written := [], broken := none, fired := [] } := by
  obtain ⟨journal, hsession⟩ := session_start label remote config now
  simp only [work, hsession]
  rfl

/-! ## Results stay -/

theorem extends_of_step (h : w.step? e = some w') :
    w.session.board.Extends w'.session.board := by
  cases effect_of_step h with
  | callbacks he board hb h =>
      rw [show w'.session.board = board from congrArg Work.board h]
      exact hb.extends
  | refuses e h =>
      rw [show w'.session.board = _ from congrArg Work.board h]
      exact Board.extends_push _ _
  | turnsAway p bytes hq h =>
      rw [show w'.session.board = _ from congrArg Work.board h]
      exact (Board.extends_push _ _).trans (Board.extends_complete _ _ _)
  | admits p bytes hq h =>
      rw [show w'.session.board = _ from congrArg Work.board h]
      exact Board.extends_push _ _
  | completes hw h | reports reason hw h | givesUp hw hq h =>
      rw [show w'.session.board = _ from congrArg Work.board h]
      exact Board.extends_complete _ _ _
  | aside h | takes flushed hw hq h | puts count hw h | breaks fault hw h
  | moves phase closed hp h =>
      rw [show w'.session.board = _ from congrArg Work.board h]
      exact .refl _

theorem Steps.extends (h : Steps w w') : w.session.board.Extends w'.session.board := by
  induction h with
  | refl => exact .refl _
  | tail _ he ih =>
      obtain ⟨e, he⟩ := he
      exact ih.trans (extends_of_step he)

/-- The observer notes every change of a result. -/
theorem endings_of_step (h : w.step? e = some w') :
    w'.endings = w.endings ++ w.session.board.endings w'.session.board := by
  have hsame : w.endings = w.endings ++ w.session.board.endings w.session.board := by
    rw [Board.endings_self, List.append_nil]
  cases e with
  | send p =>
      obtain rfl := Option.some.inj h
      exact hsame
  | look i =>
      obtain ⟨p, -, ⟨e, journal, -, rfl⟩ | ⟨bytes, -, rfl⟩ | rfl⟩ := looking_of_look h
      · rfl
      · exact hsame
      · exact hsame
  | enqueue i =>
      obtain ⟨p, bytes, -, ⟨-, rfl⟩ | ⟨-, rfl⟩⟩ := queueing_of_enqueue h
      · rfl
      · rfl
  | close =>
      obtain rfl := Option.some.inj h
      exact hsame
  | closeStep i =>
      obtain ⟨stage, -, rfl⟩ := stage_of_closeStep h
      rfl
  | write =>
      obtain ⟨s, firing, -, rfl⟩ := writerGoes_of_write h
      rfl
  | take =>
      obtain ⟨r, queue, -, -, rfl⟩ := idle_of_take h
      rfl
  | put count =>
      obtain ⟨r, rest, flushed, -, -, -, rfl⟩ := writing_of_put h
      rfl
  | failWrite fault =>
      obtain ⟨r, rest, flushed, journal, -, rfl⟩ := writing_of_failWrite h
      rfl
  | read =>
      obtain ⟨s, -, rfl⟩ := readerGoes_of_read h
      rfl
  | got bytes =>
      simp only [step?] at h
      split at h
      · cases h
      · obtain ⟨-, rfl⟩ := reading_of_answerRead h
        rfl
  | atEnd =>
      obtain ⟨-, rfl⟩ := reading_of_answerRead h
      rfl
  | failRead fault =>
      obtain ⟨-, rfl⟩ := reading_of_answerRead h
      rfl
  | outside call =>
      obtain rfl := Option.some.inj h
      rfl
  | tick now =>
      obtain rfl := Option.some.inj h
      exact hsame

theorem Reached.recorded (h : w.Reached) : Board.Recorded w.endings w.session.board := by
  refine h.invariant (P := fun w => Board.Recorded w.endings w.session.board) ?_ ?_
  · rintro _ ⟨label, remote, config, now⟩ n
    obtain ⟨journal, hsession⟩ := session_start label remote config now
    rw [hsession]
    rfl
  · rintro w w' _ ⟨e, he⟩ hrec
    rw [endings_of_step he]
    exact hrec.append (extends_of_step he)

end Run

end PeerLink
