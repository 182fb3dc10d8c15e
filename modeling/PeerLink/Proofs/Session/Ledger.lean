import PeerLink.Proofs.Pending.Books
import PeerLink.Proofs.Session.Work

/-!
# Where every request is

A request that entered the queue is in one of five places: it was written, its
write failed, it was given up, the writer holds it, or it still waits.  Read in
this order, the five make up the requests in the order in which they entered.
`Work.Placed` says so, together with the books on the board.

`Work.Lawful` is about the phase: in which phases the queue is closed, a write
has failed, requests have been given up, or the end of the session was seen.
The row that carries the main result is the one of the phases in which the
writer gives requests up: if a caller closed the session and no write failed,
the writer gets there with an empty queue.

## Main results

* `Run.ledger_of_step` — a step of anybody keeps the ledger.
* `Run.Reached.ledger` — every reached run has one.
-/

namespace PeerLink

/-- The request that the writer holds. -/
def WriterPhase.holds : WriterPhase → List WriteRequest
  | .writing r _ _ | .failed r _ _ => [r]
  | _ => []

namespace Work

/-! ## The five places -/

/-- The failed write, once its operation has been ended. -/
def lost (k : Work) : List BrokenWrite :=
  match k.writer with
  | .failed .. => []
  | _ => k.broken.toList

/-- The requests that have not ended, next one first. -/
def waiting (k : Work) : List WriteRequest := k.writer.holds ++ k.queue

/-- The operations of requests that have ended. -/
def settled (k : Work) (givenUp : List WriteRequest) : List (Nat × SendResult) :=
  k.written.map (fun r => (r.operation, .succeeded)) ++
  k.lost.map (fun b => (b.request.operation, .error (.io b.fault))) ++
  givenUp.map (fun r => (r.operation, .error .sessionClosed)) ++
  k.handedBack.map (fun x => (x.request.operation, .error .sessionClosed))

/-- Every request is in its place, and has the result that goes with it. -/
structure Placed (k : Work) (givenUp : List WriteRequest) : Prop where
  order : k.entered.map Handover.request =
    k.written ++ k.lost.map BrokenWrite.request ++ givenUp ++ k.waiting
  books : k.board.Books (k.settled givenUp) (k.waiting.map WriteRequest.operation)

theorem Placed.result_of_written {k : Work} {givenUp : List WriteRequest}
    (h : k.Placed givenUp) {r : WriteRequest} (hr : r ∈ k.written) :
    k.board.result? r.operation = some .succeeded := by
  refine h.books.ended (r.operation, .succeeded) ?_
  simp only [settled, List.mem_append]
  exact .inl (.inl (.inl (List.mem_map_of_mem hr)))

theorem Placed.result_of_lost {k : Work} {givenUp : List WriteRequest}
    (h : k.Placed givenUp) {b : BrokenWrite} (hb : b ∈ k.lost) :
    k.board.result? b.request.operation = some (.error (.io b.fault)) := by
  refine h.books.ended (b.request.operation, .error (.io b.fault)) ?_
  simp only [settled, List.mem_append]
  exact .inl (.inl (.inr (List.mem_map_of_mem hb)))

theorem Placed.result_of_givenUp {k : Work} {givenUp : List WriteRequest}
    (h : k.Placed givenUp) {r : WriteRequest} (hr : r ∈ givenUp) :
    k.board.result? r.operation = some (.error .sessionClosed) := by
  refine h.books.ended (r.operation, .error .sessionClosed) ?_
  simp only [settled, List.mem_append]
  exact .inl (.inr (List.mem_map_of_mem hr))

theorem Placed.result_of_handedBack {k : Work} {givenUp : List WriteRequest}
    (h : k.Placed givenUp) {x : Handover} (hx : x ∈ k.handedBack) :
    k.board.result? x.request.operation = some (.error .sessionClosed) := by
  refine h.books.ended (x.request.operation, .error .sessionClosed) ?_
  simp only [settled, List.mem_append]
  exact .inr (List.mem_map_of_mem hx)

theorem Placed.result_of_waiting {k : Work} {givenUp : List WriteRequest}
    (h : k.Placed givenUp) {r : WriteRequest} (hr : r ∈ k.waiting) :
    k.board.result? r.operation = none :=
  (h.books.pending r.operation (List.mem_map_of_mem hr)).result?

/-- The writer gets on, and no request changes its place. -/
theorem Placed.move {k : Work} {givenUp : List WriteRequest} (h : k.Placed givenUp)
    (queue : List WriteRequest) (closed : Bool) (wire : Bytes) (broken : Option BrokenWrite)
    {writer : WriterPhase} {k' : Work}
    (hk : k' = { k with queue := queue, queueClosed := closed, writer := writer,
                        wire := wire, broken := broken })
    (hlost : k'.lost = k.lost) (hwaiting : k'.waiting = k.waiting) : k'.Placed givenUp where
  order := by
    rw [hlost, hwaiting, hk]
    exact h.order
  books := by
    rw [settled, hlost, hwaiting, hk]
    exact h.books

/-- The request that is next is ended, and goes to the place that its result
stands for. -/
theorem Placed.settle {k k' : Work} {givenUp givenUp' : List WriteRequest}
    (h : k.Placed givenUp) (r : WriteRequest) (rest : List WriteRequest) (result : SendResult)
    (hwaiting : k.waiting = r :: rest) (hwaiting' : k'.waiting = rest)
    (hentered : k'.entered = k.entered)
    (hboard : k'.board = (k.board.complete r.operation result).2)
    (hplaces : k'.written ++ k'.lost.map BrokenWrite.request ++ givenUp' =
      k.written ++ k.lost.map BrokenWrite.request ++ givenUp ++ [r])
    (hsettled : ∀ e, e ∈ k'.settled givenUp' ↔
      e ∈ k.settled givenUp ∨ e = (r.operation, result)) : k'.Placed givenUp' where
  order := by
    rw [hentered, hplaces, hwaiting', h.order, hwaiting]
    simp
  books := by
    have hbooks := h.books
    rw [hwaiting, List.map_cons] at hbooks
    rw [hboard, hwaiting']
    exact (hbooks.settle result).reorder fun e => by
      rw [hsettled, List.mem_append, List.mem_singleton]

/-! ## The phases -/

/-- What the writer's phase tells about the rest. -/
def Lawful (k : Work) (mode : Mode) (winner : Option Closer)
    (givenUp : List WriteRequest) : Prop :=
  match k.writer with
  | .idle => k.queueClosed = false ∧ k.broken = none ∧ givenUp = []
  | .writing _ _ flushed =>
    k.queueClosed = flushed.isSome ∧ k.broken = none ∧ givenUp = [] ∧
      (flushed ≠ none → mode ≠ .running)
  | .failed r fault flushed =>
    k.queueClosed = flushed.isSome ∧ (∃ left, k.broken = some ⟨r, left, fault⟩) ∧
      givenUp = []
  | .breaking _ flushed _ =>
    k.queueClosed = flushed.isSome ∧ k.broken ≠ none ∧ givenUp = []
  | .stopping healthy =>
    k.queueClosed = false ∧ healthy = k.broken.isNone ∧ givenUp = [] ∧
      (k.broken = none → mode ≠ .running)
  | .choosing healthy =>
    k.queueClosed = true ∧ healthy = k.broken.isNone ∧ givenUp = [] ∧
      (k.broken = none → mode ≠ .running)
  | .draining _ =>
    k.queueClosed = true ∧ k.broken = none ∧ givenUp = [] ∧ mode ≠ .running
  | .drained _ _ =>
    k.queueClosed = true ∧ givenUp = [] ∧
      (k.broken = none → mode ≠ .running ∧ k.queue = [])
  | .rejecting _ _ =>
    k.queueClosed = true ∧
      (k.broken = none → mode ≠ .running ∧
        (winner = some .caller → k.queue = [] ∧ givenUp = []))
  | .ended =>
    k.queueClosed = true ∧ k.queue = [] ∧
      (k.broken = none → mode ≠ .running ∧ (winner = some .caller → givenUp = []))

variable {k : Work} {mode mode' : Mode} {winner winner' : Option Closer}
  {givenUp : List WriteRequest}

/-- A mode that is settled, and the winner with it, stay while others go on. -/
theorem Lawful.later (h : k.Lawful mode winner givenUp)
    (hmode : mode ≠ .running → mode' ≠ .running ∧ winner' = winner) :
    k.Lawful mode' winner' givenUp := by
  unfold Lawful at h ⊢
  revert h
  cases k.writer with
  | idle | failed | breaking => exact id
  | writing r rest flushed =>
      rintro ⟨hclosed, hbroken, hgiven, htold⟩
      exact ⟨hclosed, hbroken, hgiven, fun hf => (hmode (htold hf)).1⟩
  | stopping healthy | choosing healthy =>
      rintro ⟨hclosed, hhealthy, hgiven, htold⟩
      exact ⟨hclosed, hhealthy, hgiven, fun hb => (hmode (htold hb)).1⟩
  | draining flushed =>
      rintro ⟨hclosed, hbroken, hgiven, htold⟩
      exact ⟨hclosed, hbroken, hgiven, (hmode htold).1⟩
  | drained healthy flushed =>
      rintro ⟨hclosed, hgiven, hsound⟩
      exact ⟨hclosed, hgiven, fun hb => ⟨(hmode (hsound hb).1).1, (hsound hb).2⟩⟩
  | rejecting healthy dropped =>
      rintro ⟨hclosed, hsound⟩
      refine ⟨hclosed, fun hb => ?_⟩
      obtain ⟨hstays, hsame⟩ := hmode (hsound hb).1
      rw [hsame]
      exact ⟨hstays, (hsound hb).2⟩
  | ended =>
      rintro ⟨hclosed, hspent, hsound⟩
      refine ⟨hclosed, hspent, fun hb => ?_⟩
      obtain ⟨hstays, hsame⟩ := hmode (hsound hb).1
      rw [hsame]
      exact ⟨hstays, (hsound hb).2⟩

/-- While the queue is open, another request may come to its end. -/
theorem Lawful.lineUp (h : k.Lawful mode winner givenUp) (hq : k.queueClosed = false)
    {k' : Work} (hwriter : k'.writer = k.writer) (hclosed : k'.queueClosed = k.queueClosed)
    (hbroken : k'.broken = k.broken) : k'.Lawful mode winner givenUp := by
  unfold Lawful at h ⊢
  rw [hwriter, hclosed, hbroken]
  revert h
  cases k.writer with
  | drained | rejecting | ended =>
      intro h
      rw [hq] at h
      cases h.1
  | _ => exact id

end Work

namespace Run

variable {w w' : Run} {e : RunEvent} {givenUp : List WriteRequest}

/-- The writer's part of a run is in order. -/
structure Ledger (w : Run) (givenUp : List WriteRequest) : Prop where
  placed : w.work.Placed givenUp
  lawful : w.work.Lawful w.session.mode w.winner givenUp

/-! ## What a step does to the ledger -/

private theorem placed_admits (h : w.work.Placed givenUp) (p : Payload) (bytes : Bytes)
    (hw' : w'.work = { w.work with
      board := w.session.board.push .pending
      queue := w.session.queue ++ [⟨bytes, w.session.board.size⟩]
      entered := w.entered ++ [⟨p, ⟨bytes, w.session.board.size⟩⟩] }) :
    w'.work.Placed givenUp := by
  have hwaiting : w'.work.waiting =
      w.work.waiting ++ [⟨bytes, w.session.board.size⟩] := by
    rw [hw']
    simp [Work.waiting, work]
  have hsettled : w'.work.settled givenUp = w.work.settled givenUp := by
    rw [hw']
    rfl
  have hlost : w'.work.lost = w.work.lost := by
    rw [hw']
    rfl
  constructor
  · rw [hwaiting, hlost, ← List.append_assoc, hw']
    simp only [List.map_append]
    rw [show w.entered.map Handover.request = _ from h.order]
    rfl
  · have hbooks := h.books.enter
    rw [hsettled, hwaiting, List.map_append, hw']
    exact hbooks

private theorem placed_turnsAway (h : w.work.Placed givenUp) (p : Payload) (bytes : Bytes)
    (hw' : w'.work = { w.work with
      board := ((w.session.board.push .pending).complete w.session.board.size
        (.error .sessionClosed)).2
      handedBack := w.handedBack ++ [⟨p, ⟨bytes, w.session.board.size⟩⟩] }) :
    w'.work.Placed givenUp := by
  constructor
  · rw [hw']
    exact h.order
  · have hbooks := h.books.turnAway (.error .sessionClosed)
    rw [hw']
    exact hbooks.reorder fun e => by simp [Work.settled, Work.lost, work]

private theorem placed_completes (h : w.work.Placed []) {r : WriteRequest}
    {flushed : Option Nat} (hw : w.session.writer = .writing r [] flushed)
    (hbroken : w.broken = none)
    (hw' : w'.work = { w.work with
      board := (w.session.board.complete r.operation .succeeded).2
      writer := Session.phaseAfterWritten flushed
      written := w.written ++ [r]
      fired := w.fired ++ (w.session.board.firing r.operation .succeeded).toList }) :
    w'.work.Placed [] := by
  have hlost : w'.work.lost = [] := by
    rw [hw']
    cases flushed <;> simp [Work.lost, work, hbroken, Session.phaseAfterWritten]
  have hwaiting' : w'.work.waiting = w.session.queue := by
    rw [hw']
    cases flushed <;> simp [Work.waiting, work, WriterPhase.holds, Session.phaseAfterWritten]
  refine h.settle r _ .succeeded ?_ hwaiting' ?_ ?_ ?_ ?_
  · simp [Work.waiting, work, hw, WriterPhase.holds]
  · rw [hw']
  · rw [hw']
    rfl
  · rw [hlost, hw']
    simp [Work.lost, work, hw, hbroken]
  · intro e
    rw [Work.settled, hlost, hw']
    simp [Work.settled, Work.lost, work, hw, hbroken, or_comm, or_assoc]

private theorem placed_reports (h : w.work.Placed []) {r : WriteRequest} {left : Bytes}
    {fault : IoFault} {flushed : Option Nat} {reason : String}
    (hw : w.session.writer = .failed r fault flushed)
    (hbroken : w.broken = some ⟨r, left, fault⟩)
    (hw' : w'.work = { w.work with
      board := (w.session.board.complete r.operation (.error (.io fault))).2
      writer := .breaking reason flushed .claiming
      fired := w.fired ++
        (w.session.board.firing r.operation (.error (.io fault))).toList }) :
    w'.work.Placed [] := by
  refine h.settle r w.session.queue (.error (.io fault)) ?_ ?_ ?_ ?_ ?_ ?_
  · simp [Work.waiting, work, hw, WriterPhase.holds]
  · rw [hw']
    simp [Work.waiting, work, WriterPhase.holds]
  · rw [hw']
  · rw [hw']
    rfl
  · rw [hw']
    simp [Work.lost, work, hw, hbroken]
  · intro e
    rw [hw']
    simp [Work.settled, Work.lost, work, hw, hbroken, or_comm, or_assoc]

private theorem placed_givesUp (h : w.work.Placed givenUp) {r : WriteRequest}
    {queue : List WriteRequest} {healthy : Bool} {dropped : Nat}
    (hw : w.session.writer = .rejecting healthy dropped) (hq : w.session.queue = r :: queue)
    (hw' : w'.work = { w.work with
      queue := queue
      board := (w.session.board.complete r.operation (.error .sessionClosed)).2
      writer := .rejecting healthy (dropped + 1)
      fired := w.fired ++
        (w.session.board.firing r.operation (.error .sessionClosed)).toList }) :
    w'.work.Placed (givenUp ++ [r]) := by
  refine h.settle r queue (.error .sessionClosed) ?_ ?_ ?_ ?_ ?_ ?_
  · simp [Work.waiting, work, hw, hq, WriterPhase.holds]
  · rw [hw']
    simp [Work.waiting, WriterPhase.holds]
  · rw [hw']
  · rw [hw']
    rfl
  · rw [hw']
    simp [Work.lost, work, hw]
  · intro e
    rw [hw']
    simp [Work.settled, Work.lost, work, hw, or_comm, or_left_comm, or_assoc]

/-- The law of the phase that the writer is in. -/
theorem Ledger.law (l : Ledger w givenUp) {phase : WriterPhase}
    (hw : w.session.writer = phase) :
    Work.Lawful { w.work with writer := phase } w.session.mode w.winner givenUp := by
  have hlaw := l.lawful
  rw [Work.Lawful, show w.work.writer = phase from hw] at hlaw
  exact hlaw

/-- The writer gets from one phase to the next with the same request in hand. -/
private theorem placed_moves (h : w.work.Placed givenUp) {phase : WriterPhase}
    {closed : Bool} (hp : PhaseMove w phase closed) :
    Work.Placed { w.work with writer := phase, queueClosed := closed } givenUp := by
  refine h.move w.work.queue closed w.work.wire w.work.broken rfl ?_ ?_
  · cases hp with
    | closed hw =>
        rename_i flushed _
        cases flushed <;> simp [Work.lost, work, hw, Session.phaseAfterFailure]
    | wakes hw | closes stage' hw | stops hw | drains hw | rejects hw | emptied hw
    | counts hw | ends hw => simp [Work.lost, work, hw]
  · cases hp with
    | closed hw =>
        rename_i flushed _
        cases flushed <;>
          simp [Work.waiting, work, hw, WriterPhase.holds, Session.phaseAfterFailure]
    | wakes hw | closes stage' hw | stops hw | drains hw | rejects hw | emptied hw
    | counts hw | ends hw => simp [Work.waiting, work, hw, WriterPhase.holds]

/-- The law of a phase holds when the writer gets there. -/
private theorem lawful_moves (h : w.Reached) (l : Ledger w givenUp) {phase : WriterPhase}
    {closed : Bool} (hp : PhaseMove w phase closed) :
    Work.Lawful { w.work with writer := phase, queueClosed := closed } w.session.mode
      w.winner givenUp := by
  cases hp with
  | wakes hw hm =>
      obtain ⟨hclosed, hbroken, hgiven⟩ := l.law hw
      refine ⟨hclosed, ?_, hgiven, fun _ => hm⟩
      rw [hbroken]
      rfl
  | closes stage' hw =>
      obtain ⟨hclosed, hbroken, hgiven⟩ := l.law hw
      exact ⟨hclosed, hbroken, hgiven⟩
  | closed hw =>
      rename_i flushed _
      obtain ⟨hclosed, hbroken, hgiven⟩ := l.law hw
      have hhealthy : false = w.work.broken.isNone := by
        simpa [Option.isSome_iff_ne_none] using hbroken
      cases flushed with
      | none => exact ⟨hclosed, hhealthy, hgiven, fun hb => absurd hb hbroken⟩
      | some n => exact ⟨hclosed, hgiven, fun hb => absurd hb hbroken⟩
  | stops hw =>
      obtain ⟨-, hhealthy, hgiven, htold⟩ := l.law hw
      exact ⟨rfl, hhealthy, hgiven, htold⟩
  | drains hw =>
      obtain ⟨hclosed, hhealthy, hgiven, htold⟩ := l.law hw
      have hbroken : w.work.broken = none := by simpa using hhealthy.symm
      exact ⟨hclosed, hbroken, hgiven, htold hbroken⟩
  | rejects hw hm =>
      obtain ⟨hclosed, hhealthy, hgiven, htold⟩ := l.law hw
      refine ⟨hclosed, fun hb => ⟨htold hb, fun hwinner => ?_⟩⟩
      -- a healthy writer that was told of a caller's close finishes the queue
      exfalso
      have hdrain := h.claims.mode_of_caller hwinner (htold hb)
      exact hm ⟨by rw [hhealthy, show w.work.broken = none from hb]; rfl, hdrain⟩
  | emptied hw hq =>
      obtain ⟨hclosed, hbroken, hgiven, htold⟩ := l.law hw
      exact ⟨hclosed, hgiven, fun _ => ⟨htold, hq⟩⟩
  | counts hw =>
      obtain ⟨hclosed, hgiven, hsound⟩ := l.law hw
      refine ⟨hclosed, fun hb => ⟨(hsound hb).1, fun _ => ?_⟩⟩
      exact ⟨(hsound hb).2, hgiven⟩
  | ends hw hq =>
      obtain ⟨hclosed, hsound⟩ := l.law hw
      refine ⟨hclosed, hq, fun hb => ⟨(hsound hb).1, fun hwinner => ?_⟩⟩
      exact ((hsound hb).2 hwinner).2

/-- What a step makes of a ledger, as far as it does not settle the closing. -/
private theorem ledger_effect (h : w.Reached) (l : Ledger w givenUp) (he : Effect w e w') :
    ∃ givenUp', w'.work.Placed givenUp' ∧
      w'.work.Lawful w.session.mode w.winner givenUp' := by
  cases he with
  | aside hw' =>
      rw [hw']
      exact ⟨givenUp, l.placed, l.lawful⟩
  | callbacks _ board hb hw' =>
      rw [hw']
      exact ⟨givenUp, ⟨l.placed.order, l.placed.books.congr hb⟩, l.lawful⟩
  | refuses e hw' =>
      rw [hw']
      exact ⟨givenUp, ⟨l.placed.order, l.placed.books.refuse e⟩, l.lawful⟩
  | turnsAway p bytes hq hw' =>
      refine ⟨givenUp, placed_turnsAway l.placed p bytes hw', ?_⟩
      rw [hw']
      exact l.lawful
  | admits p bytes hq hw' =>
      refine ⟨givenUp, placed_admits l.placed p bytes hw', ?_⟩
      rw [hw']
      exact l.lawful.lineUp hq rfl rfl rfl
  | takes flushed hw hq hw' =>
      have hrow : w.broken = none ∧ givenUp = [] ∧ w.session.queueClosed = flushed.isSome ∧
          (flushed ≠ none → w.session.mode ≠ .running) := by
        cases flushed with
        | none =>
            obtain ⟨hclosed, hbroken, hgiven⟩ := l.law hw
            exact ⟨hbroken, hgiven, hclosed, fun hf => absurd rfl hf⟩
        | some n =>
            obtain ⟨hclosed, hbroken, hgiven, htold⟩ := l.law hw
            exact ⟨hbroken, hgiven, hclosed, fun _ => htold⟩
      obtain ⟨hbroken, hgiven, hclosed, htold⟩ := hrow
      refine ⟨givenUp,
        l.placed.move _ w.session.queueClosed w.wire w.broken hw' ?_ ?_, ?_⟩
      · rw [hw']
        cases flushed <;> simp [Work.lost, work, hw, WriterPhase.ready]
      · rw [hw']
        cases flushed <;>
          simp [Work.waiting, work, hw, hq, WriterPhase.ready, WriterPhase.holds]
      · rw [hw']
        exact ⟨hclosed, hbroken, hgiven, htold⟩
  | puts count hw hw' =>
      refine ⟨givenUp,
        l.placed.move w.session.queue w.session.queueClosed _ w.broken hw' ?_ ?_, ?_⟩
      · rw [hw']
        simp [Work.lost, work, hw]
      · rw [hw']
        simp [Work.waiting, work, hw, WriterPhase.holds]
      · rw [hw']
        exact l.law hw
  | breaks fault hw hw' =>
      obtain ⟨hclosed, hbroken, hgiven, htold⟩ := l.law hw
      refine ⟨givenUp,
        l.placed.move w.session.queue w.session.queueClosed w.wire _ hw' ?_ ?_, ?_⟩
      · rw [hw']
        simp [Work.lost, work, hw, show w.broken = none from hbroken]
      · rw [hw']
        simp [Work.waiting, work, hw, WriterPhase.holds]
      · rw [hw']
        exact ⟨hclosed, ⟨_, rfl⟩, hgiven⟩
  | completes hw hw' =>
      rename_i r flushed
      obtain ⟨hclosed, hbroken, rfl, htold⟩ := l.law hw
      refine ⟨[], placed_completes l.placed hw hbroken hw', ?_⟩
      rw [hw']
      cases flushed with
      | none => exact ⟨hclosed, hbroken, rfl⟩
      | some n => exact ⟨hclosed, hbroken, rfl, htold (Option.some_ne_none n)⟩
  | reports reason hw hw' =>
      obtain ⟨hclosed, ⟨left, hbroken⟩, rfl⟩ := l.law hw
      refine ⟨[], placed_reports l.placed hw hbroken hw', ?_⟩
      rw [hw']
      have hnone : w.work.broken ≠ none := by
        rw [show w.work.broken = _ from hbroken]
        exact Option.some_ne_none _
      exact ⟨hclosed, hnone, rfl⟩
  | givesUp hw hq hw' =>
      rename_i r queue healthy dropped
      obtain ⟨hclosed, hsound⟩ := l.law hw
      refine ⟨givenUp ++ [r], placed_givesUp l.placed hw hq hw', ?_⟩
      rw [hw']
      refine ⟨hclosed, fun hb => ⟨(hsound hb).1, fun hwinner => ?_⟩⟩
      have hempty : w.session.queue = [] := ((hsound hb).2 hwinner).1
      rw [hq] at hempty
      cases hempty
  | moves phase closed hp hw' =>
      rw [hw']
      exact ⟨givenUp, placed_moves l.placed hp, lawful_moves h l hp⟩

theorem ledger_of_step (h : w.Reached) (he : w.step? e = some w')
    (l : Ledger w givenUp) : ∃ givenUp', Ledger w' givenUp' := by
  obtain ⟨givenUp', hplaced, hlawful⟩ := ledger_effect h l (effect_of_step he)
  refine ⟨givenUp', hplaced, hlawful.later fun hmode => ?_⟩
  exact ⟨h.mode_step he hmode, h.winner_step he (h.claims.winner_ne_none hmode)⟩

theorem Reached.ledger (h : w.Reached) : ∃ givenUp, Ledger w givenUp := by
  refine h.invariant (P := fun w => ∃ givenUp, Ledger w givenUp) ?_ ?_
  · rintro _ ⟨label, remote, config, now⟩
    refine ⟨[], ?_, ?_⟩
    · rw [work_start]
      exact ⟨rfl, nofun, nofun, nofun, nofun, List.nodup_nil⟩
    · rw [work_start]
      exact ⟨rfl, rfl, rfl⟩
  · rintro w w' (hw : w.Reached) ⟨e, he⟩ ⟨givenUp, l⟩
    exact ledger_of_step hw he l

end Run

end PeerLink
