import PeerLink.Proofs.Session.Wire

/-!
# What the writer counts

A session counts the requests that its writer has written, and their bytes.  It
counts a request in the step in which the operation ends well, before it ends, and
at no other time; so the counters tell how many operations have ended well and how
many bytes went with them, whoever else sends, closes or fails meanwhile.

On the wire there may be more bytes than were counted: those of the request that is
being written, or what was put out of the one request whose write failed.

## Main results

* `Run.outwardEffect_of_step` — a step counts one request that was written, or
  nothing.
* `Run.Reached.countedOut` — the counters follow the requests that were written.
* `Run.Reached.delivered_eq` — those are the requests whose operations ended well.
* `Run.counters_follow_results` — the counters, the results and the wire together.
-/

namespace PeerLink

/-- What a writer has written, and what it has counted. -/
structure Outward where
  written : List WriteRequest
  bytesOut : Nat
  framesSent : Nat

/-- The counters follow the requests and their bytes, modulo 2^64. -/
structure Outward.Counted (k : Outward) : Prop where
  bytesOut : k.bytesOut = (k.written.flatMap WriteRequest.bytes).length % UInt64.size
  framesSent : k.framesSent = k.written.length % UInt64.size

/-- What is so after one more request was written and counted. -/
def Outward.count (k : Outward) (r : WriteRequest) : Outward where
  written := k.written ++ [r]
  bytesOut := Traffic.advance k.bytesOut r.bytes.length
  framesSent := Traffic.advance k.framesSent 1

theorem Outward.Counted.count {k : Outward} (h : k.Counted) (r : WriteRequest) :
    (k.count r).Counted where
  bytesOut := by
    rw [Outward.count, h.bytesOut, Traffic.advance_mod]
    simp
  framesSent := by
    rw [Outward.count, h.framesSent, Traffic.advance_mod]
    simp

namespace Run

variable {w w' : Run} {e : RunEvent} {givenUp : List WriteRequest}

/-! ## Every step -/

/-- What the writer has written and counted in a run. -/
def outward (w : Run) : Outward where
  written := w.written
  bytesOut := w.session.traffic.bytesOut
  framesSent := w.session.traffic.framesSent

/-- What a step can do to it. -/
inductive OutwardEffect (w w' : Run) : Prop
  | aside (h : w'.outward = w.outward)
  /-- A request, of which no byte was left to write, was ended. -/
  | counts {r : WriteRequest} {flushed : Option Nat}
      (hw : w.session.writer = .writing r [] flushed) (h : w'.outward = w.outward.count r)

private theorem outwardEffect_write (h : w.write = some w') : w.OutwardEffect w' := by
  obtain ⟨s, firing, hgoes, rfl⟩ := writerGoes_of_write h
  cases hgoes with
  | completes journal hw =>
      refine .counts hw ?_
      simp [outward, Outward.count, setSession, hw, WriterPhase.completed,
        Session.countWritten, Traffic.countWritten]
  | closes hw =>
      exact .aside (by simp [outward, setSession, hw, WriterPhase.completed])
  | wakes hw | takes hw | reports reason hw | closed hw | stops hw | drains hw
  | rejects hw | takesLast hw | emptied hw | counts journal hw | givesUp hw
  | ends journal hw =>
      exact .aside (by simp [outward, setSession, hw, WriterPhase.completed])

/-- Nobody but the writer counts what goes out. -/
theorem outwardEffect_of_step (h : w.step? e = some w') : w.OutwardEffect w' := by
  cases e with
  | send p | close | tick now =>
      obtain rfl := Option.some.inj h
      exact .aside rfl
  | look i =>
      obtain ⟨p, -, ⟨e, journal, -, rfl⟩ | ⟨bytes, -, rfl⟩ | rfl⟩ := looking_of_look h
      · exact .aside rfl
      · exact .aside rfl
      · exact .aside rfl
  | enqueue i =>
      obtain ⟨p, bytes, -, ⟨-, rfl⟩ | ⟨-, rfl⟩⟩ := queueing_of_enqueue h
      · exact .aside rfl
      · exact .aside rfl
  | closeStep i =>
      obtain ⟨stage, -, rfl⟩ := stage_of_closeStep h
      exact .aside (by simp [outward, setSession])
  | write => exact outwardEffect_write h
  | take =>
      obtain ⟨r, queue, -, -, rfl⟩ := idle_of_take h
      exact .aside rfl
  | put count =>
      obtain ⟨r, rest, flushed, -, -, -, rfl⟩ := writing_of_put h
      exact .aside rfl
  | failWrite fault =>
      obtain ⟨r, rest, flushed, journal, -, rfl⟩ := writing_of_failWrite h
      exact .aside rfl
  | read =>
      obtain ⟨s, hgoes, rfl⟩ := readerGoes_of_read h
      cases hgoes with
      | closes hr => exact .aside (by simp [outward, setSession])
      | _ => exact .aside rfl
  | got bytes =>
      simp only [step?] at h
      split at h
      · cases h
      · obtain ⟨-, rfl⟩ := reading_of_answerRead h
        exact .aside rfl
  | atEnd | failRead fault =>
      obtain ⟨-, rfl⟩ := reading_of_answerRead h
      exact .aside rfl
  | outside call =>
      obtain rfl := Option.some.inj h
      cases call <;> exact .aside rfl

/-! ## What was counted -/

theorem outward_start (label : String) (remote : Option Address) (config : SessionConfig)
    (now : Duration) : (start label remote config now).outward =
      { written := [], bytesOut := 0, framesSent := 0 } := by
  obtain ⟨journal, hsession⟩ := session_start label remote config now
  rw [outward, hsession]
  rfl

theorem OutwardEffect.counted (h : w.OutwardEffect w') (hc : w.outward.Counted) :
    w'.outward.Counted := by
  cases h with
  | aside hk =>
      rw [hk]
      exact hc
  | counts hw hk =>
      rw [hk]
      exact hc.count _

theorem Reached.countedOut (h : w.Reached) : w.outward.Counted := by
  refine h.invariant (P := fun w => w.outward.Counted) ?_ ?_
  · rintro _ ⟨label, remote, config, now⟩
    rw [outward_start]
    exact ⟨rfl, rfl⟩
  · rintro w w' _ ⟨e, he⟩ hcounted
    exact (outwardEffect_of_step he).counted hcounted

/-! ## What was delivered -/

/-- The requests whose operations have ended well, in the order of the queue. -/
def delivered (w : Run) : List WriteRequest :=
  w.requests.filter fun r => w.session.board.result? r.operation = some .succeeded

/-- Of the requests in the queue's order, those that were written are those that
have ended well. -/
theorem Reached.delivered_eq (h : w.Reached) : w.delivered = w.written := by
  obtain ⟨givenUp, l⟩ := h.ledger
  have hwritten : ∀ r ∈ w.written,
      w.session.board.result? r.operation = some .succeeded :=
    fun r hr => l.placed.result_of_written hr
  have hlost : ∀ b ∈ w.work.lost,
      w.session.board.result? b.request.operation ≠ some .succeeded := by
    intro b hb hgood
    cases (l.placed.result_of_lost hb).symm.trans hgood
  have hgiven : ∀ r ∈ givenUp,
      w.session.board.result? r.operation ≠ some .succeeded := by
    intro r hr hgood
    cases (l.placed.result_of_givenUp hr).symm.trans hgood
  have hwaiting : ∀ r ∈ w.work.waiting,
      w.session.board.result? r.operation ≠ some .succeeded := by
    intro r hr hgood
    cases (l.placed.result_of_waiting hr).symm.trans hgood
  rw [delivered, requests_eq l, List.filter_append, List.filter_append, List.filter_append,
    List.filter_eq_self.2 (by simpa using hwritten),
    List.filter_eq_nil_iff.2 (by simpa using hlost),
    List.filter_eq_nil_iff.2 (by simpa using hgiven),
    List.filter_eq_nil_iff.2 (by simpa using hwaiting)]
  simp

theorem Reached.mem_delivered_iff (h : w.Reached) {n : Nat} :
    n ∈ w.delivered.map WriteRequest.operation ↔
      w.session.board.result? n = some .succeeded := by
  constructor
  · intro hn
    obtain ⟨r, hr, rfl⟩ := List.mem_map.1 hn
    simpa using (List.mem_filter.1 hr).2
  · intro hgood
    obtain ⟨givenUp, l⟩ := h.ledger
    obtain ⟨i, r, hi, hr, rfl⟩ := written_of_succeeded l hgood
    rw [requests_of_lt l hi] at hr
    rw [h.delivered_eq]
    exact List.mem_map_of_mem (List.mem_of_getElem? hr)

theorem Reached.delivered_nodup (h : w.Reached) :
    (w.delivered.map WriteRequest.operation).Nodup :=
  (List.filter_sublist.map _).nodup h.operations_nodup

/-- Beyond what was delivered, the wire holds a part of the one request whose write
failed, unless the writer is writing. -/
theorem Reached.wire_eq (h : w.Reached) : ∃ part : Bytes,
    w.wire = w.delivered.flatMap WriteRequest.bytes ++ part ∧
    ((∀ r rest flushed, w.session.writer ≠ .writing r rest flushed) →
      match w.broken with
      | some b => b.request.bytes = part ++ b.left
      | none => part = []) := by
  obtain ⟨part, hwired⟩ := h.wired
  refine ⟨part, ?_, ?_⟩
  · rw [h.delivered_eq]
    exact hwired.1
  · intro hidle
    exact ((Work.wired_iff (k := w.work) hidle).1 hwired).2

/-- A step delivers one request and counts it, or does neither. -/
theorem Reached.delivers (h : w.Reached) (he : w.step? e = some w') :
    w'.delivered = w.delivered ∧
        w'.session.traffic.framesSent = w.session.traffic.framesSent ∧
        w'.session.traffic.bytesOut = w.session.traffic.bytesOut ∨
      ∃ r, w'.delivered = w.delivered ++ [r] ∧
        w.session.board.result? r.operation = none ∧
        w'.session.board.result? r.operation = some .succeeded ∧
        w'.session.traffic.framesSent = Traffic.advance w.session.traffic.framesSent 1 ∧
        w'.session.traffic.bytesOut =
          Traffic.advance w.session.traffic.bytesOut r.bytes.length := by
  rw [h.delivered_eq, Reached.delivered_eq (h.step he)]
  cases outwardEffect_of_step he with
  | aside hk =>
      exact .inl ⟨congrArg Outward.written hk, congrArg Outward.framesSent hk,
        congrArg Outward.bytesOut hk⟩
  | counts hw hk =>
      rename_i r flushed
      obtain ⟨givenUp, l⟩ := h.ledger
      have hwritten : w'.written = w.written ++ [r] := congrArg Outward.written hk
      have hmem : r ∈ w'.delivered := by
        rw [Reached.delivered_eq (h.step he), hwritten]
        simp
      refine .inr ⟨r, hwritten, (request_of_writing l hw).2, ?_,
        congrArg Outward.framesSent hk, congrArg Outward.bytesOut hk⟩
      exact (Reached.mem_delivered_iff (h.step he)).1 (List.mem_map_of_mem hmem)

end Run

/-! ## The moment of a good result -/

theorem Board.result_of_firing {b : Board Ack} {n : Nat} {r : SendResult} {f : Firing}
    (h : b.firing n r = some f) : f.operation = n ∧ f.result = r := by
  unfold firing at h
  split at h
  · obtain rfl := Option.some.inj h
    exact ⟨rfl, rfl⟩
  · cases h

/-- When an ack is to be run because of a good result, the request was counted first,
and its operation was ended in the session with the new counters. -/
theorem Session.counted_before_firing {s s' : Session} {now : Duration} {due : DueAck}
    (h : s.writerMove now = .go s' (some due)) (hgood : due.firing.result = .succeeded) :
    ∃ (r : WriteRequest) (flushed : Option Nat) (counted : Session),
      s.writer = .writing r [] flushed ∧ due.firing.operation = r.operation ∧
      counted.board = s.board ∧ counted.traffic = s.traffic.countWritten r.bytes.length ∧
      (counted.resolve r.operation .succeeded).2 = some due ∧
      s' = { (counted.resolve r.operation .succeeded).1 with
        writer := phaseAfterWritten flushed } := by
  have hmove : (s.writerMove now).outcome? = some (s', some due.firing) := by
    rw [h]
    rfl
  have hgoes := writerGoes_of_move hmove
  generalize hfiring : some due.firing = firing at hgoes
  cases hgoes with
  | completes journal hw =>
      rename_i r flushed
      obtain ⟨hop, -⟩ := Board.result_of_firing hfiring.symm
      simp only [writerMove, hw] at h
      obtain ⟨hsession, hack⟩ := WriterMove.go.inj h
      refine ⟨r, flushed, _, hw, hop, ?_, ?_, hack, hsession.symm⟩
      · rfl
      · rfl
  | reports reason hw | givesUp hw hq =>
      obtain ⟨-, hbad⟩ := Board.result_of_firing hfiring.symm
      rw [hgood] at hbad
      cases hbad
  | _ => cases hfiring

namespace Run

variable {w w' : Run} {e : RunEvent}

/-- An ack that is run because of a good result is handed out by a session that has counted
its request, and the request was counted while its operation was still pending. -/
theorem Reached.counters_at_firing (h : w.Reached) {s : Session} {due : DueAck}
    (hmove : w.session.writerMove w.clock = .go s (some due))
    (hgood : due.firing.result = .succeeded) :
    ∃ r ∈ w.requests, r.operation = due.firing.operation ∧
      s.board.result? due.firing.operation = some .succeeded ∧
      due.traffic = s.traffic ∧
      due.traffic.framesSent = (w.delivered.length + 1) % UInt64.size ∧
      due.traffic.bytesOut =
        ((w.delivered.flatMap WriteRequest.bytes).length + r.bytes.length) % UInt64.size ∧
      ∃ counted : Session, counted.traffic = due.traffic ∧
        counted.board.result? due.firing.operation = none ∧
        (counted.resolve due.firing.operation .succeeded).2 = some due := by
  obtain ⟨givenUp, l⟩ := h.ledger
  obtain ⟨hbytes, hframes⟩ := h.countedOut
  obtain ⟨r, flushed, counted, hw, hop, hboard, htraffic, hfires, rfl⟩ :=
    Session.counted_before_firing hmove hgood
  have hpending : w.session.board.IsPending r.operation := by
    refine l.placed.books.pending r.operation (List.mem_map_of_mem ?_)
    simp [Work.waiting, work, hw, WriterPhase.holds]
  have hmem : r ∈ w.requests := List.mem_of_getElem? (request_of_writing l hw).1
  obtain ⟨-, hseen⟩ := Session.traffic_of_resolve hfires
  rw [h.delivered_eq, hop]
  refine ⟨r, hmem, rfl, ?_, ?_, ?_, ?_, counted, hseen.symm, ?_, hfires⟩
  · rw [Session.resolve_eq, hboard]
    exact (Board.result?_complete_of_pending hpending _ _).trans (if_pos rfl)
  · rw [Session.resolve_eq]
    exact hseen
  · rw [hseen, htraffic, Traffic.countWritten,
      show w.session.traffic.framesSent = _ from hframes, Traffic.advance_mod]
    rfl
  · rw [hseen, htraffic, Traffic.countWritten,
      show w.session.traffic.bytesOut = _ from hbytes, Traffic.advance_mod]
    rfl
  · rw [hboard]
    exact hpending.result?

/-- At each moment of a run the counters are, modulo 2^64, the number of operations that
have ended well and the number of bytes of their requests.  The wire holds these bytes
and, unless the writer is writing, nothing more than what was put out of the one request
whose write failed.  An ack that runs because of a good result finds its request counted:
the counters it goes with are those of the session that counted the request and then ended
the operation, and no other step comes between.  A step counts one request, whose operation
ends well with it, or it lets no operation end well and counts nothing. -/
theorem counters_follow_results (h : w.Reached) :
    ((w.delivered.map WriteRequest.operation).Nodup ∧
      ∀ n, n ∈ w.delivered.map WriteRequest.operation ↔
        w.session.board.result? n = some .succeeded) ∧
    (w.session.traffic.framesSent = w.delivered.length % UInt64.size ∧
      w.session.traffic.bytesOut =
        (w.delivered.flatMap WriteRequest.bytes).length % UInt64.size) ∧
    (∃ part : Bytes, w.wire = w.delivered.flatMap WriteRequest.bytes ++ part ∧
      w.session.traffic.bytesOut = (w.wire.length - part.length) % UInt64.size ∧
      ((∀ r rest flushed, w.session.writer ≠ .writing r rest flushed) →
        match w.broken with
        | some b => b.request.bytes = part ++ b.left ∧
            ∀ w', Steps w w' → w'.broken = some b ∧ w'.wire = w.wire
        | none => part = [])) ∧
    (∀ s due, w.session.writerMove w.clock = .go s (some due) →
      due.firing.result = .succeeded →
      ∃ r ∈ w.requests, r.operation = due.firing.operation ∧
        s.board.result? due.firing.operation = some .succeeded ∧
        due.traffic = s.traffic ∧
        due.traffic.framesSent = (w.delivered.length + 1) % UInt64.size ∧
        due.traffic.bytesOut =
          ((w.delivered.flatMap WriteRequest.bytes).length + r.bytes.length) % UInt64.size ∧
        ∃ counted : Session, counted.traffic = due.traffic ∧
          counted.board.result? due.firing.operation = none ∧
          (counted.resolve due.firing.operation .succeeded).2 = some due) ∧
    ∀ e w', w.step? e = some w' →
      w'.delivered = w.delivered ∧
          w'.session.traffic.framesSent = w.session.traffic.framesSent ∧
          w'.session.traffic.bytesOut = w.session.traffic.bytesOut ∨
        ∃ r, w'.delivered = w.delivered ++ [r] ∧
          w.session.board.result? r.operation = none ∧
          w'.session.board.result? r.operation = some .succeeded ∧
          w'.session.traffic.framesSent = Traffic.advance w.session.traffic.framesSent 1 ∧
          w'.session.traffic.bytesOut =
            Traffic.advance w.session.traffic.bytesOut r.bytes.length := by
  have hcounted := h.countedOut
  have hbytes : w.session.traffic.bytesOut =
      (w.delivered.flatMap WriteRequest.bytes).length % UInt64.size := by
    rw [h.delivered_eq]
    exact hcounted.bytesOut
  have hframes : w.session.traffic.framesSent = w.delivered.length % UInt64.size := by
    rw [h.delivered_eq]
    exact hcounted.framesSent
  refine ⟨⟨h.delivered_nodup, fun n => h.mem_delivered_iff⟩, ⟨hframes, hbytes⟩, ?_,
    fun s due => h.counters_at_firing, fun e w' => h.delivers⟩
  obtain ⟨part, hwire, hrest⟩ := h.wire_eq
  refine ⟨part, hwire, ?_, ?_⟩
  · rw [hbytes, hwire, List.length_append, Nat.add_sub_cancel]
  · intro hidle
    have hpart := hrest hidle
    cases hbroken : w.broken with
    | none =>
        rw [hbroken] at hpart
        exact hpart
    | some b =>
        rw [hbroken] at hpart
        refine ⟨hpart, ?_⟩
        intro w' hs
        exact (h.wire_of_broken hbroken hs).symm

/-- Three sends, the first with an ack; its byte is out. -/
def acknowledged : Run :=
  (start "1" none {} default).after
    [.send (.buffer [1]), .look 0, .enqueue 0, .outside (.watch 0 (.watch 0)),
      .send (.buffer [2, 2]), .look 1, .enqueue 1, .send (.buffer [3]), .look 2, .enqueue 2,
      .write, .put 1]

/-- The write of the second fails after a byte, and the third is given up. -/
def torn : Run :=
  acknowledged.after <|
    [.write, .take, .put 1, .failWrite (.bare .brokenPipe)] ++ List.replicate 9 .write

/-- The ack finds the first send counted, and no other send is counted after that. -/
theorem torn_counts_one :
    (∃ s due, acknowledged.session.writerMove acknowledged.clock = .go s (some due) ∧
      due.firing.result = .succeeded ∧ due.firing.operation = 0 ∧
      due.traffic.framesSent = 1 ∧ s.board.result? 0 = some .succeeded) ∧
    torn.delivered.map WriteRequest.operation = [0] ∧
      torn.session.traffic.framesSent = 1 ∧ torn.wire = [1, 2] ∧
      ∃ part : Bytes, torn.wire = torn.delivered.flatMap WriteRequest.bytes ++ part ∧
        torn.session.traffic.bytesOut = (torn.wire.length - part.length) % UInt64.size := by
  have hfirst : acknowledged.Reached := (Reached.start _ _ _ _).after _
  have hlast : torn.Reached := hfirst.after _
  obtain ⟨-, -, -, hack, -⟩ := counters_follow_results hfirst
  obtain ⟨-, -, ⟨part, hwire, hbytes, -⟩, -⟩ := counters_follow_results hlast
  refine ⟨?_, rfl, rfl, rfl, part, hwire, hbytes⟩
  obtain ⟨r, hr, hop, hresult, -, hsent, -⟩ := hack _ _ rfl rfl
  exact ⟨_, _, rfl, rfl, rfl, hsent, hresult⟩

end Run

end PeerLink
