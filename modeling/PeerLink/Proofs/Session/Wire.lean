import PeerLink.Proofs.Session.Sends

/-!
# What is on the wire

The stream takes the bytes of one request after the other.  `Work.Wired` is the
invariant: what was put out are the requests that were written, and after them a
part of one more request, the one that is being written or the one whose write
failed.  A second write never starts behind a part that was left behind, since
the writer takes no request once a write has failed.

## Main results

* `Run.Reached.wired` — the invariant of the wire.
* `Run.Reached.wire_of_broken` — after a failed write the wire stays as it is.
* `Run.wire_agrees_with_results` — the wire holds the requests in order, and the
  results say how far.
-/

namespace PeerLink

/-- The wire holds what was written and then `part` of one more request. -/
def Work.Wired (k : Work) (part : Bytes) : Prop :=
  k.wire = k.written.flatMap WriteRequest.bytes ++ part ∧
    match k.writer, k.broken with
    | .writing r rest _, _ => r.bytes = part ++ rest
    | _, some b => b.request.bytes = part ++ b.left
    | _, none => part = []

/-- A writer that does not write has a part on the wire only if a write failed. -/
theorem Work.wired_iff {k : Work} {part : Bytes}
    (hw : ∀ r rest flushed, k.writer ≠ .writing r rest flushed) :
    k.Wired part ↔ k.wire = k.written.flatMap WriteRequest.bytes ++ part ∧
      match k.broken with
      | some b => b.request.bytes = part ++ b.left
      | none => part = [] := by
  unfold Wired
  cases hphase : k.writer with
  | writing r rest flushed => exact absurd hphase (hw r rest flushed)
  | _ => cases k.broken <;> rfl

namespace Run

variable {w w' : Run} {e : RunEvent} {givenUp : List WriteRequest} {part : Bytes}

/-! ## Every step -/

private theorem not_writing_of_move {phase : WriterPhase} {closed : Bool}
    (hp : PhaseMove w phase closed) :
    (∀ r rest flushed, w.session.writer ≠ .writing r rest flushed) ∧
      ∀ r rest flushed, phase ≠ .writing r rest flushed := by
  cases hp with
  | closed hw =>
      rename_i reason flushed effective
      constructor
      · rw [hw]
        nofun
      · cases flushed <;> nofun
  | wakes hw hm | closes stage' hw | stops hw | drains hw | rejects hw hm | emptied hw hq
  | counts hw | ends hw hq =>
      constructor
      · rw [hw]
        nofun
      · nofun

/-- While the writer writes, no write has failed. -/
private theorem broken_of_writing (l : Ledger w givenUp) {r : WriteRequest} {rest : Bytes}
    {flushed : Option Nat} (hw : w.session.writer = .writing r rest flushed) :
    w.broken = none :=
  (l.law hw).2.1

private theorem broken_of_ready (l : Ledger w givenUp) {flushed : Option Nat}
    (hw : w.session.writer = .ready flushed) : w.broken = none := by
  cases flushed with
  | none => exact (l.law hw).2.1
  | some n => exact (l.law hw).2.1

theorem wired_of_effect (l : Ledger w givenUp) (h : w.work.Wired part) (he : Effect w e w') :
    ∃ part', w'.work.Wired part' := by
  cases he with
  | aside hw' | callbacks _ board hb hw' | refuses e hw' | turnsAway p bytes hq hw'
  | admits p bytes hq hw' =>
      rw [hw']
      exact ⟨part, h⟩
  | takes flushed hw hq hw' =>
      rename_i r queue
      have hbroken := broken_of_ready l hw
      have hnot : ∀ r rest flushed, w.work.writer ≠ .writing r rest flushed := by
        intro _ _ _ hphase
        rw [show w.work.writer = _ from hw] at hphase
        cases flushed <;> cases hphase
      have hidle := (Work.wired_iff hnot).1 h
      rw [show w.work.broken = none from hbroken] at hidle
      obtain ⟨hwire, rfl⟩ := hidle
      rw [hw']
      exact ⟨[], hwire, rfl⟩
  | puts count hw hw' =>
      rename_i r rest flushed
      obtain ⟨hwire, hrow⟩ := h
      rw [show w.work.writer = _ from hw] at hrow
      rw [hw']
      refine ⟨part ++ rest.take count, ?_, ?_⟩
      · show w.wire ++ _ = w.written.flatMap WriteRequest.bytes ++ _
        rw [show w.wire = _ from hwire, List.append_assoc]
        rfl
      · show r.bytes = part ++ rest.take count ++ rest.drop count
        rw [List.append_assoc, List.take_append_drop]
        exact hrow
  | breaks fault hw hw' =>
      obtain ⟨hwire, hrow⟩ := h
      rw [show w.work.writer = _ from hw] at hrow
      rw [hw']
      exact ⟨part, hwire, hrow⟩
  | completes hw hw' =>
      rename_i r flushed
      have hbroken := broken_of_writing l hw
      obtain ⟨hwire, hrow⟩ := h
      rw [show w.work.writer = _ from hw] at hrow
      have hbytes : r.bytes = part := by
        rw [show r.bytes = part ++ [] from hrow, List.append_nil]
      rw [hw']
      refine ⟨[], (Work.wired_iff ?_).2 ⟨?_, ?_⟩⟩
      · intro _ _ _ hphase
        cases flushed <;> cases hphase
      · show w.wire = (w.written ++ [r]).flatMap WriteRequest.bytes ++ []
        rw [show w.wire = _ from hwire]
        simp [hbytes, work]
      · rw [show w.work.broken = none from hbroken]
  | reports reason hw hw' =>
      have hnot : ∀ r rest flushed, w.work.writer ≠ .writing r rest flushed := by
        intro _ _ _ hphase
        rw [show w.work.writer = _ from hw] at hphase
        cases hphase
      have hold := (Work.wired_iff hnot).1 h
      rw [hw']
      refine ⟨part, (Work.wired_iff ?_).2 hold⟩
      intro _ _ _ hphase
      cases hphase
  | givesUp hw hq hw' =>
      have hnot : ∀ r rest flushed, w.work.writer ≠ .writing r rest flushed := by
        intro _ _ _ hphase
        rw [show w.work.writer = _ from hw] at hphase
        cases hphase
      have hold := (Work.wired_iff hnot).1 h
      rw [hw']
      refine ⟨part, (Work.wired_iff ?_).2 hold⟩
      intro _ _ _ hphase
      cases hphase
  | moves phase closed hp hw' =>
      obtain ⟨hbefore, hafter⟩ := not_writing_of_move hp
      have hold := (Work.wired_iff (k := w.work) hbefore).1 h
      rw [hw']
      exact ⟨part, (Work.wired_iff hafter).2 hold⟩

theorem Reached.wired (h : w.Reached) : ∃ part, w.work.Wired part := by
  refine h.invariant (P := fun w => ∃ part, w.work.Wired part) ?_ ?_
  · rintro _ ⟨label, remote, config, now⟩
    rw [work_start]
    exact ⟨[], rfl, rfl⟩
  · rintro w w' (hw : w.Reached) ⟨e, he⟩ ⟨part, hwired⟩
    obtain ⟨givenUp, l⟩ := hw.ledger
    exact wired_of_effect l hwired (effect_of_step he)

/-! ## After a failed write -/

private theorem wire_of_effect (l : Ledger w givenUp) {b : BrokenWrite}
    (hb : w.broken = some b) (he : Effect w e w') : w'.wire = w.wire ∧ w'.broken = some b := by
  have hwriting : ∀ r rest flushed, w.session.writer ≠ .writing r rest flushed := by
    intro r rest flushed hw
    rw [broken_of_writing l hw] at hb
    cases hb
  have hsame : ∀ {k : Work}, w'.work = k → k.wire = w.wire → k.broken = w.broken →
      w'.wire = w.wire ∧ w'.broken = some b := by
    rintro k rfl hwire hbroken
    exact ⟨hwire, hbroken.trans hb⟩
  cases he with
  | puts count hw hw' => exact absurd hw (hwriting _ _ _)
  | breaks fault hw hw' => exact absurd hw (hwriting _ _ _)
  | aside hw' | callbacks _ board hb hw' | refuses e hw' | turnsAway p bytes hq hw'
  | admits p bytes hq hw' | takes flushed hw hq hw' | completes hw hw'
  | reports reason hw hw' | givesUp hw hq hw' | moves phase closed hp hw' =>
      exact hsame hw' rfl rfl

/-- After a failed write nothing more is put out. -/
theorem Reached.wire_of_broken (h : w.Reached) {b : BrokenWrite} (hb : w.broken = some b)
    (hs : Steps w w') : w'.wire = w.wire ∧ w'.broken = some b := by
  induction hs with
  | refl => exact ⟨rfl, hb⟩
  | tail hs he ih =>
      obtain ⟨e, he⟩ := he
      obtain ⟨givenUp, l⟩ := Reached.ledger (h.steps hs)
      obtain ⟨hwire, hbroken⟩ := wire_of_effect l ih.2 (effect_of_step he)
      exact ⟨hwire.trans ih.1, hbroken⟩

/-! ## The request that is partly out -/

/-- The requests that entered the queue, in order. -/
def requests (w : Run) : List WriteRequest := w.entered.map Handover.request

theorem requests_eq (l : Ledger w givenUp) :
    w.requests = w.written ++ w.work.lost.map BrokenWrite.request ++ givenUp ++
      w.work.waiting :=
  l.placed.order

/-- The requests that were written are the first ones. -/
theorem requests_of_lt (l : Ledger w givenUp) {i : Nat} (hi : i < w.written.length) :
    w.requests[i]? = w.written[i]? := by
  rw [requests_eq l, List.append_assoc, List.append_assoc, List.getElem?_append_left hi]

/-- The request behind those that were written. -/
private theorem request_at_end (l : Ledger w givenUp) {r : WriteRequest}
    (rest : List WriteRequest)
    (hrest : w.work.lost.map BrokenWrite.request ++ givenUp ++ w.work.waiting = r :: rest) :
    w.requests[w.written.length]? = some r := by
  rw [requests_eq l, List.append_assoc, List.append_assoc, ← List.append_assoc _ givenUp,
    hrest, List.getElem?_append_right (Nat.le_refl _), Nat.sub_self]
  rfl

/-- The failed write was that of the request behind those that were written; its
operation has ended with the fault, or ends with the writer's next step. -/
theorem broken_of_wired (l : Ledger w givenUp) (h : w.work.Wired part) {b : BrokenWrite}
    (hb : w.broken = some b) :
    w.requests[w.written.length]? = some b.request ∧ b.request.bytes = part ++ b.left ∧
      (w.session.board.result? b.request.operation = some (.error (.io b.fault)) ∨
        (w.session.board.result? b.request.operation = none ∧
          ∃ flushed, w.session.writer = .failed b.request b.fault flushed)) := by
  have hwriting : ∀ r rest flushed, w.session.writer ≠ .writing r rest flushed := by
    intro r rest flushed hw
    rw [broken_of_writing l hw] at hb
    cases hb
  have hrow := ((Work.wired_iff (k := w.work) hwriting).1 h).2
  rw [show w.work.broken = some b from hb] at hrow
  cases hphase : w.session.writer with
  | failed r fault flushed =>
      obtain ⟨-, ⟨left, hbroken⟩, hgiven⟩ := l.law hphase
      have hsame : b = ⟨r, left, fault⟩ := Option.some.inj (hb.symm.trans hbroken)
      have hlost : w.work.lost = [] := by simp [Work.lost, work, hphase]
      have hwaiting : w.work.waiting = r :: w.session.queue := by
        simp [Work.waiting, work, hphase, WriterPhase.holds]
      subst hsame hgiven
      refine ⟨request_at_end l w.session.queue ?_, hrow, .inr ⟨?_, flushed, rfl⟩⟩
      · rw [hlost, hwaiting]
        rfl
      · refine l.placed.result_of_waiting ?_
        rw [hwaiting]
        exact List.mem_cons_self ..
  | writing r rest flushed => exact absurd hphase (hwriting r rest flushed)
  | _ =>
      have hlost : w.work.lost = [b] := by simp [Work.lost, work, hphase, hb]
      refine ⟨request_at_end l (givenUp ++ w.work.waiting) ?_, hrow, .inl ?_⟩
      · rw [hlost]
        rfl
      · refine l.placed.result_of_lost (b := b) ?_
        rw [hlost]
        exact List.mem_singleton.2 rfl

/-- The request that is being written is the one behind those that were written. -/
theorem request_of_writing (l : Ledger w givenUp) {r : WriteRequest} {rest : Bytes}
    {flushed : Option Nat} (hw : w.session.writer = .writing r rest flushed) :
    w.requests[w.written.length]? = some r ∧
      w.session.board.result? r.operation = none := by
  obtain ⟨-, hbroken, hgiven, -⟩ := l.law hw
  have hlost : w.work.lost = [] := by
    simp [Work.lost, work, hw, show w.broken = none from hbroken]
  have hwaiting : w.work.waiting = r :: w.session.queue := by
    simp [Work.waiting, work, hw, WriterPhase.holds]
  refine ⟨request_at_end l w.session.queue ?_, l.placed.result_of_waiting ?_⟩
  · rw [hlost, hwaiting, hgiven]
    rfl
  · rw [hwaiting]
    exact List.mem_cons_self ..

/-- A part on the wire belongs to the request behind those that were written,
and that one was not given up. -/
theorem part_of_wired (l : Ledger w givenUp) (h : w.work.Wired part) (hpart : part ≠ []) :
    ∃ r, w.requests[w.written.length]? = some r ∧ part <+: r.bytes ∧
      w.session.board.result? r.operation ≠ some (.error .sessionClosed) := by
  cases hb : w.broken with
  | some b =>
      obtain ⟨hat, hbytes, hresult⟩ := broken_of_wired l h hb
      refine ⟨b.request, hat, ⟨b.left, hbytes.symm⟩, ?_⟩
      rcases hresult with hio | ⟨hnone, -⟩
      · rw [hio]
        intro hclosed
        cases hclosed
      · rw [hnone]
        intro hclosed
        cases hclosed
  | none =>
      cases hphase : w.session.writer with
      | writing r rest flushed =>
          have hrow := h.2
          rw [show w.work.writer = _ from hphase] at hrow
          obtain ⟨hat, hpending⟩ := request_of_writing l hphase
          refine ⟨r, hat, ⟨rest, hrow.symm⟩, ?_⟩
          rw [hpending]
          intro hclosed
          cases hclosed
      | _ =>
          have hnot : ∀ r rest flushed, w.work.writer ≠ .writing r rest flushed := by
            intro _ _ _ hwriting
            rw [show w.work.writer = _ from hphase] at hwriting
            cases hwriting
          have hrow := ((Work.wired_iff hnot).1 h).2
          rw [show w.work.broken = none from hb] at hrow
          exact absurd hrow hpart

/-- A result that is good belongs to a request that was written. -/
theorem written_of_succeeded (l : Ledger w givenUp) {n : Nat}
    (hn : w.session.board.result? n = some .succeeded) :
    ∃ (i : Nat) (r : WriteRequest), i < w.written.length ∧ w.requests[i]? = some r ∧
      r.operation = n := by
  have hmem := l.placed.books.succeeded n hn
  simp only [Work.settled, List.mem_append, List.mem_map, Prod.mk.injEq] at hmem
  rcases hmem with ((⟨r, hr, hop, -⟩ | ⟨b, -, -, hres⟩) | ⟨r, -, -, hres⟩) | ⟨x, -, -, hres⟩
  · obtain ⟨i, hi, rfl⟩ := List.getElem_of_mem hr
    refine ⟨i, _, hi, ?_, hop⟩
    rw [requests_of_lt l hi]
    exact List.getElem?_eq_getElem hi
  all_goals cases hres

/-- No two requests have the same operation. -/
theorem Reached.operations_nodup (h : w.Reached) :
    (w.requests.map WriteRequest.operation).Nodup := by
  have hdistinct := h.sends.distinct
  rw [handovers, List.map_append] at hdistinct
  rw [requests, List.map_map]
  exact (List.nodup_append.1 hdistinct).1

/-! ## How far the wire is -/

/-- What was put out is the beginning of what the queue took. -/
theorem Reached.wire_isPrefix (h : w.Reached) :
    w.wire <+: w.requests.flatMap WriteRequest.bytes := by
  obtain ⟨givenUp, l⟩ := h.ledger
  obtain ⟨part, hwired⟩ := h.wired
  have hwire : w.wire = w.written.flatMap WriteRequest.bytes ++ part := hwired.1
  have hsplit : w.requests = w.written ++ w.requests.drop w.written.length := by
    rw [requests_eq l, List.append_assoc, List.append_assoc, List.drop_left]
  rw [hwire, hsplit, List.flatMap_append]
  refine (List.prefix_append_right_inj _).2 ?_
  by_cases hpart : part = []
  · rw [hpart]
    exact List.nil_prefix
  · obtain ⟨r, hr, hfront, -⟩ := part_of_wired l hwired hpart
    have hnext : w.requests.drop w.written.length =
        r :: w.requests.drop (w.written.length + 1) := by
      obtain ⟨hlt, hget⟩ := List.getElem?_eq_some_iff.1 hr
      rw [List.drop_eq_getElem_cons hlt, hget]
    rw [hnext, List.flatMap_cons]
    exact hfront.trans (List.prefix_append _ _)

/-- If a caller closed the session and no write failed, everything that the
queue took has been put out when the writer has ended. -/
theorem Reached.wire_of_caller (h : w.Reached) (hend : w.session.writer = .ended)
    (hwinner : w.winner = some .caller) (hbroken : w.broken = none) :
    w.wire = w.requests.flatMap WriteRequest.bytes := by
  obtain ⟨givenUp, l⟩ := h.ledger
  obtain ⟨part, hwire, hrow⟩ := h.wired
  obtain ⟨hwaiting, hlost⟩ := waiting_of_ended l hend
  have hgiven : givenUp = [] := ((l.law hend).2.2 hbroken).2 hwinner
  rw [show w.work.writer = _ from hend, show w.work.broken = none from hbroken] at hrow
  have hpart : part = [] := hrow
  have hwritten : w.requests = w.written := by
    rw [requests_eq l, hwaiting, hlost, hbroken, hgiven]
    simp
  rw [show w.wire = _ from hwire, hpart, List.append_nil, hwritten]
  rfl

/-! ## Whether a request is out -/

/-- The stream has taken everything up to the end of the request with a number. -/
def PutOut (w : Run) (i : Nat) : Prop :=
  (w.requests.take (i + 1)).flatMap WriteRequest.bytes <+: w.wire

private theorem length_le_of_mem {r : WriteRequest} {rs : List WriteRequest} (h : r ∈ rs) :
    r.bytes.length ≤ (rs.flatMap WriteRequest.bytes).length := by
  obtain ⟨front, back, rfl⟩ := List.append_of_mem h
  simp only [List.flatMap_append, List.flatMap_cons, List.length_append]
  omega

theorem take_written (l : Ledger w givenUp) :
    w.requests.take w.written.length = w.written := by
  rw [requests_eq l, List.append_assoc, List.append_assoc, List.take_left]

theorem putOut_of_lt (l : Ledger w givenUp) (h : w.work.Wired part) {i : Nat}
    (hlt : i < w.written.length) : w.PutOut i := by
  have hfront : w.requests.take (i + 1) <+: w.written := by
    rw [← take_written l]
    exact List.take_prefix_take_left (by omega)
  obtain ⟨tail, htail⟩ := hfront
  unfold PutOut
  rw [show w.wire = _ from h.1, show w.work.written = w.written from rfl, ← htail,
    List.flatMap_append, List.append_assoc]
  exact List.prefix_append _ _

/-- A request that is out, and was not written, is the part on the wire. -/
theorem part_of_putOut (l : Ledger w givenUp) (h : w.work.Wired part) {i : Nat}
    {r : WriteRequest} (hi : w.requests[i]? = some r) (hr : r.bytes ≠ [])
    (hout : w.PutOut i) (hge : w.written.length ≤ i) :
    i = w.written.length ∧ part = r.bytes := by
  obtain ⟨n, rfl⟩ := Nat.exists_eq_add_of_le hge
  -- what follows the written requests, up to this one, fits in the part
  have hfits : ((w.requests.drop w.written.length).take (n + 1)).flatMap WriteRequest.bytes
      <+: part := by
    have hwire : w.wire = w.written.flatMap WriteRequest.bytes ++ part := h.1
    unfold PutOut at hout
    rw [Nat.add_assoc, List.take_add, take_written l, List.flatMap_append, hwire] at hout
    exact (List.prefix_append_right_inj _).1 hout
  have hat : (w.requests.drop w.written.length)[n]? = some r := by
    rw [List.getElem?_drop]
    exact hi
  have hpart : part ≠ [] := by
    rintro rfl
    have hmem : r ∈ (w.requests.drop w.written.length).take (n + 1) :=
      List.mem_of_getElem? (i := n) (by rw [List.getElem?_take, if_pos n.lt_succ_self, hat])
    have hlength := length_le_of_mem hmem
    rw [List.prefix_nil.1 hfits] at hlength
    exact hr (List.eq_nil_of_length_eq_zero (Nat.le_zero.1 hlength))
  obtain ⟨next, hnext, hfront, -⟩ := part_of_wired l h hpart
  have hdrop : w.requests.drop w.written.length =
      next :: w.requests.drop (w.written.length + 1) := by
    obtain ⟨hlt, hget⟩ := List.getElem?_eq_some_iff.1 hnext
    rw [List.drop_eq_getElem_cons hlt, hget]
  rw [hdrop] at hat hfits
  rw [List.take_succ_cons, List.flatMap_cons] at hfits
  cases n with
  | zero =>
      obtain rfl := Option.some.inj hat
      rw [List.take_zero, List.flatMap_nil, List.append_nil] at hfits
      exact ⟨rfl, hfront.eq_of_length_le hfits.length_le⟩
  | succ n =>
      -- two requests do not fit in a part of the first
      have hmem : r ∈ (w.requests.drop (w.written.length + 1)).take (n + 1) :=
        List.mem_of_getElem? (i := n)
          (by rw [List.getElem?_take, if_pos n.lt_succ_self]; exact hat)
      have hlength := length_le_of_mem hmem
      have hshort := Nat.le_trans hfits.length_le hfront.length_le
      rw [List.length_append] at hshort
      exact absurd (List.eq_nil_of_length_eq_zero (by omega)) hr

/-- A write that fails leaves bytes behind, so its request is not out. -/
private theorem written_or_unbroken (l : Ledger w givenUp) (h : w.work.Wired part)
    (hflush : ∀ b, w.broken = some b → b.left ≠ []) {i : Nat} {r : WriteRequest}
    (hi : w.requests[i]? = some r) (hr : r.bytes ≠ []) (hout : w.PutOut i)
    (hge : w.written.length ≤ i) : w.broken = none := by
  obtain ⟨rfl, rfl⟩ := part_of_putOut l h hi hr hout hge
  cases hb : w.broken with
  | none => rfl
  | some b =>
      obtain ⟨hat, hbytes, -⟩ := broken_of_wired l h hb
      obtain rfl := Option.some.inj (hi.symm.trans hat)
      exact absurd (List.self_eq_append_right.1 hbytes) (hflush b hb)

/-- A stream that fails leaves bytes behind, so when the writer has ended, the
requests that are out are those that were written. -/
theorem Reached.putOut_iff (h : w.Reached) (hend : w.session.writer = .ended)
    (hflush : ∀ b, w.broken = some b → b.left ≠ []) {i : Nat} {r : WriteRequest}
    (hi : w.requests[i]? = some r) (hr : r.bytes ≠ []) :
    w.PutOut i ↔ i < w.written.length := by
  obtain ⟨givenUp, l⟩ := h.ledger
  obtain ⟨part, hwired⟩ := h.wired
  constructor
  · intro hout
    by_contra hge
    have hle : w.written.length ≤ i := Nat.le_of_not_lt hge
    have hunbroken := written_or_unbroken l hwired hflush hi hr hout hle
    obtain ⟨-, hpart⟩ := part_of_putOut l hwired hi hr hout hle
    have hrow := hwired.2
    rw [show w.work.writer = _ from hend, show w.work.broken = none from hunbroken] at hrow
    exact hr (hpart.symm.trans hrow)
  · exact putOut_of_lt l hwired

/-- A request that is out has not failed: it has ended well, or the writer has yet to
say so. -/
theorem Reached.result_of_putOut (h : w.Reached)
    (hflush : ∀ b, w.broken = some b → b.left ≠ []) {i : Nat} {r : WriteRequest}
    (hi : w.requests[i]? = some r) (hr : r.bytes ≠ []) (hout : w.PutOut i) :
    w.session.board.result? r.operation = some .succeeded ∨
      w.session.board.result? r.operation = none := by
  obtain ⟨givenUp, l⟩ := h.ledger
  obtain ⟨part, hwired⟩ := h.wired
  rcases Nat.lt_or_ge i w.written.length with hlt | hge
  · left
    rw [requests_of_lt l hlt] at hi
    exact l.placed.result_of_written (List.mem_of_getElem? hi)
  · right
    have hunbroken := written_or_unbroken l hwired hflush hi hr hout hge
    obtain ⟨rfl, hpart⟩ := part_of_putOut l hwired hi hr hout hge
    have hrow := hwired.2
    cases hphase : w.session.writer with
    | writing r' rest flushed =>
        obtain ⟨hat, hpending⟩ := request_of_writing l hphase
        obtain rfl := Option.some.inj (hi.symm.trans hat)
        exact hpending
    | _ =>
        rw [show w.work.writer = _ from hphase, show w.work.broken = none from hunbroken]
          at hrow
        exact absurd (hpart.symm.trans hrow) hr

/-- When the writer has ended, the result of a request tells whether it is out. -/
theorem Reached.succeeded_iff_putOut (h : w.Reached) (hend : w.session.writer = .ended)
    (hflush : ∀ b, w.broken = some b → b.left ≠ []) {i : Nat} {r : WriteRequest}
    (hi : w.requests[i]? = some r) (hr : r.bytes ≠ []) :
    w.session.board.result? r.operation = some .succeeded ↔ w.PutOut i := by
  obtain ⟨givenUp, l⟩ := h.ledger
  rw [h.putOut_iff hend hflush hi hr]
  constructor
  · intro hok
    obtain ⟨j, r', hj, hr', hop⟩ := written_of_succeeded l hok
    have hdistinct : (w.requests.map WriteRequest.operation).Nodup := h.operations_nodup
    have hlt := (List.getElem?_eq_some_iff.1 hi).1
    have hsame : i = j := by
      refine (List.getElem?_inj (by simpa using hlt) hdistinct).1 ?_
      rw [List.getElem?_map, List.getElem?_map, hi, hr']
      exact congrArg some hop.symm
    omega
  · intro hlt
    rw [requests_of_lt l hlt] at hi
    exact l.placed.result_of_written (List.mem_of_getElem? hi)

/-! ## Results and the wire -/

/-- At every moment the wire holds the first requests of the queue as a whole,
and a part of the next one.  An operation that has ended well is among the
first; the one whose write failed is the next, and nothing is put out after it;
one that was given up has put out nothing. -/
theorem wire_agrees_with_results (h : w.Reached) :
    (w.requests.map WriteRequest.operation).Nodup ∧ ∃ (k : Nat) (part : Bytes),
      w.wire = (w.requests.take k).flatMap WriteRequest.bytes ++ part ∧
      (part = [] ∨ ∃ r, w.requests[k]? = some r ∧ part <+: r.bytes) ∧
      (∀ n, w.session.board.result? n = some .succeeded →
        ∃ (i : Nat) (r : WriteRequest), i < k ∧ w.requests[i]? = some r ∧ r.operation = n) ∧
      (∀ b, w.broken = some b →
        w.requests[k]? = some b.request ∧ b.request.bytes = part ++ b.left ∧
        (w.session.board.result? b.request.operation = some (.error (.io b.fault)) ∨
          (w.session.board.result? b.request.operation = none ∧
            ∃ flushed, w.session.writer = .failed b.request b.fault flushed)) ∧
        ∀ w', Steps w w' → w'.wire = w.wire) ∧
      (∀ (i : Nat) (r : WriteRequest), w.requests[i]? = some r →
        w.session.board.result? r.operation = some (.error .sessionClosed) →
          k < i ∨ (k = i ∧ part = [])) := by
  obtain ⟨givenUp, l⟩ := h.ledger
  obtain ⟨part, hwired⟩ := h.wired
  refine ⟨h.operations_nodup, w.written.length, part, ?_, ?_, ?_, ?_, ?_⟩
  · have htake : w.requests.take w.written.length = w.written := by
      rw [requests_eq l, List.append_assoc, List.append_assoc, List.take_left]
    rw [htake]
    exact hwired.1
  · by_cases hpart : part = []
    · exact .inl hpart
    · obtain ⟨r, hr, hfront, -⟩ := part_of_wired l hwired hpart
      exact .inr ⟨r, hr, hfront⟩
  · intro n hn
    exact written_of_succeeded l hn
  · intro b hb
    obtain ⟨hat, hbytes, hresult⟩ := broken_of_wired l hwired hb
    exact ⟨hat, hbytes, hresult, fun w' hs => (h.wire_of_broken hb hs).1⟩
  · intro i r hi hclosed
    rcases Nat.lt_trichotomy i w.written.length with hlt | heq | hgt
    · rw [requests_of_lt l hlt] at hi
      have hok := l.placed.result_of_written (List.mem_of_getElem? hi)
      rw [show w.session.board.result? r.operation = _ from hok] at hclosed
      cases hclosed
    · right
      refine ⟨heq.symm, ?_⟩
      by_contra hpart
      obtain ⟨r', hr', -, hopen⟩ := part_of_wired l hwired hpart
      rw [← heq, hi] at hr'
      obtain rfl := Option.some.inj hr'
      exact hopen hclosed
    · exact .inl hgt

/-- The second of four writes failed after a byte. -/
theorem brokenRun_wire :
    brokenRun.wire = [1, 2] ∧ ∃ (k : Nat) (part : Bytes),
      brokenRun.wire = (brokenRun.requests.take k).flatMap WriteRequest.bytes ++ part ∧
      ∃ b, brokenRun.broken = some b ∧ brokenRun.requests[k]? = some b.request ∧
        b.request.bytes = part ++ b.left := by
  have hreached : brokenRun.Reached := (Reached.start _ _ _ _).after _
  obtain ⟨-, k, part, hwire, -, -, hbroken, -⟩ := wire_agrees_with_results hreached
  obtain ⟨hat, hbytes, -⟩ := hbroken _ rfl
  exact ⟨rfl, k, part, hwire, _, rfl, hat, hbytes⟩

end Run

end PeerLink
