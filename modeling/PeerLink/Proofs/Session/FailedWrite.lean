import PeerLink.Proofs.Session.LastWord
import PeerLink.Proofs.Session.Wire

/-!
# What a failed write leaves behind

A write that fails ends its operation with the fault, and then the writer closes the
session for it.  If another closing has taken effect before, the writer's does nothing,
and its reason is not left in the slot of the last error.

So what is there when both tasks have ended depends on who was first.  A fault, the
reader's or the writer's, has left its reason, since its task does not end before that.
A local close has none to leave: a write that fails while the queue is being finished
is known to its operation alone.

## Main results

* `Run.Reached.closed_of_broken` — a failed write closes the session, if nobody has.
* `Docket.Reached.leaves_reason` — a fault that took effect leaves its reason.
* `Docket.failed_write_is_recorded_unless_called` — what is in the slot of the last
  error after a failed write.
-/

namespace PeerLink

/-- The writer has a failed write, and has not tried to claim the closing for it. -/
def WriterPhase.owesClose : WriterPhase → Bool
  | .failed .. | .breaking _ _ .claiming => true
  | _ => false

namespace Run

variable {w w' : Run} {e : RunEvent} {c : Closing}

/-! ## A closing that waits for its next step -/

/-- A closing that is under way stays where it is until it goes on. -/
theorem approach_of_quiet (h : w.step? e = some w') (hquiet : w.acting? e = none)
    {a : Approach} (ha : w.approach? c = some a) (hgoing : a.stage.answer? = none) :
    w'.approach? c = some a := by
  cases c with
  | call i =>
      have haside : Aside w e w' := by
        rcases closingStep_of_step h with ⟨-, haside⟩ | ⟨c', a', hacting, -⟩
        · exact haside
        · rw [hquiet] at hacting
          cases hacting
      obtain ⟨stage, hi, rfl⟩ := Option.map_eq_some_iff.1 ha
      have hlt := Nat.lt_of_lt_of_le (List.getElem?_eq_some_iff.1 hi).1 haside.length
      have hi' := List.getElem?_eq_getElem hlt
      rcases haside.closes i _ hi' with hold | ⟨hlen, -⟩
      · rw [hi] at hold
        simp only [approach?, hi', ← Option.some.inj hold, Option.map_some]
      · exact absurd (List.getElem?_eq_some_iff.1 hi).1 (Nat.not_lt.2 hlen)
  | writer =>
      have hat := ha
      simp only [approach?] at ha ⊢
      by_cases htask : e.task = .writer
      · -- the only step of a writer that is at a closing is the next of the closing
        cases e with
        | write =>
            rw [acting?_of_going rfl hat hgoing] at hquiet
            cases hquiet
        | take =>
            obtain ⟨r, queue, hw, -⟩ := idle_of_take h
            rw [hw] at ha
            cases ha
        | put count =>
            obtain ⟨r, rest, flushed, hw, -⟩ := writing_of_put h
            rw [hw] at ha
            cases ha
        | failWrite fault =>
            obtain ⟨r, rest, flushed, journal, hw, -⟩ := writing_of_failWrite h
            rw [hw] at ha
            cases ha
        | _ => cases htask
      · rw [((spares_of_step h).2 htask).writer]
        exact ha
  | reader =>
      have hat := ha
      simp only [approach?] at ha ⊢
      by_cases htask : e.task = .reader
      · have hreading : w.session.reader ≠ .reading := by
          intro hr
          rw [hr] at ha
          cases ha
        cases e with
        | read =>
            rw [acting?_of_going rfl hat hgoing] at hquiet
            cases hquiet
        | got bytes =>
            simp only [step?] at h
            split at h
            · cases h
            · exact absurd (reading_of_answerRead h).1 hreading
        | atEnd | failRead fault => exact absurd (reading_of_answerRead h).1 hreading
        | _ => cases htask
      · rw [((spares_of_step h).1 htask).reader]
        exact ha

/-- A closing that is about to leave its reason does so with its next step. -/
theorem recording_of_step (h : w.step? e = some w') {text : String}
    (ha : w.approach? c = some ⟨some text, .recording⟩) :
    w'.approach? c = some ⟨some text, .recording⟩ ∨ w'.session.lastError? = some text := by
  rcases closingStep_of_step h with ⟨hquiet, -⟩ | ⟨c', a', -, hadvance⟩
  · exact .inl (approach_of_quiet h hquiet ha rfl)
  · by_cases hc : c' = c
    · subst hc
      obtain rfl := Option.some.inj (ha.symm.trans hadvance.before)
      right
      simp only [Session.lastError?, Slots.get?, hadvance.slots, Session.closeStep,
        Session.lastError_recordReason]
      rfl
    · left
      rw [hadvance.others c (Ne.symm hc)]
      exact ha

/-! ## The close for a failed write -/

/-- A session that is closed stays closed. -/
theorem Reached.closed_step (h : w.Reached) (he : w.step? e = some w')
    (hclosed : w.session.closed = true) : w'.session.closed = true := by
  have hwinner := h.claims.closed_iff.1 hclosed
  refine (Reached.claims (h.step he)).closed_iff.2 ?_
  rw [h.winner_step he hwinner]
  exact hwinner

/-- What a step of the writer makes of a close that it owes. -/
private theorem owed_of_write (h : w.write = some w')
    (howes : w.session.writer.owesClose = true) :
    w'.session.closed = true ∨ w'.session.writer.owesClose = true := by
  obtain ⟨s, firing, hgoes, rfl⟩ := writerGoes_of_write h
  cases hgoes with
  | reports journal hw => exact .inr rfl
  | closes hw =>
      rename_i reason flushed stage
      rw [hw] at howes
      cases stage with
      | claiming =>
          left
          cases hclosed : w.session.closed <;>
            simp [setSession, Session.closeStep, Session.claimClose, hclosed]
      | _ => cases howes
  | wakes hw | takes hw | completes journal hw | closed hw | stops hw | drains hw | rejects hw
  | takesLast hw | emptied hw | counts journal hw | givesUp hw | ends journal hw =>
      rw [hw] at howes
      cases howes

/-- After a failed write the session is closed, or the writer is about to close it. -/
theorem Reached.closed_of_broken (h : w.Reached) :
    w.broken ≠ none → w.session.closed = true ∨ w.session.writer.owesClose = true := by
  refine h.invariant (P := fun w => w.broken ≠ none →
    w.session.closed = true ∨ w.session.writer.owesClose = true) ?_ ?_
  · rintro _ ⟨label, remote, config, now⟩ hbroken
    exact absurd rfl hbroken
  · rintro w w' (hw : w.Reached) ⟨e, he⟩ ih hbroken'
    by_cases htask : e.task = .writer
    · by_cases hbroken : w.broken = none
      · -- the write fails in this step
        cases e with
        | failWrite fault =>
            obtain ⟨r, rest, flushed, journal, -, rfl⟩ := writing_of_failWrite he
            exact .inr rfl
        | write =>
            obtain ⟨s, firing, -, rfl⟩ := writerGoes_of_write he
            exact absurd hbroken hbroken'
        | take =>
            obtain ⟨r, queue, -, -, rfl⟩ := idle_of_take he
            exact absurd hbroken hbroken'
        | put count =>
            obtain ⟨r, rest, flushed, -, -, -, rfl⟩ := writing_of_put he
            exact absurd hbroken hbroken'
        | _ => cases htask
      · rcases ih hbroken with hclosed | howes
        · exact .inl (hw.closed_step he hclosed)
        · cases e with
          | write => exact owed_of_write he howes
          | take =>
              obtain ⟨r, queue, hidle, -⟩ := idle_of_take he
              rw [hidle] at howes
              cases howes
          | put count =>
              obtain ⟨r, rest, flushed, hwriting, -⟩ := writing_of_put he
              rw [hwriting] at howes
              cases howes
          | failWrite fault =>
              obtain ⟨r, rest, flushed, journal, hwriting, -⟩ := writing_of_failWrite he
              rw [hwriting] at howes
              cases howes
          | _ => cases htask
    · obtain ⟨hwriter, hsame⟩ := (spares_of_step he).2 htask
      rw [hsame] at hbroken'
      rw [hwriter]
      exact (ih hbroken').imp_left (hw.closed_step he)

/-- A write that failed is known to its operation when the writer has ended. -/
theorem Reached.result_of_broken (h : w.Reached) {b : BrokenWrite} (hb : w.broken = some b)
    (hend : w.session.writer = .ended) :
    w.session.board.result? b.request.operation = some (.error (.io b.fault)) := by
  obtain ⟨givenUp, l⟩ := h.ledger
  obtain ⟨part, hwired⟩ := h.wired
  obtain ⟨-, -, hresult | ⟨-, flushed, hfailed⟩⟩ := broken_of_wired l hwired hb
  · exact hresult
  · rw [hend] at hfailed
    cases hfailed

end Run

/-! ## The reason of the closing that took effect -/

namespace Docket

variable {d d' : Docket} {e : RunEvent} {c : Closing}

theorem Reached.lastError?_eq_head? (h : d.Reached) :
    d.run.session.lastError? = d.records.head? := by
  rcases h.ordered with hunclaimed | ⟨c, reason, stage, hwon⟩
  · rw [hunclaimed.records, Session.lastError?, Slots.get?, hunclaimed.lastError]
    rfl
  · exact hwon.lastError?_eq_head?

/-- A reason in the slot of the last error stays there. -/
theorem Reached.lastError?_steps (h : d.Reached) (hs : Steps d d') {text : String}
    (htext : d.run.session.lastError? = some text) :
    d'.run.session.lastError? = some text := by
  rw [h.lastError?_eq_head?] at htext
  rw [Reached.lastError?_eq_head? (h.steps hs)]
  obtain ⟨later, hlater⟩ := hs.grows.records
  rw [← hlater, List.head?_append, htext]
  rfl

/-- A fault that has claimed the closing is about to leave its reason, or has left it. -/
theorem Reached.leaves_reason (h : d.Reached) {text : String}
    (hclaim : (c, some text) ∈ d.claims) :
    d.run.approach? c = some ⟨some text, .recording⟩ ∨
      d.run.session.lastError? = some text := by
  obtain ⟨_, ⟨label, remote, config, now⟩, hs⟩ := h
  induction hs with
  | refl => cases hclaim
  | tail hs he ih =>
      rename_i d₁ d₂
      have hreached : d₁.Reached := ⟨_, .start label remote config now, hs⟩
      have hstep : Steps d₁ d₂ := .single he
      obtain ⟨e, -, he⟩ := leads_sparing.1 he
      have hold : (c, some text) ∈ d₁.claims →
          d₂.run.approach? c = some ⟨some text, .recording⟩ ∨
            d₂.run.session.lastError? = some text := by
        intro hmem
        rcases ih hmem with hrecording | hleft
        · exact Run.recording_of_step (run_of_step he) hrecording
        · exact .inr (hreached.lastError?_steps hstep hleft)
      cases effect_of_step he with
      | claims hadvance hopen hd =>
          rw [hd] at hclaim
          rcases List.mem_append.1 hclaim with hmem | hnew
          · exact hold hmem
          · cases List.mem_singleton.1 hnew
            left
            rw [hadvance.after]
            simp [Session.closeStep, Session.claimClose, hopen]
      | aside haside hd | yields hadvance hclosed hd | records hadvance hd
      | announces hadvance hd =>
          rw [hd] at hclaim
          exact hold hclaim

/-- A task that has ended is at no closing. -/
private theorem approach?_of_ended (hwriter : d.run.session.writer = .ended)
    (hreader : d.run.session.reader = .ended) (hc : c.closer ≠ .caller) :
    d.run.approach? c = none := by
  cases c with
  | call i => exact absurd rfl hc
  | writer => simp only [Run.approach?, hwriter, WriterPhase.approach?]
  | reader => simp only [Run.approach?, hreader, ReaderPhase.approach?]

/-- When both tasks have ended after a failed write, its operation has ended with the
fault, and the slot of the last error holds the reason of the closing that took effect.
It is empty exactly if that was a local close; then nothing but the operation tells of
the failed write.  If it was the writer's, the reason is the failed write. -/
theorem failed_write_is_recorded_unless_called (h : d.Reached) {b : BrokenWrite}
    (hbroken : d.run.broken = some b) (hwriter : d.run.session.writer = .ended)
    (hreader : d.run.session.reader = .ended) :
    d.run.session.board.result? b.request.operation = some (.error (.io b.fault)) ∧
      ∃ c reason, d.claims = [(c, reason)] ∧ d.run.session.lastError? = reason ∧
        (reason = none ↔ c.closer = .caller) ∧ (c = .writer → reason = some b.reason) := by
  have hclosed : d.run.session.closed = true := by
    rcases h.run.closed_of_broken (by rw [hbroken]; nofun) with hclosed | howes
    · exact hclosed
    · rw [hwriter] at howes
      cases howes
  rcases h.ordered with hunclaimed | ⟨c, reason, stage, hwon⟩
  · rw [hunclaimed.closed] at hclosed
    cases hclosed
  have hclaim : (c, reason) ∈ d.claims := by
    rw [hwon.claims]
    exact List.mem_singleton_self _
  refine ⟨h.run.result_of_broken hbroken hwriter, c, reason, hwon.claims, ?_, hwon.faults, ?_⟩
  · cases reason with
    | none => exact hwon.lastError?_eq.elim id id
    | some text =>
        have hfault : c.closer ≠ .caller := fun hc => nomatch hwon.faults.2 hc
        rcases h.leaves_reason hclaim with hrecording | hleft
        · rw [approach?_of_ended hwriter hreader hfault] at hrecording
          cases hrecording
        · exact hleft
  · rintro rfl
    obtain ⟨b', hb', hreason⟩ := h.writer_claims hclaim
    obtain rfl := Option.some.inj (hbroken.symm.trans hb')
    exact hreason

/-- The stream comes to its end while the writer is writing.  The reader closes the
session, and then the write fails. -/
def abandoned : Docket :=
  (start "1" none {} default).after <|
    [.send (.buffer [1, 2]), .look 0, .enqueue 0, .write, .put 1, .read, .read, .atEnd,
      .read, .read, .read, .read, .read, .failWrite (.bare .brokenPipe)] ++
    List.replicate 6 .write

theorem abandoned_is_recorded :
    abandoned.Reached ∧ abandoned.run.session.writer = .ended ∧
      abandoned.run.session.reader = .ended ∧
      ∃ b c reason, abandoned.run.broken = some b ∧ abandoned.claims = [(c, reason)] ∧
        abandoned.run.session.lastError? = reason ∧ reason ≠ none := by
  have hreached : abandoned.Reached := (Reached.start _ _ _ _).after _
  have hwinner : abandoned.claims = [(.reader, some "connection closed by peer")] := rfl
  obtain ⟨-, c, reason, hclaims, hlast, hcaller, -⟩ :=
    failed_write_is_recorded_unless_called hreached rfl rfl rfl
  refine ⟨hreached, rfl, rfl, _, c, reason, rfl, hclaims, hlast, fun hnone => ?_⟩
  rw [hwinner] at hclaims
  cases hclaims
  cases hnone

/-- A caller closes the session while two sends wait in the queue.  The writer begins to
finish the queue, and its first write fails after a byte. -/
def halfFlushed : Docket :=
  (start "1" none {} default).after <|
    [.read, .read, .send (.buffer [1, 2]), .look 0, .enqueue 0, .send (.buffer [3]), .look 1,
      .enqueue 1, .close, .closeStep 0, .closeStep 0, .closeStep 0, .write, .write, .write,
      .write, .put 1, .failWrite (.bare .brokenPipe)] ++
    List.replicate 6 .write ++ List.replicate 4 .read

/-- Both sends that the session had taken on are lost, and there is no last error. -/
theorem failed_flush_is_not_recorded :
    halfFlushed.Reached ∧ halfFlushed.run.broken ≠ none ∧
      halfFlushed.run.session.writer = .ended ∧ halfFlushed.run.session.reader = .ended ∧
      halfFlushed.run.session.board.result? 0 = some (.error (.io (.bare .brokenPipe))) ∧
      halfFlushed.run.session.board.result? 1 = some (.error .sessionClosed) ∧
      halfFlushed.run.session.lastError? = none := by
  have hbroken : halfFlushed.run.broken =
      some ⟨⟨[1, 2], 0⟩, [2], .bare .brokenPipe⟩ := rfl
  refine ⟨(Reached.start _ _ _ _).after _, ?_, rfl, rfl, rfl, rfl, rfl⟩
  rw [hbroken]
  exact Option.some_ne_none _

end Docket

end PeerLink
