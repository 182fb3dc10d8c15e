import PeerLink.Proofs.Session.Ledger

/-!
# What a task says about a fault

A task that closes the session brings a text.  The reader's is made from what stopped
it, and the writer's from the write that failed; the two are never the same.  The
observer keeps both causes, in `Run.stop` and in `Run.broken`.

A step of one task leaves the other alone: `Run.SparesReader` and `Run.SparesWriter`.

## Main results

* `Run.spares_of_step` — whom a step does not concern.
* `Run.Reached.blames` — a writer closes the session for the write that failed.
* `Run.Reached.mode_of_told` — a reader that was told to stop had seen a mode.
-/

namespace PeerLink

/-- What a reader that stops says about it. -/
def ReaderStop.reason? : ReaderStop → Option String
  | .told => none
  | .refused e => some s!"decode failed: {e.message}"
  | .atEnd => some "connection closed by peer"
  | .failed fault => some s!"read failed: {fault.message}"

/-- What a writer says about a write that failed. -/
def BrokenWrite.reason (b : BrokenWrite) : String := s!"write failed: {b.fault.message}"

theorem ReaderStop.reason?_eq_none {stop : ReaderStop} :
    stop.reason? = none ↔ stop = .told := by
  cases stop <;> simp [reason?]

/-- The reader and the writer never say the same. -/
theorem ReaderStop.reason?_ne (stop : ReaderStop) (b : BrokenWrite) :
    stop.reason? ≠ some b.reason := by
  intro heq
  have hfirst := congrArg (fun text => text.bind fun t : String => t.toList.head?) heq
  cases stop <;> simp [reason?, BrokenWrite.reason, toString] at hfirst

/-- Whose step it is; the stream answers a task in a step of the task. -/
def RunEvent.task : RunEvent → Closer
  | .write | .take | .put _ | .failWrite _ => .writer
  | .read | .got _ | .atEnd | .failRead _ => .reader
  | _ => .caller

namespace Session

variable {s s' : Session} {now : Duration}

/-- What the writer closes the session with. -/
theorem writer_of_failed {firing : Option Firing} {r : WriteRequest} {fault : IoFault}
    {flushed : Option Nat} (hw : s.writer = .failed r fault flushed)
    (h : (s.writerMove now).outcome? = some (s', firing)) :
    s'.writer = .breaking s!"write failed: {fault.message}" flushed .claiming := by
  unfold writerMove at h
  simp only [hw, resolve_eq] at h
  obtain ⟨rfl, -⟩ := Prod.mk.inj (Option.some.inj h)
  rfl

/-- What the reader closes the session with when it has refused a frame. -/
theorem reader_of_refused {e : TransportError} (hr : s.reader = .decoding)
    (hd : Frame.decode s.frameLimit s.buffer.unread = .failed e)
    (h : (s.readerMove now).outcome? = some s') :
    s'.reader = .closing (ReaderStop.refused e).reason? .claiming := by
  unfold readerMove at h
  simp only [hr, hd] at h
  obtain rfl := Option.some.inj h
  rfl

end Session

namespace Run

variable {w w' : Run} {e : RunEvent}

/-! ## Whom a step does not concern -/

/-- The reader has nothing to do with a step. -/
structure SparesReader (w w' : Run) : Prop where
  reader : w'.session.reader = w.session.reader
  stop : w'.stop = w.stop
  /-- Events are not added, but they may be received. -/
  events : w'.session.events.length ≤ w.session.events.length

/-- The writer has nothing to do with a step. -/
structure SparesWriter (w w' : Run) : Prop where
  writer : w'.session.writer = w.session.writer
  broken : w'.broken = w.broken

private theorem sparesReader_of (hreader : w'.session.reader = w.session.reader)
    (hstop : w'.stop = w.stop) (hevents : w'.session.events = w.session.events) :
    SparesReader w w' :=
  ⟨hreader, hstop, Nat.le_of_eq (congrArg List.length hevents)⟩

private theorem spares_look {i : Nat} (h : w.look i = some w') :
    SparesReader w w' ∧ SparesWriter w w' := by
  obtain ⟨p, -, ⟨e, journal, -, rfl⟩ | ⟨bytes, -, rfl⟩ | rfl⟩ := looking_of_look h
  · exact ⟨sparesReader_of rfl rfl rfl, rfl, rfl⟩
  · exact ⟨sparesReader_of rfl rfl rfl, rfl, rfl⟩
  · exact ⟨sparesReader_of rfl rfl rfl, rfl, rfl⟩

private theorem spares_enqueue {i : Nat} (h : w.enqueue i = some w') :
    SparesReader w w' ∧ SparesWriter w w' := by
  obtain ⟨p, bytes, -, ⟨-, rfl⟩ | ⟨-, rfl⟩⟩ := queueing_of_enqueue h
  · exact ⟨sparesReader_of rfl rfl rfl, rfl, rfl⟩
  · exact ⟨sparesReader_of rfl rfl rfl, rfl, rfl⟩

private theorem spares_closeStep {i : Nat} (h : w.closeStep i = some w') :
    SparesReader w w' ∧ SparesWriter w w' := by
  obtain ⟨stage, -, rfl⟩ := stage_of_closeStep h
  exact ⟨sparesReader_of (by simp [setSession]) rfl (by simp [setSession]),
    by simp [setSession], rfl⟩

private theorem spares_outside (call : OutsideCall) :
    SparesReader w (w.setSession .caller (w.session.outside call)) ∧
      SparesWriter w (w.setSession .caller (w.session.outside call)) := by
  cases call with
  | receive count =>
      refine ⟨⟨rfl, rfl, ?_⟩, rfl, rfl⟩
      simp [setSession, Session.outside, Session.receive]
  | stopListening =>
      refine ⟨⟨rfl, rfl, ?_⟩, rfl, rfl⟩
      simp [setSession, Session.outside, Session.stopListening]
  | _ => exact ⟨sparesReader_of rfl rfl rfl, rfl, rfl⟩

theorem spares_of_step (h : w.step? e = some w') :
    (e.task ≠ .reader → SparesReader w w') ∧ (e.task ≠ .writer → SparesWriter w w') := by
  cases e with
  | send p | close | tick now =>
      obtain rfl := Option.some.inj h
      exact ⟨fun _ => sparesReader_of rfl rfl rfl, fun _ => ⟨rfl, rfl⟩⟩
  | look i => exact ⟨fun _ => (spares_look h).1, fun _ => (spares_look h).2⟩
  | enqueue i => exact ⟨fun _ => (spares_enqueue h).1, fun _ => (spares_enqueue h).2⟩
  | closeStep i => exact ⟨fun _ => (spares_closeStep h).1, fun _ => (spares_closeStep h).2⟩
  | outside call =>
      obtain rfl := Option.some.inj h
      exact ⟨fun _ => (spares_outside call).1, fun _ => (spares_outside call).2⟩
  | write =>
      refine ⟨fun _ => ?_, fun hne => absurd rfl hne⟩
      obtain ⟨s, firing, hgoes, rfl⟩ := writerGoes_of_write h
      cases hgoes with
      | closes hw =>
          exact sparesReader_of (by simp [setSession]) rfl (by simp [setSession])
      | _ => exact sparesReader_of rfl rfl rfl
  | take =>
      refine ⟨fun _ => ?_, fun hne => absurd rfl hne⟩
      obtain ⟨r, queue, -, -, rfl⟩ := idle_of_take h
      exact sparesReader_of rfl rfl rfl
  | put count =>
      refine ⟨fun _ => ?_, fun hne => absurd rfl hne⟩
      obtain ⟨r, rest, flushed, -, -, -, rfl⟩ := writing_of_put h
      exact sparesReader_of rfl rfl rfl
  | failWrite fault =>
      refine ⟨fun _ => ?_, fun hne => absurd rfl hne⟩
      obtain ⟨r, rest, flushed, journal, -, rfl⟩ := writing_of_failWrite h
      exact sparesReader_of rfl rfl rfl
  | read =>
      refine ⟨fun hne => absurd rfl hne, fun _ => ?_⟩
      obtain ⟨s, hgoes, rfl⟩ := readerGoes_of_read h
      cases hgoes with
      | closes hr => exact ⟨by simp [setSession], rfl⟩
      | _ => exact ⟨rfl, rfl⟩
  | got bytes =>
      refine ⟨fun hne => absurd rfl hne, fun _ => ?_⟩
      simp only [step?] at h
      split at h
      · cases h
      · obtain ⟨-, rfl⟩ := reading_of_answerRead h
        exact ⟨rfl, rfl⟩
  | atEnd | failRead fault =>
      refine ⟨fun hne => absurd rfl hne, fun _ => ?_⟩
      obtain ⟨-, rfl⟩ := reading_of_answerRead h
      exact ⟨rfl, rfl⟩

/-! ## The writer's part -/

/-- The write that has failed stays the one. -/
theorem Reached.broken_step (h : w.Reached) (he : w.step? e = some w') {b : BrokenWrite}
    (hb : w.broken = some b) : w'.broken = some b := by
  have hbroken : ∀ k : Work, k.broken = w.broken → w'.work = k → w'.broken = some b := by
    rintro k hk rfl
    exact hk.trans hb
  cases effect_of_step he with
  | breaks fault hw hw' =>
      -- nothing had failed before, since the writer was still writing
      obtain ⟨givenUp, l⟩ := h.ledger
      have hnone : w.broken = none := (l.law hw).2.1
      rw [hb] at hnone
      cases hnone
  | aside hw' | callbacks _ board hb' hw' | refuses e hw' | turnsAway p bytes hq hw'
  | admits p bytes hq hw' | takes flushed hw hq hw' | puts count hw hw' | completes hw hw'
  | reports reason hw hw' | givesUp hw hq hw' | moves phase closed hp hw' =>
      exact hbroken _ rfl hw'

/-- A writer that closes the session brings the failure of its write. -/
def Blames (w : Run) : Prop :=
  ∀ reason flushed stage, w.session.writer = .breaking reason flushed stage →
    ∃ b, w.broken = some b ∧ reason = b.reason

private theorem blames_write (h : w.Reached) (hb : w.Blames) (he : w.write = some w') :
    w'.Blames := by
  intro reason' flushed' stage' hw'
  unfold write at he
  split at he
  · cases he
  rename_i s firing hmove
  obtain rfl := Option.some.inj he
  have hs : s.writer = .breaking reason' flushed' stage' := hw'
  cases Session.writerGoes_of_move hmove with
  | reports reason hw =>
      rename_i r fault flushed
      obtain ⟨givenUp, l⟩ := h.ledger
      obtain ⟨-, ⟨left, hbroken⟩, -⟩ := l.law hw
      rw [Session.writer_of_failed hw hmove] at hs
      cases hs
      exact ⟨_, hbroken, rfl⟩
  | closes hw =>
      rename_i reason flushed stage
      cases hs
      exact hb _ _ _ hw
  | completes journal hw | closed hw => cases ‹Option Nat› <;> cases hs
  | _ => cases hs

theorem Reached.blames (h : w.Reached) : w.Blames := by
  refine h.invariant ?_ ?_
  · rintro _ ⟨label, remote, config, now⟩ reason flushed stage hw
    obtain ⟨journal, hsession⟩ := session_start label remote config now
    rw [hsession] at hw
    cases hw
  · rintro w w' (hw : w.Reached) ⟨e, he⟩ hb
    by_cases htask : e.task = .writer
    · cases e with
      | write => exact blames_write hw hb he
      | take =>
          obtain ⟨r, queue, -, -, rfl⟩ := idle_of_take he
          nofun
      | put count =>
          obtain ⟨r, rest, flushed, -, -, -, rfl⟩ := writing_of_put he
          nofun
      | failWrite fault =>
          obtain ⟨r, rest, flushed, journal, -, rfl⟩ := writing_of_failWrite he
          nofun
      | _ => cases htask
    · obtain ⟨hwriter, hbroken⟩ := (spares_of_step he).2 htask
      intro reason flushed stage hbreaking
      rw [hwriter] at hbreaking
      rw [hbroken]
      exact hb reason flushed stage hbreaking

/-! ## Being told -/

/-- A reader that was told to stop had seen a mode. -/
theorem Reached.mode_of_told (h : w.Reached) :
    w.stop = some .told → w.session.mode ≠ .running := by
  refine h.invariant (P := fun w => w.stop = some .told → w.session.mode ≠ .running) ?_ ?_
  · rintro _ ⟨label, remote, config, now⟩ htold
    cases htold
  · rintro w w' (hw : w.Reached) ⟨e, he⟩ ih htold
    by_cases hsame : w.stop = some .told
    · exact hw.mode_step he (ih hsame)
    · by_cases htask : e.task = .reader
      · cases e with
        | read =>
            refine hw.mode_step he fun hrunning => hsame ?_
            obtain ⟨s, hgoes, rfl⟩ := readerGoes_of_read he
            have hcause : w.session.stopCause ≠ some .told := by
              unfold Session.stopCause
              split
              · split <;> nofun
              · simp [hrunning]
              · nofun
            cases hstop : w.session.stopCause with
            | none =>
                simp only [hstop, Option.none_or] at htold
                exact htold
            | some cause =>
                simp only [hstop, Option.some_or] at htold
                exact absurd (hstop.trans htold) hcause
        | got bytes =>
            simp only [step?] at he
            split at he
            · cases he
            · obtain ⟨-, rfl⟩ := reading_of_answerRead he
              exact absurd htold hsame
        | atEnd | failRead fault =>
            obtain ⟨-, rfl⟩ := reading_of_answerRead he
            cases htold
        | _ => cases htask
      · rw [((spares_of_step he).1 htask).stop] at htold
        exact absurd htold hsame

end Run

end PeerLink
