import PeerLink.Proofs.Frame.Stream
import PeerLink.Proofs.Session.Sends

/-!
# What the reader makes of its bytes

The reader's part of a run is its phase, the bytes it has not decoded, and what
the observer notes about bytes and frames: `Run.intake`.  `Intake.Effect` lists
what a step can do to it, and `Intake.Faithful` is the invariant: the frames that
were reported are those that decoding everything at once would have found first,
and what it would find next is what is found in the undecoded bytes.

How the stream cut the bytes does not matter, since the reader asks for more only
when there is no whole frame left.

## Main results

* `Run.intake_of_step` — every step has one of these effects.
* `Intake.Faithful.step` — the invariant survives each of them.
* `Run.Reached.faithful` — the invariant holds of every reached run.
-/

namespace PeerLink

/-- The reader is past reading. -/
def ReaderPhase.finished : ReaderPhase → Bool
  | .closing .. | .announcing _ | .ended => true
  | _ => false

/-- The reader's part of a run. -/
structure Intake where
  limit : Nat
  unread : Bytes
  reader : ReaderPhase
  listening : Bool
  received : Bytes
  reported : List Frame
  emitted : List Frame
  stop : Option ReaderStop

namespace Intake

/-- What a step can do to the reader's part of a run. -/
inductive Effect (k k' : Intake) : Prop
  | aside (h : k' = k)
  /-- Nobody receives events any more. -/
  | deafens (h : k' = { k with listening := false })
  | begins (hr : k.reader = .starting) (h : k' = { k with reader := .decoding })
  /-- The reader could not begin, or went on to its end. -/
  | winds (phase : ReaderPhase) (hp : phase.finished = true)
      (hr : k.reader = .starting ∨ k.reader.finished = true)
      (h : k' = { k with reader := phase })
  | needsMore (hr : k.reader = .decoding)
      (hd : Frame.decode k.limit k.unread = .incomplete)
      (h : k' = { k with reader := .reading })
  | decodes {f : Frame} {rest : Bytes} (hr : k.reader = .decoding)
      (hd : Frame.decode k.limit k.unread = .frame f rest)
      (h : k' = { k with unread := rest, reader := .delivering f })
  | refuses {e : TransportError} (phase : ReaderPhase) (hp : phase.finished = true)
      (hr : k.reader = .decoding) (hd : Frame.decode k.limit k.unread = .failed e)
      (h : k' = { k with reader := phase, stop := some (.refused e) })
  /-- A report was given up because nobody listens. -/
  | drops {f : Frame} (hr : k.reader = .delivering f) (hl : k.listening = false)
      (h : k' = { k with reader := .decoding, reported := k.reported ++ [f] })
  | emits {f : Frame} (hr : k.reader = .delivering f) (hl : k.listening = true)
      (h : k' = { k with
        reader := .decoding
        reported := k.reported ++ [f]
        emitted := k.emitted ++ [f] })
  | receives (bytes : Bytes) (hr : k.reader = .reading)
      (h : k' = { k with
        unread := k.unread ++ bytes
        reader := .decoding
        received := k.received ++ bytes })
  /-- The reader stopped, though it had refused nothing. -/
  | stops (phase : ReaderPhase) (hp : phase.finished = true) (cause : ReaderStop)
      (hcause : ∀ e, cause ≠ .refused e) (hr : k.reader = .reading)
      (h : k' = { k with reader := phase, stop := some cause })

end Intake

namespace Run

/-- The reader's part of a run. -/
def intake (w : Run) : Intake where
  limit := w.session.frameLimit
  unread := w.session.buffer.unread
  reader := w.session.reader
  listening := w.session.listening
  received := w.received
  reported := w.reported
  emitted := w.emitted
  stop := w.stop

variable {w w' : Run}

private theorem intake_look {i : Nat} (h : w.look i = some w') : w'.intake = w.intake := by
  obtain ⟨p, -, ⟨e, journal, -, rfl⟩ | ⟨bytes, -, rfl⟩ | rfl⟩ := looking_of_look h
  · rfl
  · rfl
  · rfl

private theorem intake_enqueue {i : Nat} (h : w.enqueue i = some w') :
    w'.intake = w.intake := by
  obtain ⟨p, bytes, -, ⟨-, rfl⟩ | ⟨-, rfl⟩⟩ := queueing_of_enqueue h
  · rfl
  · rfl

private theorem intake_closeStep {i : Nat} (h : w.closeStep i = some w') :
    w'.intake = w.intake := by
  obtain ⟨stage, -, rfl⟩ := stage_of_closeStep h
  simp [intake, setSession, Session.frameLimit]

private theorem intake_write (h : w.write = some w') : w'.intake = w.intake := by
  obtain ⟨s, firing, hgoes, rfl⟩ := writerGoes_of_write h
  cases hgoes with
  | closes hw => simp [intake, setSession, Session.frameLimit]
  | _ => rfl

private theorem finished_of_reader {phase : ReaderPhase} (hr : w.session.reader = phase)
    (hp : phase.finished = true) : w.intake.reader.finished = true := by
  rw [show w.intake.reader = phase from hr, hp]

private theorem intake_read (h : w.read = some w') : w.intake.Effect w'.intake := by
  obtain ⟨s, hgoes, rfl⟩ := readerGoes_of_read h
  cases hgoes with
  | begins hr =>
      exact .begins hr (by simp [intake, setSession, hr, ReaderPhase.reporting,
        Session.stopCause, Session.frameLimit])
  | fails hr =>
      exact .winds .ended rfl (.inl hr) (by simp [intake, setSession, hr,
        ReaderPhase.reporting, Session.stopCause, Session.frameLimit])
  | needsMore hr hd =>
      have hcause : w.session.stopCause = none := by simp [Session.stopCause, hr, hd]
      exact .needsMore hr hd (by simp [intake, setSession, hr, ReaderPhase.reporting,
        hcause, Session.frameLimit])
  | refuses reason journal hr hd =>
      rename_i e
      have hcause : w.session.stopCause = some (.refused e) := by
        simp [Session.stopCause, hr, hd]
      refine .refuses (.closing (some reason) .claiming) rfl hr hd ?_
      simp [intake, setSession, hr, ReaderPhase.reporting, hcause, Session.frameLimit]
  | decodes journal hr hd =>
      have hcause : w.session.stopCause = none := by simp [Session.stopCause, hr, hd]
      exact .decodes hr hd (by simp [intake, setSession, hr, ReaderPhase.reporting,
        hcause, Session.frameLimit, ReadBuffer.advance])
  | drops journal hr hl =>
      exact .drops hr hl (by simp [intake, setSession, hr, ReaderPhase.reporting,
        Session.stopCause, Session.frameLimit])
  | emits hr hl =>
      exact .emits hr hl (by simp [intake, setSession, hr, ReaderPhase.reporting,
        Session.stopCause, Session.frameLimit, SessionEvent.frame?])
  | told hr hm =>
      have hcause : ∀ e, ReaderStop.told ≠ .refused e := by
        intro e he
        cases he
      refine .stops (.closing none .claiming) rfl .told hcause hr ?_
      simp [intake, setSession, hr, ReaderPhase.reporting, Session.stopCause,
        Session.frameLimit, hm]
  | closes hr =>
      rename_i reason stage
      refine .winds (.closing reason (w.session.closeStep reason .abort stage).1) rfl
        (.inr (finished_of_reader hr rfl)) ?_
      simp [intake, setSession, hr, ReaderPhase.reporting, Session.stopCause,
        Session.frameLimit]
  | closed journal hr =>
      rename_i reason effective
      refine .winds (.announcing reason) rfl (.inr (finished_of_reader hr rfl)) ?_
      simp [intake, setSession, hr, ReaderPhase.reporting, Session.stopCause,
        Session.frameLimit]
  | leaves hr hl =>
      refine .winds .ended rfl (.inr (finished_of_reader hr rfl)) ?_
      simp [intake, setSession, hr, ReaderPhase.reporting, Session.stopCause,
        Session.frameLimit]
  | announces hr hl =>
      refine .winds .ended rfl (.inr (finished_of_reader hr rfl)) ?_
      simp [intake, setSession, hr, ReaderPhase.reporting, Session.stopCause,
        Session.frameLimit, SessionEvent.frame?]

private theorem intake_outside (call : OutsideCall) :
    w.intake.Effect (w.setSession .caller (w.session.outside call)).intake := by
  cases call with
  | stopListening => exact .deafens rfl
  | _ => exact .aside rfl

theorem intake_of_step {e : RunEvent} (h : w.step? e = some w') :
    w.intake.Effect w'.intake := by
  cases e with
  | send p =>
      obtain rfl := Option.some.inj h
      exact .aside rfl
  | look i => exact .aside (intake_look h)
  | enqueue i => exact .aside (intake_enqueue h)
  | close =>
      obtain rfl := Option.some.inj h
      exact .aside rfl
  | closeStep i => exact .aside (intake_closeStep h)
  | write => exact .aside (intake_write h)
  | take =>
      obtain ⟨r, queue, -, -, rfl⟩ := idle_of_take h
      exact .aside rfl
  | put count =>
      obtain ⟨r, rest, flushed, -, -, -, rfl⟩ := writing_of_put h
      exact .aside rfl
  | failWrite fault =>
      obtain ⟨r, rest, flushed, journal, -, rfl⟩ := writing_of_failWrite h
      exact .aside rfl
  | read => exact intake_read h
  | got bytes =>
      simp only [step?] at h
      split at h
      · cases h
      · obtain ⟨hr, rfl⟩ := reading_of_answerRead h
        refine .receives bytes hr ?_
        simp [intake, setSession, Session.afterRead, Session.makeRoom, ReadBuffer.append,
          Session.frameLimit]
  | atEnd =>
      obtain ⟨hr, rfl⟩ := reading_of_answerRead h
      have hcause : ∀ e, ReaderStop.atEnd ≠ .refused e := by
        intro e he
        cases he
      refine .stops (.closing (some "connection closed by peer") .claiming) rfl .atEnd hcause
        hr ?_
      simp [intake, setSession, Session.afterRead, Session.makeRoom, Session.frameLimit]
  | failRead fault =>
      obtain ⟨hr, rfl⟩ := reading_of_answerRead h
      have hcause : ∀ e, ReaderStop.failed fault ≠ .refused e := by
        intro e he
        cases he
      refine .stops (.closing (some s!"read failed: {fault.message}") .claiming) rfl
        (.failed fault) hcause hr ?_
      simp [intake, setSession, Session.afterRead, Session.makeRoom, Session.frameLimit,
        Session.log]
  | outside call =>
      obtain rfl := Option.some.inj h
      exact intake_outside call
  | tick now =>
      obtain rfl := Option.some.inj h
      exact .aside rfl

end Run

/-! ## The invariant -/

namespace Intake

/-- What was reported, and what is undecoded, is what decoding all bytes at once
would have found; what was emitted is what was reported while somebody
listened. -/
structure Faithful (k : Intake) : Prop where
  decoded : Frame.decodeAll k.limit k.received =
    (Frame.decodeAll k.limit k.unread).after (k.reported ++ k.reader.reporting)
  /-- The reader asks for bytes only when it needs them. -/
  waiting : k.reader = .reading → Frame.decode k.limit k.unread = .incomplete
  finished : k.stop ≠ none → k.reader.finished = true
  refused : ∀ e, k.stop = some (.refused e) → Frame.decode k.limit k.unread = .failed e
  unrefused : k.stop ≠ none → (∀ e, k.stop ≠ some (.refused e)) →
    Frame.decode k.limit k.unread = .incomplete
  emitted : k.emitted <+: k.reported
  listening : k.listening = true → k.emitted = k.reported

variable {k k' : Intake}

private theorem reporting_of_finished {phase : ReaderPhase} (h : phase.finished = true) :
    phase.reporting = [] := by
  cases phase <;> first | rfl | cases h

/-- A reader that still reads has not stopped. -/
theorem Faithful.stop_eq_none (h : k.Faithful) (hr : k.reader.finished = false) :
    k.stop = none := by
  by_contra hstop
  rw [h.finished hstop] at hr
  cases hr

/-- A reader that goes on has not stopped, so only its frames have to be looked
at. -/
private theorem Faithful.go (h : k.Faithful) (hr : k.reader.finished = false)
    (hstop : k'.stop = k.stop)
    (hdecoded : Frame.decodeAll k'.limit k'.received =
      (Frame.decodeAll k'.limit k'.unread).after (k'.reported ++ k'.reader.reporting))
    (hwaiting : k'.reader = .reading → Frame.decode k'.limit k'.unread = .incomplete)
    (hemitted : k'.emitted <+: k'.reported)
    (hlistening : k'.listening = true → k'.emitted = k'.reported) : k'.Faithful := by
  have hnone : k'.stop = none := by rw [hstop, h.stop_eq_none hr]
  refine ⟨hdecoded, hwaiting, fun hne => absurd hnone hne, ?_, fun hne => absurd hnone hne,
    hemitted, hlistening⟩
  intro e he
  rw [hnone] at he
  cases he

theorem Faithful.step (h : k.Faithful) (he : k.Effect k') : k'.Faithful := by
  have hdecoded := h.decoded
  cases he with
  | aside hk =>
      rw [hk]
      exact h
  | deafens hk =>
      rw [hk]
      exact { h with listening := fun hlistening => by cases hlistening }
  | begins hr hk =>
      rw [hr] at hdecoded
      rw [hk]
      refine h.go (by rw [hr]; rfl) rfl hdecoded ?_ h.emitted h.listening
      intro hreading
      cases hreading
  | winds phase hp hr hk =>
      have hreporting : k.reader.reporting = phase.reporting := by
        rcases hr with hr | hr
        · rw [hr, reporting_of_finished hp]
          rfl
        · rw [reporting_of_finished hr, reporting_of_finished hp]
      rw [hreporting] at hdecoded
      rw [hk]
      refine { h with decoded := hdecoded, waiting := ?_, finished := fun _ => hp }
      rintro rfl
      cases hp
  | needsMore hr hd hk =>
      rw [hr] at hdecoded
      rw [hk]
      exact h.go (by rw [hr]; rfl) rfl hdecoded (fun _ => hd) h.emitted h.listening
  | decodes hr hd hk =>
      rw [hr, Frame.decodeAll_of_frame hd] at hdecoded
      rw [hk]
      refine h.go (by rw [hr]; rfl) rfl ?_ ?_ h.emitted h.listening
      · rw [hdecoded]
        simp [Frame.Decoding.after, ReaderPhase.reporting]
      · intro hreading
        cases hreading
  | refuses phase hp hr hd hk =>
      rename_i e
      rw [hr, show ReaderPhase.decoding.reporting = phase.reporting by
        rw [reporting_of_finished hp]; rfl] at hdecoded
      rw [hk]
      refine { h with
        decoded := hdecoded
        waiting := ?_
        finished := fun _ => hp
        refused := fun e' he' => ?_
        unrefused := fun _ hne => absurd rfl (hne e) }
      · rintro rfl
        cases hp
      · obtain rfl := ReaderStop.refused.inj (Option.some.inj he')
        exact hd
  | drops hr hl hk =>
      rw [hr] at hdecoded
      rw [hk]
      refine h.go (by rw [hr]; rfl) rfl ?_ ?_ ?_ ?_
      · rw [hdecoded]
        simp [ReaderPhase.reporting]
      · intro hreading
        cases hreading
      · exact h.emitted.trans (List.prefix_append _ _)
      · intro hlistening
        rw [show k.listening = true from hlistening] at hl
        cases hl
  | emits hr hl hk =>
      rw [hr] at hdecoded
      rw [hk]
      refine h.go (by rw [hr]; rfl) rfl ?_ ?_ ?_ ?_
      · rw [hdecoded]
        simp [ReaderPhase.reporting]
      · intro hreading
        cases hreading
      · exact ⟨[], by rw [h.listening hl, List.append_nil]⟩
      · intro _
        rw [h.listening hl]
  | receives bytes hr hk =>
      rw [hr, Frame.decodeAll_of_incomplete (h.waiting hr)] at hdecoded
      rw [hk]
      refine h.go (by rw [hr]; rfl) rfl ?_ ?_ h.emitted h.listening
      · -- nothing was left but the beginning of a frame
        rw [Frame.decodeAll_append hdecoded bytes]
        simp [ReaderPhase.reporting]
      · intro hreading
        cases hreading
  | stops phase hp cause hcause hr hk =>
      have hwaiting := h.waiting hr
      rw [hr, show ReaderPhase.reading.reporting = phase.reporting by
        rw [reporting_of_finished hp]; rfl] at hdecoded
      rw [hk]
      refine { h with
        decoded := hdecoded
        waiting := fun _ => hwaiting
        finished := fun _ => hp
        refused := fun e he => absurd (Option.some.inj he) (hcause e)
        unrefused := fun _ _ => hwaiting }

/-- A reader that stopped without a refusal has reported every frame that
arrived as a whole. -/
theorem Faithful.reported_of_stop (h : k.Faithful) (hstop : k.stop ≠ none)
    (hcause : ∀ e, k.stop ≠ some (.refused e)) :
    Frame.decodeAll k.limit k.received = ⟨k.reported, none, k.unread⟩ := by
  rw [h.decoded, Frame.decodeAll_of_incomplete (h.unrefused hstop hcause),
    reporting_of_finished (h.finished hstop), List.append_nil]
  simp [Frame.Decoding.after]

/-- What was reported is among the frames that arrived as a whole. -/
theorem Faithful.reported_isPrefix (h : k.Faithful) :
    k.reported <+: (Frame.decodeAll k.limit k.received).frames := by
  rw [h.decoded]
  exact ⟨k.reader.reporting ++ (Frame.decodeAll k.limit k.unread).frames,
    (List.append_assoc _ _ _).symm⟩

/-- A frame that was refused makes decoding everything at once fail. -/
theorem Faithful.failure_of_refused (h : k.Faithful) {e : TransportError}
    (hstop : k.stop = some (.refused e)) :
    (Frame.decodeAll k.limit k.received).failure = some e := by
  rw [h.decoded, Frame.decodeAll_of_failed (h.refused e hstop)]
  rfl

end Intake

theorem Run.Reached.faithful {w : Run} (h : w.Reached) : w.intake.Faithful := by
  refine h.invariant (P := fun w => w.intake.Faithful) ?_ ?_
  · rintro _ ⟨label, remote, config, now⟩
    obtain ⟨journal, hsession⟩ := Run.session_start label remote config now
    have hintake : (Run.start label remote config now).intake =
        { limit := (Run.start label remote config now).session.frameLimit, unread := []
          reader := .starting, listening := true, received := [], reported := []
          emitted := [], stop := none } := by
      rw [Run.intake, hsession]
      rfl
    rw [hintake]
    exact ⟨rfl, nofun, fun hne => absurd rfl hne, nofun, fun hne => absurd rfl hne,
      List.prefix_rfl, fun _ => rfl⟩
  · rintro w w' _ ⟨e, he⟩ hfaithful
    exact hfaithful.step (Run.intake_of_step he)

end PeerLink
