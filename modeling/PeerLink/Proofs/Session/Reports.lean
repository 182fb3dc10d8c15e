import PeerLink.Proofs.Frame.Grammar
import PeerLink.Proofs.Session.FailedWrite

/-!
# What the reader reports

Whatever pieces the bytes came in, at each moment when the reader is about to wait for more, and
after it has left its loop, it has attempted to report the frames that decoding everything at once
would find, and its counters agree with them.  It attempts to report the end once, when the session
has been closed, and nothing after that.

`Run.Attempted` writes down the attempts of a reader along a run.  An attempt is seen from outside:
the reader has come to a phase in which it holds something for the event channel.  Whether anybody
receives it makes no difference to the attempt.  `Run.Delivered` writes down beside the attempts
what the channel has got.

## Main results

* `Run.inwardEffect_of_step` — what a step can do to the reader's counters and phase.
* `Run.Reached.counted` — the counters follow the bytes and the frames.
* `Run.Reached.closed_of_reader` — the reader announces the end of a closed session only.
* `Run.Attempted.told` — what the attempts are, phase by phase.
* `Run.Delivered.of_listening` — as long as somebody listens, the channel has got all attempts but
  the one that the reader holds.
* `Run.exists_announcing` — a reader that closes the session comes to report the end.
* `Run.reader_reports_what_it_read` — the attempts are what decoding everything at once finds.
-/

namespace PeerLink

/-- What a reader attempts to put into the event channel. -/
inductive Attempt
  | message (frame : Frame)
  /-- The end; `closed` says whether the session was closed before the attempt began. -/
  | ended (reason : Option String) (closed : Bool)
  deriving DecidableEq

/-- The frame that was to be reported. -/
def Attempt.frame? : Attempt → Option Frame
  | message f => some f
  | ended .. => none

/-- The bytes of frames on the wire. -/
def Frame.total (frames : List Frame) : Nat := frames.foldr (fun f n => f.size + n) 0

/-- Written frames take their sizes. -/
theorem Frame.Stream.length_eq {limit : Nat} {frames : List Frame} {bytes : Bytes}
    (h : Frame.Stream limit frames bytes) : bytes.length = Frame.total frames := by
  induction h with
  | nil => rfl
  | cons hf _ _ ih =>
      rw [List.length_append, Frame.length_encode hf, ih]
      rfl

/-- What was decoded and what is left are as many bytes as there were. -/
theorem Frame.total_decodeAll (limit : Nat) (bytes : Bytes) :
    Frame.total (Frame.decodeAll limit bytes).frames +
      (Frame.decodeAll limit bytes).rest.length = bytes.length := by
  obtain ⟨front, hstream, hbytes⟩ := Frame.exists_stream limit bytes
  have hlength := congrArg List.length hbytes
  rw [List.length_append, hstream.length_eq] at hlength
  exact hlength.symm

/-! ## The reader's counters and phase -/

/-- The reader's phase, with what it has read, reported and counted. -/
structure Inward where
  reader : ReaderPhase
  stop : Option ReaderStop
  received : Bytes
  reported : List Frame
  bytesIn : Nat
  framesReceived : Nat

namespace Run

/-- The reader's phase in a run, with what it has read, reported and counted. -/
def inward (w : Run) : Inward where
  reader := w.session.reader
  stop := w.stop
  received := w.received
  reported := w.reported
  bytesIn := w.session.traffic.bytesIn
  framesReceived := w.session.traffic.framesReceived

/-- What a step can do to them. -/
inductive InwardEffect (w w' : Run) : Prop
  | aside (h : w'.inward = w.inward)
  | begins (hr : w.session.reader = .starting) (hbuffer : w.session.config.hasBuffer = true)
      (h : w'.inward = { w.inward with reader := .decoding })
  /-- The reader could not make its buffer. -/
  | fails (hr : w.session.reader = .starting) (hbuffer : w.session.config.hasBuffer = false)
      (h : w'.inward = { w.inward with reader := .ended })
  | needsMore (hr : w.session.reader = .decoding)
      (h : w'.inward = { w.inward with reader := .reading })
  | decodes (f : Frame) (hr : w.session.reader = .decoding)
      (h : w'.inward = { w.inward with
        reader := .delivering f
        framesReceived := Traffic.advance w.inward.framesReceived 1 })
  /-- A frame was put into the channel, or nobody listens. -/
  | reports (f : Frame) (hr : w.session.reader = .delivering f)
      (h : w'.inward = { w.inward with
        reader := .decoding
        reported := w.inward.reported ++ [f] })
  | receives (bytes : Bytes) (hr : w.session.reader = .reading)
      (h : w'.inward = { w.inward with
        reader := .decoding
        received := w.inward.received ++ bytes
        bytesIn := Traffic.advance w.inward.bytesIn bytes.length })
  /-- The reader left its loop. -/
  | leaves (reason : Option String) (cause : ReaderStop)
      (hr : w.session.reader = .decoding ∨ w.session.reader = .reading)
      (h : w'.inward = { w.inward with
        reader := .closing reason .claiming
        stop := some cause })
  | closes (reason : Option String) (stage stage' : ClosingStage)
      (hr : w.session.reader = .closing reason stage)
      (hclosed : stage = .claiming → w'.session.closed = true)
      (h : w'.inward = { w.inward with reader := .closing reason stage' })
  | closed (reason : Option String) (effective : Bool)
      (hr : w.session.reader = .closing reason (.done effective))
      (h : w'.inward = { w.inward with reader := .announcing reason })
  /-- The end was put into the channel, or nobody listens. -/
  | ends (reason : Option String) (hr : w.session.reader = .announcing reason)
      (h : w'.inward = { w.inward with reader := .ended })

variable {w w' : Run} {e : RunEvent}

/-- Whether a reader can begin depends on its buffer. -/
private theorem reader_of_starting (h : w.read = some w') (hr : w.session.reader = .starting) :
    w'.session.reader = if w.session.config.hasBuffer then .decoding else .ended := by
  cases hbuffer : w.session.config.hasBuffer <;>
    simp only [read, Session.readerMove, hr, hbuffer] at h <;> cases h <;> rfl

/-- What the reader may have done when it went on by itself, on the level of its counters. -/
private theorem inwardEffect_read (h : w.read = some w') : w.InwardEffect w' := by
  have hstart := reader_of_starting h
  obtain ⟨s, hgoes, rfl⟩ := readerGoes_of_read h
  cases hgoes with
  | begins hr =>
      have hbuffer : w.session.config.hasBuffer = true := by
        cases hbuffer : w.session.config.hasBuffer with
        | true => rfl
        | false =>
            have hended := hstart hr
            rw [hbuffer] at hended
            cases hended
      exact .begins hr hbuffer
        (by simp [inward, setSession, hr, ReaderPhase.reporting, Session.stopCause])
  | fails hr =>
      have hbuffer : w.session.config.hasBuffer = false := by
        cases hbuffer : w.session.config.hasBuffer with
        | false => rfl
        | true =>
            have hdecoding := hstart hr
            rw [hbuffer] at hdecoding
            cases hdecoding
      exact .fails hr hbuffer
        (by simp [inward, setSession, hr, ReaderPhase.reporting, Session.stopCause])
  | needsMore hr hd =>
      exact .needsMore hr
        (by simp [inward, setSession, hr, hd, ReaderPhase.reporting, Session.stopCause])
  | refuses reason journal hr hd =>
      rename_i e
      exact .leaves (some reason) (.refused e) (.inl hr)
        (by simp [inward, setSession, hr, hd, ReaderPhase.reporting, Session.stopCause])
  | decodes journal hr hd =>
      rename_i f rest
      exact .decodes f hr
        (by simp [inward, setSession, hr, hd, ReaderPhase.reporting, Session.stopCause,
          Traffic.countDecoded])
  | drops journal hr hl =>
      rename_i f
      exact .reports f hr
        (by simp [inward, setSession, hr, ReaderPhase.reporting, Session.stopCause])
  | emits hr hl =>
      rename_i f
      exact .reports f hr
        (by simp [inward, setSession, hr, ReaderPhase.reporting, Session.stopCause])
  | told hr hm =>
      exact .leaves none .told (.inr hr)
        (by simp [inward, setSession, hr, hm, ReaderPhase.reporting, Session.stopCause])
  | closes hr =>
      rename_i reason stage
      refine .closes reason stage (w.session.closeStep reason .abort stage).1 hr ?_
        (by simp [inward, setSession, hr, ReaderPhase.reporting, Session.stopCause])
      rintro rfl
      cases hclosed : w.session.closed <;>
        simp [setSession, Session.closeStep, Session.claimClose, hclosed]
  | closed journal hr =>
      rename_i reason effective
      exact .closed reason effective hr
        (by simp [inward, setSession, hr, ReaderPhase.reporting, Session.stopCause])
  | leaves hr hl =>
      rename_i reason
      exact .ends reason hr
        (by simp [inward, setSession, hr, ReaderPhase.reporting, Session.stopCause])
  | announces hr hl =>
      rename_i reason
      exact .ends reason hr
        (by simp [inward, setSession, hr, ReaderPhase.reporting, Session.stopCause])

/-- The stream has answered the reader. -/
private theorem inwardEffect_answer {answer : ReadAnswer} {bytes : Bytes}
    {stop : Option ReaderStop} (h : w.answerRead answer bytes stop = some w')
    (hanswer : answer = .received bytes ∧ stop = none ∨
      bytes = [] ∧ ∃ cause reason, stop = some cause ∧
        ∀ s : Session, (s.afterRead answer).reader = .closing (some reason) .claiming ∧
          (s.afterRead answer).traffic = s.traffic) : w.InwardEffect w' := by
  obtain ⟨hr, rfl⟩ := reading_of_answerRead h
  rcases hanswer with ⟨rfl, rfl⟩ | ⟨rfl, cause, reason, rfl, hafter⟩
  · exact .receives bytes hr rfl
  · refine .leaves (some reason) cause (.inr hr) ?_
    simp [inward, setSession, hafter, Session.makeRoom]

theorem inwardEffect_of_step (h : w.step? e = some w') : w.InwardEffect w' := by
  cases e with
  | send p | close | tick now =>
      obtain rfl := Option.some.inj h
      exact .aside rfl
  | look i =>
      obtain ⟨p, -, ⟨e, journal, -, rfl⟩ | ⟨bytes, -, rfl⟩ | rfl⟩ := looking_of_look h
      · exact .aside rfl
      · exact .aside rfl
      · exact .aside rfl
  | enqueue i =>
      obtain ⟨p, bytes, -, ⟨-, rfl⟩ | ⟨-, rfl⟩⟩ := queueing_of_enqueue h
      · exact .aside rfl
      · exact .aside rfl
  | closeStep i =>
      obtain ⟨stage, -, rfl⟩ := stage_of_closeStep h
      exact .aside (by simp [inward, setSession])
  | write =>
      obtain ⟨s, firing, hgoes, rfl⟩ := writerGoes_of_write h
      cases hgoes with
      | closes hw => exact .aside (by simp [inward, setSession])
      | _ => exact .aside rfl
  | take =>
      obtain ⟨r, queue, -, -, rfl⟩ := idle_of_take h
      exact .aside rfl
  | put count =>
      obtain ⟨r, rest, flushed, -, -, -, rfl⟩ := writing_of_put h
      exact .aside rfl
  | failWrite fault =>
      obtain ⟨r, rest, flushed, journal, -, rfl⟩ := writing_of_failWrite h
      exact .aside rfl
  | read => exact inwardEffect_read h
  | got bytes =>
      simp only [step?] at h
      split at h
      · cases h
      · exact inwardEffect_answer h (.inl ⟨rfl, rfl⟩)
  | atEnd => exact inwardEffect_answer h (.inr ⟨rfl, _, _, rfl, fun _ => ⟨rfl, rfl⟩⟩)
  | failRead fault => exact inwardEffect_answer h (.inr ⟨rfl, _, _, rfl, fun _ => ⟨rfl, rfl⟩⟩)
  | outside call =>
      obtain rfl := Option.some.inj h
      cases call <;> exact .aside rfl

end Run

/-! ## The counters -/

/-- The counters follow the bytes and the frames, modulo 2^64. -/
structure Inward.Counted (k : Inward) : Prop where
  bytesIn : k.bytesIn = k.received.length % UInt64.size
  framesReceived : k.framesReceived = (k.reported ++ k.reader.reporting).length % UInt64.size

namespace Run

variable {w w' : Run} {e : RunEvent}

theorem InwardEffect.counted (h : w.InwardEffect w') (hc : w.inward.Counted) :
    w'.inward.Counted := by
  obtain ⟨hbytes, hframes⟩ := hc
  cases h with
  | aside hk =>
      rw [hk]
      exact ⟨hbytes, hframes⟩
  | begins hr hbuffer hk | fails hr hbuffer hk | needsMore hr hk | closed reason effective hr hk
  | ends reason hr hk =>
      rw [show w.inward.reader = _ from hr] at hframes
      rw [hk]
      exact ⟨hbytes, hframes⟩
  | decodes f hr hk =>
      rw [show w.inward.reader = _ from hr] at hframes
      rw [hk, hframes, Traffic.advance_mod]
      exact ⟨hbytes, by simp [ReaderPhase.reporting]⟩
  | reports f hr hk =>
      rw [show w.inward.reader = _ from hr] at hframes
      rw [hk]
      exact ⟨hbytes, by simpa [ReaderPhase.reporting] using hframes⟩
  | receives bytes hr hk =>
      rw [show w.inward.reader = _ from hr] at hframes
      rw [hk, hbytes, Traffic.advance_mod]
      exact ⟨by simp, hframes⟩
  | leaves reason cause hr hk =>
      have hnone : w.inward.reader.reporting = [] := by
        rcases hr with hr | hr <;> rw [show w.inward.reader = _ from hr] <;> rfl
      rw [hnone] at hframes
      rw [hk]
      exact ⟨hbytes, hframes⟩
  | closes reason stage stage' hr hclosed hk =>
      rw [show w.inward.reader = _ from hr] at hframes
      rw [hk]
      exact ⟨hbytes, hframes⟩

theorem inward_start (label : String) (remote : Option Address) (config : SessionConfig)
    (now : Duration) : (start label remote config now).inward =
      { reader := .starting, stop := none, received := [], reported := [], bytesIn := 0,
        framesReceived := 0 } := by
  obtain ⟨journal, hsession⟩ := session_start label remote config now
  rw [inward, hsession]
  rfl

theorem Reached.counted (h : w.Reached) : w.inward.Counted := by
  refine h.invariant (P := fun w => w.inward.Counted) ?_ ?_
  · rintro _ ⟨label, remote, config, now⟩
    rw [inward_start]
    exact ⟨rfl, rfl⟩
  · rintro w w' _ ⟨e, he⟩ hcounted
    exact (inwardEffect_of_step he).counted hcounted

end Run

/-! ## The attempts -/

/-- What the reader holds for the event channel. -/
def ReaderPhase.attempt (closed : Bool) : ReaderPhase → List Attempt
  | delivering f => [.message f]
  | announcing reason => [.ended reason closed]
  | _ => []

namespace Run

/-- What the reader begins to report with a step: it has come to a phase in which it holds
something for the event channel. -/
def begun (w w' : Run) : List Attempt :=
  if w'.session.reader = w.session.reader then []
  else w'.session.reader.attempt w.session.closed

/-- From `w₀` on, the reader has begun these attempts, in order. -/
inductive Attempted (w₀ : Run) : Run → List Attempt → Prop
  | none : Attempted w₀ w₀ []
  | step {w w' : Run} {attempts : List Attempt} (e : RunEvent) (h : Attempted w₀ w attempts)
      (he : w.step? e = some w') : Attempted w₀ w' (attempts ++ w.begun w')

variable {w w' w₀ : Run} {e : RunEvent} {attempts : List Attempt}

theorem Attempted.steps (h : Attempted w₀ w attempts) : Steps w₀ w := by
  induction h with
  | none => exact .refl
  | step e _ he ih => exact .tail ih ⟨e, he⟩

/-- The attempts along a sequence of steps. -/
def attemptsOf (w : Run) : List RunEvent → List Attempt
  | [] => []
  | e :: rest =>
    match w.step? e with
    | none => []
    | some w' => w.begun w' ++ attemptsOf w' rest

theorem Attempted.exec {events : List RunEvent} (h : Attempted w₀ w attempts)
    (he : w.exec events = some w') : Attempted w₀ w' (attempts ++ w.attemptsOf events) := by
  induction events generalizing w attempts with
  | nil =>
      cases he
      rw [attemptsOf, List.append_nil]
      exact h
  | cons e rest ih =>
      rw [Run.exec, List.foldlM_cons] at he
      obtain ⟨w₁, hw, hrest⟩ := Option.bind_eq_some_iff.1 he
      simp only [attemptsOf, hw]
      rw [← List.append_assoc]
      exact ih (.step e h hw) hrest

theorem exists_attempted (h : Steps w₀ w) : ∃ attempts, Attempted w₀ w attempts := by
  induction h with
  | refl => exact ⟨[], .none⟩
  | tail _ he ih =>
      obtain ⟨e, he⟩ := he
      obtain ⟨attempts, hattempted⟩ := ih
      exact ⟨_, .step e hattempted he⟩

end Run

/-- What has been attempted about the end, phase by phase. A reader that could not begin never
attempts it. -/
def ReaderPhase.EndTold (begins : Bool) (stop : Option ReaderStop) (ends : List Attempt) :
    ReaderPhase → Prop
  | starting => ends = []
  | closing .. => begins = true ∧ stop ≠ none ∧ ends = []
  | announcing reason => begins = true ∧ stop ≠ none ∧ ends = [.ended reason true]
  | ended => begins = false ∧ ends = [] ∨
    begins = true ∧ stop ≠ none ∧ ∃ reason, ends = [.ended reason true]
  | _ => begins = true ∧ ends = []

/-- The reader is past claiming the closing, or will never do so. -/
def ReaderPhase.pastClaiming (stop : Option ReaderStop) : ReaderPhase → Bool
  | closing _ .claiming => false
  | closing .. | announcing _ => true
  | ended => stop.isSome
  | _ => false

namespace Run

variable {w w' w₀ : Run} {e : RunEvent} {attempts : List Attempt}

/-- The reader announces the end of a closed session only. -/
theorem Reached.closed_of_reader (h : w.Reached) :
    w.session.reader.pastClaiming w.stop = true → w.session.closed = true := by
  refine h.invariant
    (P := fun w => w.session.reader.pastClaiming w.stop = true → w.session.closed = true) ?_ ?_
  · rintro _ ⟨label, remote, config, now⟩ hpast
    have hreader := congrArg Inward.reader (inward_start label remote config now)
    rw [show (Run.start label remote config now).session.reader = .starting from hreader] at hpast
    cases hpast
  · rintro w w' (hw : w.Reached) ⟨e, he⟩ ih hpast
    have hk (k : Inward) (hk : w'.inward = k) : k.reader.pastClaiming k.stop = true := by
      rw [← hk]
      exact hpast
    cases inwardEffect_of_step he with
    | aside h => exact hw.closed_step he (ih (hk _ h))
    | begins hr hbuffer h | needsMore hr h | decodes f hr h | reports f hr h | receives bytes hr h
    | leaves reason cause hr h => cases hk _ h
    | fails hr hbuffer h =>
        have hstop : w.stop = none := by
          refine hw.faithful.stop_eq_none ?_
          rw [show w.intake.reader = .starting from hr]
          rfl
        have hsome : w.stop.isSome = true := hk _ h
        rw [hstop] at hsome
        cases hsome
    | closes reason stage stage' hr hclosed h =>
        by_cases hclaiming : stage = .claiming
        · exact hclosed hclaiming
        · refine hw.closed_step he (ih ?_)
          rw [hr]
          cases stage with
          | claiming => exact absurd rfl hclaiming
          | _ => rfl
    | closed reason effective hr h =>
        refine hw.closed_step he (ih ?_)
        rw [hr]
        rfl
    | ends reason hr h =>
        refine hw.closed_step he (ih ?_)
        rw [hr]
        rfl

/-- What the reader has attempted, in one phase: to report the frames it has decoded, and the end
when it has come so far. -/
def Told (w : Run) (attempts : List Attempt) : Prop :=
  ∃ ends, attempts = (w.reported ++ w.session.reader.reporting).map .message ++ ends ∧
    w.session.reader.EndTold w.session.config.hasBuffer w.stop ends

private theorem begun_of_silent {k : Inward} (hk : w'.inward = k)
    (hsilent : k.reader.attempt w.session.closed = []) : w.begun w' = [] := by
  unfold begun
  split
  · rfl
  · rw [← hsilent, ← hk]
    rfl

private theorem begun_of_new {k : Inward} (hk : w'.inward = k)
    (hnew : k.reader ≠ w.session.reader) :
    w.begun w' = k.reader.attempt w.session.closed := by
  rw [← hk] at hnew ⊢
  exact if_neg hnew

theorem Told.step (h : w.Reached) (ht : w.Told attempts) (he : w.step? e = some w') :
    w'.Told (attempts ++ w.begun w') := by
  obtain ⟨ends, hattempts, hends⟩ := ht
  have htold {k : Inward} {attempts' ends' : List Attempt} (hk : w'.inward = k)
      (hattempts' : attempts' = (k.reported ++ k.reader.reporting).map .message ++ ends')
      (hends' : k.reader.EndTold w.session.config.hasBuffer k.stop ends') :
      w'.Told attempts' := by
    rw [← hk] at hattempts' hends'
    rw [← config_of_step he] at hends'
    exact ⟨ends', hattempts', hends'⟩
  cases inwardEffect_of_step he with
  | aside hk =>
      have hsame : w'.session.reader = w.session.reader := congrArg Inward.reader hk
      rw [begun, if_pos hsame, List.append_nil]
      exact htold hk hattempts hends
  | begins hr hbuffer hk =>
      rw [hr] at hattempts hends
      rw [begun_of_silent hk rfl, List.append_nil]
      exact htold hk hattempts ⟨hbuffer, hends⟩
  | fails hr hbuffer hk =>
      rw [hr] at hattempts hends
      rw [begun_of_silent hk rfl, List.append_nil]
      exact htold hk hattempts (.inl ⟨hbuffer, hends⟩)
  | needsMore hr hk | receives bytes hr hk =>
      rw [hr] at hattempts hends
      rw [begun_of_silent hk rfl, List.append_nil]
      exact htold hk hattempts hends
  | decodes f hr hk =>
      rw [hr] at hattempts hends
      obtain ⟨hbegins, rfl⟩ := hends
      rw [begun_of_new hk (by simp [hr]), hattempts]
      exact htold hk (by simp [ReaderPhase.reporting, ReaderPhase.attempt, inward])
        ⟨hbegins, rfl⟩
  | reports f hr hk =>
      rw [hr] at hattempts hends
      rw [begun_of_silent hk rfl, List.append_nil, hattempts]
      exact htold hk (by simp [ReaderPhase.reporting, inward]) hends
  | leaves reason cause hr hk =>
      have hbefore : w.session.reader.reporting = [] ∧
          w.session.config.hasBuffer = true ∧ ends = [] := by
        rcases hr with hr | hr <;> rw [hr] at hends ⊢ <;> exact ⟨rfl, hends⟩
      obtain ⟨hquiet, hbegins, rfl⟩ := hbefore
      rw [hquiet] at hattempts
      rw [begun_of_silent hk rfl, List.append_nil]
      exact htold hk hattempts ⟨hbegins, Option.some_ne_none cause, rfl⟩
  | closes reason stage stage' hr hclosed hk =>
      rw [hr] at hattempts hends
      rw [begun_of_silent hk rfl, List.append_nil]
      exact htold hk hattempts hends
  | closed reason effective hr hk =>
      rw [hr] at hattempts hends
      obtain ⟨hbegins, hstop, rfl⟩ := hends
      have hclosed : w.session.closed = true := h.closed_of_reader (by rw [hr]; rfl)
      rw [begun_of_new hk (by simp [hr]), hattempts, hclosed]
      exact htold hk (by simp [ReaderPhase.reporting, ReaderPhase.attempt, inward])
        ⟨hbegins, hstop, rfl⟩
  | ends reason hr hk =>
      rw [hr] at hattempts hends
      obtain ⟨hbegins, hstop, rfl⟩ := hends
      rw [begun_of_silent hk rfl, List.append_nil]
      exact htold hk hattempts (.inr ⟨hbegins, hstop, reason, rfl⟩)

theorem Attempted.reached {label : String} {remote : Option Address} {config : SessionConfig}
    {now : Duration} (h : Attempted (start label remote config now) w attempts) : w.Reached :=
  ⟨_, .start label remote config now, h.steps⟩

theorem Attempted.told {label : String} {remote : Option Address} {config : SessionConfig}
    {now : Duration} (h : Attempted (start label remote config now) w attempts) :
    w.Told attempts := by
  induction h with
  | none =>
      have hstart := inward_start label remote config now
      have hreader := congrArg Inward.reader hstart
      refine ⟨[], ?_, ?_⟩
      · rw [show (start label remote config now).session.reader = .starting from hreader]
        rfl
      · rw [show (start label remote config now).session.reader = .starting from hreader]
        exact rfl
  | step e h he ih => exact ih.step h.reached he

theorem Reached.exists_told (h : w.Reached) : ∃ attempts, w.Told attempts := by
  obtain ⟨_, ⟨label, remote, config, now⟩, hs⟩ := h
  obtain ⟨attempts, hattempted⟩ := exists_attempted hs
  exact ⟨attempts, hattempted.told⟩

/-! ## What is put into the channel -/

end Run

theorem ReaderPhase.attempt_eq_nil {phase : ReaderPhase} {closed closed' : Bool}
    (h : phase.attempt closed = []) : phase.attempt closed' = [] := by
  cases phase with
  | delivering f | announcing reason => cases h
  | _ => rfl

/-- The attempt that has put an event into the channel. -/
def SessionEvent.attempt : SessionEvent → Attempt
  | .message f _ => .message f
  | .closed reason => .ended reason true

namespace Run

variable {w w' w₀ : Run} {e : RunEvent} {attempts : List Attempt}

/-- The events that a step puts into the channel. -/
def added (w w' : Run) : List SessionEvent :=
  w'.session.events.drop w.session.events.length

/-- From `w₀` on, the reader has begun these attempts and the channel has got these events. -/
inductive Delivered (w₀ : Run) : Run → List Attempt → List SessionEvent → Prop
  | none : Delivered w₀ w₀ [] []
  | step {w w' : Run} {attempts : List Attempt} {events : List SessionEvent} (e : RunEvent)
      (h : Delivered w₀ w attempts events) (he : w.step? e = some w') :
      Delivered w₀ w' (attempts ++ w.begun w') (events ++ w.added w')

theorem Attempted.exists_delivered (h : Attempted w₀ w attempts) :
    ∃ events, Delivered w₀ w attempts events := by
  induction h with
  | none => exact ⟨[], .none⟩
  | step e _ he ih =>
      obtain ⟨events, hdelivered⟩ := ih
      exact ⟨_, .step e hdelivered he⟩

theorem Delivered.attempted {events : List SessionEvent} (h : Delivered w₀ w attempts events) :
    Attempted w₀ w attempts := by
  induction h with
  | none => exact .none
  | step e _ he ih => exact .step e ih he

/-- What a step can do to the channel. -/
inductive ChannelEffect (w w' : Run) : Prop
  /-- It puts nothing in, and if somebody listens the reader gives nothing up. -/
  | quiet (hadded : w.added w' = [])
      (hholds : w.session.listening = true →
        w'.session.reader = w.session.reader ∨ w.session.reader.attempt true = [])
  | puts (event : SessionEvent) (hadded : w.added w' = [event])
      (hl : w.session.listening = true)
      (hholds : w.session.reader.attempt true = [event.attempt])
      (hnext : w'.session.reader.attempt true = [])

private theorem channelEffect_read (h : w.read = some w') : w.ChannelEffect w' := by
  obtain ⟨s, hgoes, rfl⟩ := readerGoes_of_read h
  cases hgoes with
  | begins hr => exact .quiet (List.drop_length ..) fun _ => .inr (by rw [hr]; rfl)
  | fails hr => exact .quiet (List.drop_length ..) fun _ => .inr (by rw [hr]; rfl)
  | needsMore hr hd => exact .quiet (List.drop_length ..) fun _ => .inr (by rw [hr]; rfl)
  | refuses reason journal hr hd =>
      exact .quiet (List.drop_length ..) fun _ => .inr (by rw [hr]; rfl)
  | decodes journal hr hd =>
      exact .quiet (List.drop_length ..) fun _ => .inr (by rw [hr]; rfl)
  | told hr hm => exact .quiet (List.drop_length ..) fun _ => .inr (by rw [hr]; rfl)
  | closed journal hr => exact .quiet (List.drop_length ..) fun _ => .inr (by rw [hr]; rfl)
  | closes hr =>
      refine .quiet ?_ fun _ => .inr (by rw [hr]; rfl)
      simp [added, setSession]
  | drops journal hr hl | leaves hr hl =>
      refine .quiet (List.drop_length ..) fun hlistens => ?_
      rw [hl] at hlistens
      cases hlistens
  | emits hr hl =>
      refine .puts _ (List.drop_left ..) hl (by rw [hr]; rfl) rfl
  | announces hr hl =>
      refine .puts _ (List.drop_left ..) hl (by rw [hr]; rfl) rfl

private theorem channelEffect_answer {answer : ReadAnswer} {bytes : Bytes}
    {stop : Option ReaderStop} (h : w.answerRead answer bytes stop = some w') :
    w.ChannelEffect w' := by
  obtain ⟨hr, rfl⟩ := reading_of_answerRead h
  refine .quiet ?_ fun _ => .inr (by rw [hr]; rfl)
  have hevents : (w.session.makeRoom.afterRead answer).events = w.session.events := by
    cases answer <;> rfl
  simp [added, setSession, hevents]

theorem channelEffect_of_step (he : w.step? e = some w') : w.ChannelEffect w' := by
  by_cases htask : e.task = .reader
  · cases e with
    | read => exact channelEffect_read he
    | got bytes =>
        simp only [step?] at he
        split at he
        · cases he
        · exact channelEffect_answer he
    | atEnd => exact channelEffect_answer he
    | failRead fault => exact channelEffect_answer he
    | _ => cases htask
  · have hspares := (spares_of_step he).1 htask
    exact .quiet (List.drop_eq_nil_of_le hspares.events) fun _ => .inl hspares.reader

/-- Nobody who has stopped listening listens again. -/
theorem listening_of_step (he : w.step? e = some w') (hl : w'.session.listening = true) :
    w.session.listening = true := by
  have hbefore {k : Intake} (hk : w'.intake = k) : k.listening = true := by
    rw [← hk]
    exact hl
  cases intake_of_step he with
  | deafens h => cases hbefore h
  | aside h | begins hr h | winds phase hp hr h | needsMore hr hd h | decodes hr hd h
  | refuses phase hp hr hd h | drops hr hl h | emits hr hl h | receives bytes hr h
  | stops phase hp cause hcause hr h => exact hbefore h

/-- What a reader begins to report, it reports of a session as it is then. -/
private theorem begun_eq (h : w.Reached) (he : w.step? e = some w')
    (hne : w'.session.reader ≠ w.session.reader) :
    w.begun w' = w'.session.reader.attempt true := by
  rw [begun, if_neg hne]
  cases hr : w'.session.reader with
  | announcing reason =>
      have hafter {k : Inward} (hk : w'.inward = k) : k.reader = .announcing reason := by
        rw [← hk]
        exact hr
      have hclosed : w.session.closed = true := by
        cases inwardEffect_of_step he with
        | closed reason effective hr' hk => exact h.closed_of_reader (by rw [hr']; rfl)
        | aside hk => exact absurd (congrArg Inward.reader hk) hne
        | begins hr' hbuffer hk | fails hr' hbuffer hk | needsMore hr' hk | decodes f hr' hk
        | reports f hr' hk | receives bytes hr' hk | leaves reason cause hr' hk
        | closes reason stage stage' hr' hclosed hk | ends reason hr' hk => cases hafter hk
      rw [hclosed]
  | _ => rfl

/-- The events are those of the attempts, but for the last one as long as the reader holds it. -/
theorem Delivered.of_listening {label : String} {remote : Option Address}
    {config : SessionConfig} {now : Duration} {events : List SessionEvent}
    (h : Delivered (start label remote config now) w attempts events) :
    ∃ rest, attempts = events.map SessionEvent.attempt ++ rest ∧
      (w.session.listening = true → rest = w.session.reader.attempt true) := by
  induction h with
  | none =>
      have hreader := congrArg Inward.reader (inward_start label remote config now)
      refine ⟨[], rfl, fun _ => ?_⟩
      rw [show (start label remote config now).session.reader = .starting from hreader]
      rfl
  | step e h he ih =>
      rename_i w w' attempts events
      obtain ⟨rest, rfl, hrest⟩ := ih
      have hreached : w.Reached := h.attempted.reached
      cases channelEffect_of_step he with
      | quiet hadded hholds =>
          rw [hadded, List.append_nil, List.append_assoc]
          refine ⟨_, rfl, fun hl => ?_⟩
          have hlistens := listening_of_step he hl
          rw [hrest hlistens]
          by_cases hsame : w'.session.reader = w.session.reader
          · rw [begun, if_pos hsame, hsame, List.append_nil]
          · rw [(hholds hlistens).resolve_left hsame, begun_eq hreached he hsame,
              List.nil_append]
      | puts event hadded hlistens hholds hnext =>
          have hnone : w.begun w' = [] := by
            rw [begun]
            split
            · rfl
            · exact ReaderPhase.attempt_eq_nil hnext
          rw [hadded, hnone, hrest hlistens, hholds, List.append_nil, List.map_append]
          exact ⟨[], (List.append_nil _).symm, fun _ => hnext.symm⟩

/-- A reader that is out of its loop stays so. -/
theorem finished_of_step (he : w.step? e = some w') (hf : w.session.reader.finished = true) :
    w'.session.reader.finished = true := by
  have hafter {k : Inward} (hk : w'.inward = k) (hk' : k.reader.finished = true) :
      w'.session.reader.finished = true := by
    rw [← hk] at hk'
    exact hk'
  cases inwardEffect_of_step he with
  | aside h => exact hafter h hf
  | fails hr hbuffer h | leaves reason cause hr h | closes reason stage stage' hr hclosed h
  | closed reason effective hr h | ends reason hr h => exact hafter h rfl
  | begins hr hbuffer h | needsMore hr h | decodes f hr h | reports f hr h
  | receives bytes hr h =>
      rw [hr] at hf
      cases hf

/-- A session that its reader has closed was closed after the reader had left its loop. -/
theorem Reached.finished_of_winner (h : w.Reached) :
    w.winner = some .reader → w.session.reader.finished = true := by
  refine h.invariant
    (P := fun w => w.winner = some .reader → w.session.reader.finished = true) ?_ ?_
  · rintro _ ⟨label, remote, config, now⟩ hwinner
    cases hwinner
  · rintro w w' (hw : w.Reached) ⟨e, he⟩ ih hwinner
    by_cases hbefore : w.winner = none
    · have hopen : w.session.closed = false := by
        rw [Bool.eq_false_iff]
        intro hclosed
        exact hw.claims.closed_iff.1 hclosed hbefore
      have hclosed : w'.session.closed = true := by
        refine (Reached.claims (hw.step he)).closed_iff.2 ?_
        rw [hwinner]
        nofun
      rcases closingStep_of_step he with ⟨-, haside⟩ | ⟨c, a, hacting, hadvance⟩
      · rw [haside.closed, hopen] at hclosed
        cases hclosed
      · cases c with
        | reader =>
            have ha : w.session.reader.approach? = some a := hadvance.before
            cases hr : w.session.reader with
            | closing reason stage => exact finished_of_step he (by rw [hr]; rfl)
            | _ =>
                rw [hr] at ha
                cases ha
        | writer =>
            cases e with
            | write =>
                obtain ⟨s, firing, -, rfl⟩ := writerGoes_of_write he
                simp only [setSession, hbefore] at hwinner
                split at hwinner <;> cases hwinner
            | _ => simp [acting?, RunEvent.closing?] at hacting
        | call i =>
            cases e with
            | closeStep j =>
                obtain ⟨stage, -, rfl⟩ := stage_of_closeStep he
                simp only [setSession, hbefore] at hwinner
                split at hwinner <;> cases hwinner
            | _ => simp [acting?, RunEvent.closing?] at hacting
    · rw [hw.winner_step he hbefore] at hwinner
      exact finished_of_step he (ih hwinner)

/-! ## The end is reported -/

/-- How many steps of its own a close is away from being over. -/
def stagesLeft : ClosingStage → Nat
  | .claiming => 3
  | .recording => 2
  | .publishing => 1
  | .done _ => 0

theorem stagesLeft_closeStep (s : Session) (reason : Option String) (mode : Mode)
    {stage : ClosingStage} (hgoing : stage.answer? = none) :
    stagesLeft (s.closeStep reason mode stage).1 < stagesLeft stage := by
  cases stage with
  | claiming => cases hclosed : s.closed <;> simp [Session.closeStep, Session.claimClose, hclosed,
      stagesLeft]
  | recording => simp [Session.closeStep, stagesLeft]
  | publishing => simp [Session.closeStep, stagesLeft]
  | done effective => cases hgoing

/-- A reader that closes the session goes on whenever it is its turn. -/
theorem exists_read_of_closing {reason : Option String} {stage : ClosingStage}
    (hr : w.session.reader = .closing reason stage) :
    ∃ w', w.step? .read = some w' ∧ (w'.session.reader = .announcing reason ∨
      ∃ stage', w'.session.reader = .closing reason stage' ∧
        stagesLeft stage' < stagesLeft stage) := by
  cases stage with
  | done effective =>
      exact ⟨_, by simp only [step?, read, Session.readerMove, hr]; rfl, .inl rfl⟩
  | claiming | recording | publishing =>
      exact ⟨_, by simp only [step?, read, Session.readerMove, hr]; rfl,
        .inr ⟨_, rfl, stagesLeft_closeStep _ _ _ rfl⟩⟩

/-- A reader that closes the session comes to report the end by its own steps. -/
theorem exists_announcing {reason : Option String} {stage : ClosingStage}
    (hr : w.session.reader = .closing reason stage) :
    ∃ n w', n ≤ stagesLeft stage + 1 ∧ w.exec (List.replicate n .read) = some w' ∧
      w'.session.reader = .announcing reason := by
  induction hn : stagesLeft stage using Nat.strongRecOn generalizing w stage with
  | ind m ih =>
      obtain ⟨w', he, hannounces | ⟨stage', hr', hless⟩⟩ := exists_read_of_closing hr
      · exact ⟨1, w', by omega, foldlM_of_step he [], hannounces⟩
      · obtain ⟨n, w'', hle, hexec, hannounces⟩ := ih _ (hn ▸ hless) hr' rfl
        refine ⟨n + 1, w'', by omega, ?_, hannounces⟩
        rw [List.replicate_succ, exec, foldlM_of_step he]
        exact hexec

/-! ## Everything the reader has read -/

/-- A reader that cannot make its buffer reads nothing. -/
theorem Told.reader_of_unbegun (h : w.Told attempts)
    (hbuffer : w.session.config.hasBuffer = false) :
    w.session.reader = .starting ∨ w.session.reader = .ended := by
  obtain ⟨ends, -, hends⟩ := h
  rw [hbuffer] at hends
  cases hr : w.session.reader with
  | starting => exact .inl rfl
  | ended => exact .inr rfl
  | _ =>
      rw [hr] at hends
      cases hends.1

theorem Reached.nothing_of_unbegun (h : w.Reached) : w.session.config.hasBuffer = false →
    w.session.buffer.unread = [] ∧ w.reported = [] := by
  refine h.invariant (P := fun w => w.session.config.hasBuffer = false →
    w.session.buffer.unread = [] ∧ w.reported = []) ?_ ?_
  · rintro _ ⟨label, remote, config, now⟩ _
    obtain ⟨journal, hsession⟩ := session_start label remote config now
    rw [hsession]
    exact ⟨rfl, rfl⟩
  · rintro w w' (hw : w.Reached) ⟨e, he⟩ ih hbuffer'
    have hbuffer : w.session.config.hasBuffer = false := by
      rw [← config_of_step he]
      exact hbuffer'
    obtain ⟨attempts, htold⟩ := hw.exists_told
    have hbefore := htold.reader_of_unbegun hbuffer
    have hsame {k : Intake} (hk : w'.intake = k) (hnothing : k.unread = [] ∧ k.reported = []) :
        w'.session.buffer.unread = [] ∧ w'.reported = [] := by
      rw [← hk] at hnothing
      exact hnothing
    cases intake_of_step he with
    | aside h | deafens h | begins hr h | winds phase hp hr h | needsMore hr hd h
    | refuses phase hp hr hd h | stops phase hp cause hcause hr h => exact hsame h (ih hbuffer)
    | decodes hr hd h | receives bytes hr h | drops hr hl h | emits hr hl h =>
        rcases hbefore with hr' | hr' <;> cases hr'.symm.trans hr

/-- The reader is about to wait for bytes, or is out of its loop. -/
def AtRest (w : Run) : Prop :=
  w.session.reader = .reading ∨ w.session.reader.finished = true

private theorem reporting_of_atRest (hrest : w.AtRest) : w.session.reader.reporting = [] := by
  rcases hrest with hreading | hfinished
  · rw [hreading]
    rfl
  · cases hr : w.session.reader with
    | delivering f =>
        rw [hr] at hfinished
        cases hfinished
    | _ => rfl

/-- A reader that is out of its loop was stopped, or never began. -/
theorem Told.stop_of_finished (h : w.Told attempts)
    (hfinished : w.session.reader.finished = true) :
    w.stop ≠ none ∨ w.session.config.hasBuffer = false := by
  obtain ⟨ends, -, hends⟩ := h
  cases hr : w.session.reader with
  | closing reason stage | announcing reason =>
      rw [hr] at hends
      exact .inl hends.2.1
  | ended =>
      rw [hr] at hends
      rcases hends with ⟨hbegins, -⟩ | ⟨-, hstop, -⟩
      · exact .inr hbegins
      · exact .inl hstop
  | _ =>
      rw [hr] at hfinished
      cases hfinished

/-- At rest there is no whole frame in the buffer. -/
private theorem decode_of_atRest (h : w.Reached) (hrest : w.AtRest) :
    Frame.decode w.session.frameLimit w.session.buffer.unread = .incomplete ∨
      ∃ e, Frame.decode w.session.frameLimit w.session.buffer.unread = .failed e := by
  rcases hrest with hreading | hfinished
  · exact .inl (h.faithful.waiting hreading)
  · obtain ⟨attempts, htold⟩ := h.exists_told
    rcases htold.stop_of_finished hfinished with hstop | hbuffer
    · by_cases hrefused : ∃ e, w.stop = some (.refused e)
      · obtain ⟨e, he⟩ := hrefused
        exact .inr ⟨e, h.faithful.refused e he⟩
      · exact .inl (h.faithful.unrefused hstop fun e he => hrefused ⟨e, he⟩)
    · rw [(h.nothing_of_unbegun hbuffer).1]
      exact .inl rfl

theorem Reached.decodeAll_of_atRest (h : w.Reached) (hrest : w.AtRest) :
    ∃ failure, Frame.decodeAll w.session.frameLimit w.received =
      ⟨w.reported, failure, w.session.buffer.unread⟩ := by
  have hdecoded : Frame.decodeAll w.session.frameLimit w.received =
      (Frame.decodeAll w.session.frameLimit w.session.buffer.unread).after
        (w.reported ++ w.session.reader.reporting) := h.faithful.decoded
  rw [reporting_of_atRest hrest, List.append_nil] at hdecoded
  rw [hdecoded]
  rcases decode_of_atRest h hrest with hd | ⟨e, hd⟩
  · rw [Frame.decodeAll_of_incomplete hd]
    exact ⟨none, by simp [Frame.Decoding.after]⟩
  · rw [Frame.decodeAll_of_failed hd]
    exact ⟨some e, by simp [Frame.Decoding.after]⟩

/-- The attempts are frames, and the end of the session at most. -/
theorem ends_cases {begins : Bool} {stop : Option ReaderStop} {ends : List Attempt}
    {phase : ReaderPhase} (hends : phase.EndTold begins stop ends) :
    ends = [] ∨ begins = true ∧ ∃ reason, ends = [.ended reason true] := by
  cases phase with
  | starting => exact .inl hends
  | closing reason stage => exact .inl hends.2.2
  | announcing reason => exact .inr ⟨hends.1, reason, hends.2.2⟩
  | ended =>
      rcases hends with ⟨-, hnone⟩ | ⟨hbegins, -, hreason⟩
      · exact .inl hnone
      · exact .inr ⟨hbegins, hreason⟩
  | decoding | delivering f | reading => exact .inl hends.2

/-- The frames among the attempts are those that were decoded. -/
theorem Told.frames (h : w.Told attempts) :
    attempts.filterMap Attempt.frame? = w.reported ++ w.session.reader.reporting := by
  obtain ⟨ends, rfl, hends⟩ := h
  have hquiet : ends.filterMap Attempt.frame? = [] := by
    obtain rfl | ⟨-, reason, rfl⟩ := ends_cases hends <;> rfl
  rw [List.filterMap_append, hquiet, List.append_nil, List.filterMap_map]
  exact List.filterMap_some

/-- The reader has attempted to report what decoding at once finds in all that it has read. -/
structure Reports (w : Run) (attempts : List Attempt) : Prop where
  /-- Whenever the reader is at rest it has attempted all frames up to the first that is refused. -/
  frames : w.AtRest → attempts.filterMap Attempt.frame? =
    (Frame.decodeAll w.session.frameLimit w.received).frames
  /-- They have all been put into the channel, if somebody listens. -/
  emitted : w.AtRest → w.session.listening = true →
    w.emitted = attempts.filterMap Attempt.frame?
  /-- The events that the channel has got are those of the first attempts; as long as somebody
  listens, of all but the one that the reader holds. -/
  delivered : ∃ w₀ events rest, w₀.Begins ∧ Delivered w₀ w attempts events ∧
    attempts = events.map SessionEvent.attempt ++ rest ∧
    (w.session.listening = true → rest = w.session.reader.attempt true)
  /-- The bytes that were read are those of the frames and those still in the buffer. -/
  bytesIn : w.AtRest → w.session.traffic.bytesIn =
    (Frame.total (attempts.filterMap Attempt.frame?) + w.session.buffer.unread.length) %
      UInt64.size
  framesReceived : w.session.traffic.framesReceived =
    (attempts.filterMap Attempt.frame?).length % UInt64.size
  /-- By the time the reader has closed the session, all frames have been reported. -/
  before_closing : w.winner = some .reader →
    w.reported = (Frame.decodeAll w.session.frameLimit w.received).frames
  /-- Until it comes to the end the reader attempts nothing but frames. -/
  before_end : (∀ reason, w.session.reader ≠ .announcing reason) → w.session.reader ≠ .ended →
    attempts = (attempts.filterMap Attempt.frame?).map .message
  /-- Then it attempts the end, of a session that was closed before. -/
  announcing : ∀ reason, w.session.reader = .announcing reason → w.session.closed = true ∧
    attempts = (attempts.filterMap Attempt.frame?).map .message ++ [.ended reason true]
  /-- It attempts nothing after that. -/
  ended : w.session.reader = .ended → w.session.config.hasBuffer = true →
    w.session.closed = true ∧ ∃ reason,
      attempts = (attempts.filterMap Attempt.frame?).map .message ++ [.ended reason true]
  /-- A reader that cannot make its buffer attempts nothing at all. -/
  never : w.session.config.hasBuffer = false → attempts = []
  /-- From where it leaves its loop the reader comes to the end by its own steps. -/
  comes : ∀ reason stage, w.session.reader = .closing reason stage → ∃ n w', n ≤ 4 ∧
    w.exec (List.replicate n .read) = some w' ∧ w'.session.reader = .announcing reason

private theorem Told.before_end (h : w.Told attempts)
    (hannounces : ∀ reason, w.session.reader ≠ .announcing reason)
    (hended : w.session.reader ≠ .ended) :
    attempts = (attempts.filterMap Attempt.frame?).map .message := by
  rw [h.frames]
  obtain ⟨ends, hattempts, hends⟩ := h
  have hnone : ends = [] := by
    cases hr : w.session.reader with
    | announcing reason => exact absurd hr (hannounces reason)
    | ended => exact absurd hr hended
    | starting =>
        rw [hr] at hends
        exact hends
    | closing reason stage =>
        rw [hr] at hends
        exact hends.2.2
    | decoding | delivering f | reading =>
        rw [hr] at hends
        exact hends.2
  rw [hnone, List.append_nil] at hattempts
  exact hattempts

private theorem Told.announcing (h : w.Told attempts) {reason : Option String}
    (hr : w.session.reader = .announcing reason) :
    attempts = (attempts.filterMap Attempt.frame?).map .message ++ [.ended reason true] := by
  rw [h.frames]
  obtain ⟨ends, hattempts, hends⟩ := h
  rw [hr] at hends
  rw [← hends.2.2]
  exact hattempts

theorem Told.ended (h : w.Told attempts) (hr : w.session.reader = .ended)
    (hbuffer : w.session.config.hasBuffer = true) : w.stop ≠ none ∧ ∃ reason,
      attempts = (attempts.filterMap Attempt.frame?).map .message ++ [.ended reason true] := by
  rw [h.frames]
  obtain ⟨ends, hattempts, hends⟩ := h
  rw [hr, hbuffer] at hends
  rcases hends with ⟨hbegins, -⟩ | ⟨-, hstop, reason, rfl⟩
  · cases hbegins
  · exact ⟨hstop, reason, hattempts⟩

theorem Told.never (h : w.Told attempts) (hreached : w.Reached)
    (hbuffer : w.session.config.hasBuffer = false) : attempts = [] := by
  have hreader := h.reader_of_unbegun hbuffer
  obtain ⟨ends, hattempts, hends⟩ := h
  have hquiet : w.session.reader.reporting = [] := by
    rcases hreader with hr | hr <;> rw [hr] <;> rfl
  rw [(hreached.nothing_of_unbegun hbuffer).2, hquiet] at hattempts
  rw [hbuffer] at hends
  obtain rfl | ⟨hbegins, -⟩ := ends_cases hends
  · exact hattempts
  · cases hbegins

/-- Whatever a session reads, in whatever pieces, and however its reader comes to its end, the
reader reports faithfully. -/
theorem reader_reports_what_it_read {label : String} {remote : Option Address}
    {config : SessionConfig} {now : Duration}
    (h : Attempted (start label remote config now) w attempts) : w.Reports attempts := by
  have hreached := h.reached
  have htold := h.told
  have hcounted := hreached.counted
  have hall := htold.frames
  obtain ⟨events, hdelivered⟩ := h.exists_delivered
  obtain ⟨rest, hevents⟩ := hdelivered.of_listening
  refine ⟨fun hrest => ?_, fun hrest hlisten => ?_,
    ⟨_, events, rest, .start label remote config now, hdelivered, hevents⟩,
    fun hrest => ?_, ?_, fun hwinner => ?_,
    htold.before_end, fun reason hr => ⟨hreached.closed_of_reader (by rw [hr]; rfl),
      htold.announcing hr⟩, fun hr hbuffer => ?_, htold.never hreached, fun reason stage hr => ?_⟩
  · obtain ⟨failure, hdecoded⟩ := hreached.decodeAll_of_atRest hrest
    rw [hall, reporting_of_atRest hrest, List.append_nil, hdecoded]
  · rw [hall, reporting_of_atRest hrest, List.append_nil]
    exact hreached.faithful.listening hlisten
  · obtain ⟨failure, hdecoded⟩ := hreached.decodeAll_of_atRest hrest
    have htotal := Frame.total_decodeAll w.session.frameLimit w.received
    rw [hdecoded] at htotal
    rw [hall, reporting_of_atRest hrest, List.append_nil, htotal]
    exact hcounted.bytesIn
  · rw [hall]
    exact hcounted.framesReceived
  · obtain ⟨failure, hdecoded⟩ :=
      hreached.decodeAll_of_atRest (.inr (hreached.finished_of_winner hwinner))
    rw [hdecoded]
  · obtain ⟨hstop, hreason⟩ := htold.ended hr hbuffer
    refine ⟨hreached.closed_of_reader ?_, hreason⟩
    rw [hr]
    exact Option.isSome_iff_ne_none.2 hstop
  · obtain ⟨n, w', hle, hexec, hannounces⟩ := exists_announcing hr
    have hbound : stagesLeft stage ≤ 3 := by cases stage <;> simp [stagesLeft]
    exact ⟨n, w', by omega, hexec, hannounces⟩

/-- The steps of a session whose reader gets one frame and a part of another, and then the rest of
it and a length that no frame can have. -/
def chokingEvents : List RunEvent :=
  [.read, .read, .got [0, 0, 0, 3, 0, 1, 65, 0, 0], .read, .read, .read,
    .got [0, 2, 0, 2, 0, 0, 0, 1, 9], .read, .read, .read, .read, .read, .read, .read, .read]

/-- The session after these steps. -/
def choking : Run := (start "1" none {} default).after chokingEvents

/-- Both frames are reported, and then the end; the bad length stays in the buffer. -/
theorem choking_reports :
    choking.Reports
        [.message ⟨1, [65]⟩, .message ⟨2, []⟩,
          .ended (some "decode failed: malformed frame") true] ∧
      choking.session.reader = .ended ∧ choking.winner = some .reader ∧
      choking.emitted = [⟨1, [65]⟩, ⟨2, []⟩] ∧ choking.session.traffic.bytesIn = 18 ∧
      choking.session.buffer.unread = [0, 0, 0, 1, 9] := by
  have hexec : (start "1" none {} default).exec chokingEvents = some choking := rfl
  have hattempted : Attempted (start "1" none {} default) choking _ := Attempted.none.exec hexec
  exact ⟨reader_reports_what_it_read hattempted, rfl, rfl, rfl, rfl, rfl⟩

end Run

end PeerLink
