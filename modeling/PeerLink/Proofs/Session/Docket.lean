import PeerLink.Proofs.Session.Closing
import PeerLink.Proofs.Session.Reading

/-!
# A docket of the closings of a session

A session may be closed by any number of local closes, by its writer and by its
reader.  A `Docket` follows a run and keeps a list of what they all do: which of them
found the session open, which reasons were left in the slot of the last error, which
modes were announced to the tasks, what each of them has answered, and the reasons
with which the end of the session was reported.

The docket looks at each step from outside.  Whose closing goes on in a step is read
off the phase of the task, or off the stage of the call, that the step belongs to.

A docket is of a session whose slot of the last error nobody else writes: steps that
attach a value there, or remove it, are not among `Docket.Steps`.

## Main results

* `Run.closingStep_of_step` — a step leaves the closing of the session alone, or one
  closing does its next step.
-/

namespace PeerLink

/-- A closing of a session: a local close, by its number, or that of a task. -/
inductive Closing
  | call (i : Nat)
  | writer
  | reader
  deriving DecidableEq, Repr

/-- Who does the closing. -/
def Closing.closer : Closing → Closer
  | .call _ => .caller
  | .writer => .writer
  | .reader => .reader

/-- How far a closing has come, and the reason it brings. -/
structure Approach where
  reason : Option String
  stage : ClosingStage
  deriving DecidableEq, Repr

/-- What a closing has answered. -/
def ClosingStage.answer? : ClosingStage → Option Bool
  | .done effective => some effective
  | _ => none

theorem ClosingStage.answer?_eq_some {stage : ClosingStage} {effective : Bool} :
    stage.answer? = some effective ↔ stage = .done effective := by
  cases stage <;> simp [answer?]

/-- The closing that the writer is at. -/
def WriterPhase.approach? : WriterPhase → Option Approach
  | .breaking reason _ stage => some ⟨some reason, stage⟩
  | _ => none

/-- The closing that the reader is at. -/
def ReaderPhase.approach? : ReaderPhase → Option Approach
  | .closing reason stage => some ⟨reason, stage⟩
  | _ => none

/-- The writer has begun to close the session, or will not do so any more. -/
def WriterPhase.begun : WriterPhase → Bool
  | .breaking .. | .ended => true
  | .stopping healthy | .choosing healthy => !healthy
  | .drained healthy _ | .rejecting healthy _ => !healthy
  | _ => false

/-- The reason with which the end of a session is reported. -/
def SessionEvent.end? : SessionEvent → Option (Option String)
  | .message .. => none
  | .closed reason => some reason

namespace RunEvent

/-- The closing that may go on in a step. -/
def closing? : RunEvent → Option Closing
  | .closeStep i => some (.call i)
  | .write => some .writer
  | .read => some .reader
  | _ => none

/-- Nobody writes the slot of the last error from outside. -/
def sparesError : RunEvent → Bool
  | .outside (.attach .lastError _) | .outside (.remove .lastError) => false
  | _ => true

end RunEvent

namespace Run

/-- How far a closing has come, unless it has not begun or is forgotten. -/
def approach? (w : Run) : Closing → Option Approach
  | .call i => w.closes[i]?.map fun stage => ⟨none, stage⟩
  | .writer => w.session.writer.approach?
  | .reader => w.session.reader.approach?

/-- A closing has begun, or will not any more. -/
def Begun (w : Run) : Closing → Prop
  | .call i => i < w.closes.length
  | .writer => w.session.writer.begun = true
  | .reader => w.session.reader.finished = true

/-- The closing that goes on in a step, and from where. -/
def acting? (w : Run) (e : RunEvent) : Option (Closing × Approach) :=
  e.closing?.bind fun c =>
    ((w.approach? c).filter fun a => a.stage.answer?.isNone).map fun a => (c, a)

end Run

/-! ## Steps and closings -/

/-- A task that is in phase `p'` after a step in phase `p`, and has not gone on with a
closing: if it is at one it was there before, or it begins it now. -/
structure WriterPhase.Follows (p p' : WriterPhase) : Prop where
  approach : ∀ a, p'.approach? = some a →
    p.approach? = some a ∨ p.begun = false ∧ a.stage = .claiming
  begun : p.begun = true → p'.begun = true

/-- The same of the reader.  It begins a closing without a reason only when it was told
that the session is to end. -/
structure ReaderPhase.Follows (mode : Mode) (p p' : ReaderPhase) : Prop where
  approach : ∀ a, p'.approach? = some a →
    p.approach? = some a ∨ p.finished = false ∧ a.stage = .claiming ∧
      (a.reason = none → mode ≠ .running)
  finished : p.finished = true → p'.finished = true

theorem WriterPhase.Follows.refl {p : WriterPhase} : p.Follows p :=
  ⟨fun _ ha => .inl ha, id⟩

theorem ReaderPhase.Follows.refl {mode : Mode} {p : ReaderPhase} : p.Follows mode p :=
  ⟨fun _ ha => .inl ha, id⟩

/-- A writer that is at no closing afterwards. -/
theorem WriterPhase.Follows.of_none {p p' : WriterPhase} (ha : p'.approach? = none)
    (hb : p.begun = true → p'.begun = true) : p.Follows p' := by
  refine ⟨fun a h => ?_, hb⟩
  rw [ha] at h
  cases h

theorem WriterPhase.Follows.of_not_begun {p p' : WriterPhase} (ha : p'.approach? = none)
    (hb : p.begun = false) : p.Follows p' := by
  refine .of_none ha fun h => ?_
  rw [hb] at h
  cases h

theorem WriterPhase.Follows.begins {p : WriterPhase} {reason : String} {flushed : Option Nat}
    (hb : p.begun = false) : p.Follows (.breaking reason flushed .claiming) :=
  ⟨fun a ha => .inr ⟨hb, by cases ha; rfl⟩, fun _ => rfl⟩

/-- A reader that is at no closing afterwards. -/
theorem ReaderPhase.Follows.of_none {mode : Mode} {p p' : ReaderPhase}
    (ha : p'.approach? = none) (hf : p.finished = true → p'.finished = true) :
    p.Follows mode p' := by
  refine ⟨fun a h => ?_, hf⟩
  rw [ha] at h
  cases h

theorem ReaderPhase.Follows.of_not_finished {mode : Mode} {p p' : ReaderPhase}
    (ha : p'.approach? = none) (hf : p.finished = false) : p.Follows mode p' := by
  refine .of_none ha fun h => ?_
  rw [hf] at h
  cases h

theorem ReaderPhase.Follows.begins {mode : Mode} {p : ReaderPhase} {reason : Option String}
    (hf : p.finished = false) (hreason : reason ≠ none ∨ mode ≠ .running) :
    p.Follows mode (.closing reason .claiming) := by
  refine ⟨fun a ha => .inr ⟨hf, ?_⟩, fun _ => rfl⟩
  cases ha
  exact ⟨rfl, fun hnone => hreason.resolve_left (absurd hnone)⟩

namespace Run

variable {w w' : Run} {e : RunEvent}

/-- A step in which no closing goes on. -/
structure Aside (w : Run) (e : RunEvent) (w' : Run) : Prop where
  closed : w'.session.closed = w.session.closed
  mode : w'.session.mode = w.session.mode
  lastError : e.sparesError = true →
    w'.session.slots.lastError = w.session.slots.lastError
  closes : ∀ i stage, w'.closes[i]? = some stage →
    w.closes[i]? = some stage ∨ w.closes.length ≤ i ∧ stage = .claiming
  length : w.closes.length ≤ w'.closes.length
  writer : w.session.writer.Follows w'.session.writer
  reader : w.session.reader.Follows w.session.mode w'.session.reader

/-- A closing that a step finds somewhere was there before, or begins. -/
theorem Aside.approach (h : Aside w e w') {c : Closing} {a : Approach}
    (ha : w'.approach? c = some a) :
    w.approach? c = some a ∨ ¬ w.Begun c ∧ a.stage = .claiming ∧
      (c = .reader → a.reason = none → w.session.mode ≠ .running) := by
  cases c with
  | call i =>
      obtain ⟨stage, hi, rfl⟩ := Option.map_eq_some_iff.1 ha
      rcases h.closes i stage hi with hold | ⟨hlen, hnew⟩
      · left
        simp only [approach?, hold, Option.map_some]
      · exact .inr ⟨Nat.not_lt.2 hlen, hnew, nofun⟩
  | writer =>
      rcases h.writer.approach a ha with hold | ⟨hb, hnew⟩
      · exact .inl hold
      · exact .inr ⟨by simp [Begun, hb], hnew, nofun⟩
  | reader =>
      rcases h.reader.approach a ha with hold | ⟨hb, hnew, hmode⟩
      · exact .inl hold
      · exact .inr ⟨by simp [Begun, hb], hnew, fun _ => hmode⟩

theorem Aside.begun (h : Aside w e w') {c : Closing} (hb : w.Begun c) : w'.Begun c := by
  cases c with
  | call i => exact Nat.lt_of_lt_of_le hb h.length
  | writer => exact h.writer.begun hb
  | reader => exact h.reader.finished hb

/-- A step in which closing `c` goes on from `a`. -/
structure Advance (w w' : Run) (c : Closing) (a : Approach) : Prop where
  before : w.approach? c = some a
  going : a.stage.answer? = none
  after : w'.approach? c =
    some ⟨a.reason, (w.session.closeStep a.reason c.closer.mode a.stage).1⟩
  others : ∀ c', c' ≠ c → w'.approach? c' = w.approach? c'
  begun : ∀ c', w.Begun c' → w'.Begun c'
  closed : w'.session.closed =
    (w.session.closeStep a.reason c.closer.mode a.stage).2.closed
  mode : w'.session.mode = (w.session.closeStep a.reason c.closer.mode a.stage).2.mode
  slots : w'.session.slots = (w.session.closeStep a.reason c.closer.mode a.stage).2.slots

/-- What is at a closing has begun it. -/
theorem begun_of_approach {c : Closing} {a : Approach} (h : w.approach? c = some a) :
    w.Begun c := by
  cases c with
  | call i =>
      obtain ⟨stage, hi, -⟩ := Option.map_eq_some_iff.1 h
      exact (List.getElem?_eq_some_iff.1 hi).1
  | writer =>
      simp only [approach?] at h
      unfold Begun
      cases hw : w.session.writer with
      | breaking reason flushed stage => rfl
      | _ =>
          rw [hw] at h
          cases h
  | reader =>
      simp only [approach?] at h
      unfold Begun
      cases hr : w.session.reader with
      | closing reason stage => rfl
      | _ =>
          rw [hr] at h
          cases h

/-- A local close brings no reason, and the writer brings one. -/
theorem reason_of_approach {c : Closing} {a : Approach} (h : w.approach? c = some a) :
    (c.closer = .caller → a.reason = none) ∧ (c.closer = .writer → a.reason ≠ none) := by
  cases c with
  | call i =>
      obtain ⟨stage, -, rfl⟩ := Option.map_eq_some_iff.1 h
      exact ⟨fun _ => rfl, nofun⟩
  | writer =>
      refine ⟨nofun, fun _ => ?_⟩
      simp only [approach?] at h
      cases hw : w.session.writer with
      | breaking reason flushed stage =>
          rw [hw] at h
          cases h
          nofun
      | _ =>
          rw [hw] at h
          cases h
  | reader => exact ⟨nofun, nofun⟩

/-- A step that leaves the flag, the mode and the calls alone. -/
private theorem aside_of (hclosed : w'.session.closed = w.session.closed)
    (hmode : w'.session.mode = w.session.mode)
    (hslots : w'.session.slots = w.session.slots) (hcloses : w'.closes = w.closes)
    (hwriter : w.session.writer.Follows w'.session.writer)
    (hreader : w.session.reader.Follows w.session.mode w'.session.reader) :
    Aside w e w' where
  closed := hclosed
  mode := hmode
  lastError _ := congrArg Slots.lastError hslots
  closes _ _ h := .inl (hcloses ▸ h)
  length := Nat.le_of_eq (congrArg List.length hcloses.symm)
  writer := hwriter
  reader := hreader

private theorem aside_look {i : Nat} (h : w.look i = some w') :
    Aside w (.look i) w' := by
  obtain ⟨p, -, ⟨e, journal, -, rfl⟩ | ⟨bytes, -, rfl⟩ | rfl⟩ := looking_of_look h
  · exact aside_of rfl rfl rfl rfl .refl .refl
  · exact aside_of rfl rfl rfl rfl .refl .refl
  · exact aside_of rfl rfl rfl rfl .refl .refl

private theorem aside_enqueue {i : Nat} (h : w.enqueue i = some w') :
    Aside w (.enqueue i) w' := by
  obtain ⟨p, bytes, -, ⟨-, rfl⟩ | ⟨-, rfl⟩⟩ := queueing_of_enqueue h
  · exact aside_of rfl rfl rfl rfl .refl .refl
  · exact aside_of rfl rfl rfl rfl .refl .refl

private theorem aside_close :
    Aside w .close { w with closes := w.closes ++ [.claiming] } where
  closed := rfl
  mode := rfl
  lastError _ := rfl
  closes i stage h := by
    rcases Nat.lt_or_ge i w.closes.length with hlt | hge
    · left
      rwa [List.getElem?_append_left hlt] at h
    · right
      rw [List.getElem?_append_right hge] at h
      exact ⟨hge, List.mem_singleton.1 (List.mem_of_getElem? h)⟩
  length := by simp
  writer := .refl
  reader := .refl

private theorem aside_answerRead {answer : ReadAnswer} {bytes : Bytes}
    {stop : Option ReaderStop} (h : w.answerRead answer bytes stop = some w') :
    Aside w e w' := by
  obtain ⟨hr, rfl⟩ := reading_of_answerRead h
  have hfollows : w.session.reader.Follows w.session.mode
      (w.session.makeRoom.afterRead answer).reader := by
    rw [hr]
    cases answer with
    | received bytes => exact .of_not_finished rfl rfl
    | atEnd => exact .begins rfl (.inl (Option.some_ne_none _))
    | blocked =>
        rw [show (w.session.makeRoom.afterRead .blocked).reader = .reading from hr]
        exact .refl
    | failed fault => exact .begins rfl (.inl (Option.some_ne_none _))
  cases answer <;> exact aside_of rfl rfl rfl rfl .refl hfollows

private theorem aside_outside (call : OutsideCall) :
    Aside w (.outside call) (w.setSession .caller (w.session.outside call)) := by
  cases call with
  | attach key value =>
      refine ⟨rfl, rfl, fun hspare => ?_, fun _ _ h => .inl h, Nat.le_refl _, .refl, .refl⟩
      cases key with
      | client => rfl
      | lastError => cases hspare
  | remove key =>
      refine ⟨rfl, rfl, fun hspare => ?_, fun _ _ h => .inl h, Nat.le_refl _, .refl, .refl⟩
      cases key with
      | client => rfl
      | lastError => cases hspare
  | _ => exact aside_of rfl rfl rfl rfl .refl .refl

/-- A closing that is over stays as it is. -/
private theorem closeStep_over (s : Session) (reason : Option String) (mode : Mode)
    {stage : ClosingStage} {effective : Bool} (h : stage.answer? = some effective) :
    s.closeStep reason mode stage = (stage, s) := by
  rw [ClosingStage.answer?_eq_some.1 h]
  rfl

section Acting

variable {c : Closing} {a : Approach}

theorem acting?_of_none (he : e.closing? = some c) (ha : w.approach? c = none) :
    w.acting? e = none := by
  unfold acting?
  rw [he, Option.bind_some, ha]
  rfl

theorem acting?_of_over (he : e.closing? = some c) (ha : w.approach? c = some a)
    {effective : Bool} (hover : a.stage.answer? = some effective) : w.acting? e = none := by
  unfold acting?
  rw [he, Option.bind_some, ha]
  simp [Option.filter, hover]

theorem acting?_of_going (he : e.closing? = some c) (ha : w.approach? c = some a)
    (hgoing : a.stage.answer? = none) : w.acting? e = some (c, a) := by
  unfold acting?
  rw [he, Option.bind_some, ha]
  simp [Option.filter, hgoing]

end Acting

/-- What a step does to the closings: none of them goes on, or one does. -/
def ClosingStep (w w' : Run) (e : RunEvent) : Prop :=
  w.acting? e = none ∧ Aside w e w' ∨ ∃ c a, w.acting? e = some (c, a) ∧ Advance w w' c a

private theorem closingStep_closeStep {i : Nat} (h : w.closeStep i = some w') :
    ClosingStep w w' (.closeStep i) := by
  obtain ⟨stage, hi, rfl⟩ := stage_of_closeStep h
  have hbefore : w.approach? (.call i) = some ⟨none, stage⟩ := by
    simp only [approach?, hi, Option.map_some]
  have hlt : i < w.closes.length := (List.getElem?_eq_some_iff.1 hi).1
  cases hanswer : stage.answer? with
  | some effective =>
      have hsame : w.closes.set i stage = w.closes := by
        rw [List.getElem?_eq_getElem hlt] at hi
        rw [← Option.some.inj hi, List.set_getElem_self]
      rw [closeStep_over _ _ _ hanswer]
      exact .inl ⟨acting?_of_over rfl hbefore hanswer, aside_of rfl rfl rfl hsame .refl .refl⟩
  | none =>
      refine .inr ⟨.call i, ⟨none, stage⟩, acting?_of_going rfl hbefore hanswer, hbefore,
        hanswer, ?_, ?_, ?_, rfl, rfl, rfl⟩
      · simp only [approach?, List.getElem?_set_self hlt, Option.map_some]
        rfl
      · intro c' hc'
        cases c' with
        | call j =>
            have hne : i ≠ j := fun hij => hc' (hij ▸ rfl)
            simp only [approach?, List.getElem?_set_ne hne]
        | writer => simp [approach?, setSession]
        | reader => simp [approach?, setSession]
      · intro c' hc'
        cases c' with
        | call j => simpa [Begun] using hc'
        | writer => simpa [Begun, setSession] using hc'
        | reader => simpa [Begun, setSession] using hc'

private theorem acting?_of_writer {phase : WriterPhase} (hw : w.session.writer = phase)
    (hp : phase.approach? = none) : w.acting? .write = none :=
  acting?_of_none rfl (by rw [approach?, hw, hp])

private theorem acting?_of_reader {phase : ReaderPhase} (hr : w.session.reader = phase)
    (hp : phase.approach? = none) : w.acting? .read = none :=
  acting?_of_none rfl (by rw [approach?, hr, hp])

private theorem closingStep_write (h : w.write = some w') : ClosingStep w w' .write := by
  obtain ⟨s, firing, hgoes, rfl⟩ := writerGoes_of_write h
  cases hgoes with
  | closes hw =>
      rename_i reason flushed stage
      have hbefore : w.approach? .writer = some ⟨some reason, stage⟩ := by
        simp only [approach?, hw, WriterPhase.approach?]
      cases hanswer : stage.answer? with
      | some effective =>
          rw [closeStep_over _ _ _ hanswer]
          refine .inl ⟨acting?_of_over rfl hbefore hanswer, aside_of rfl rfl rfl rfl ?_ .refl⟩
          rw [hw]
          exact .refl
      | none =>
          refine .inr ⟨.writer, ⟨some reason, stage⟩, acting?_of_going rfl hbefore hanswer,
            hbefore, hanswer, rfl, ?_, ?_, rfl, rfl, rfl⟩
          · intro c' hc'
            cases c' with
            | call j => rfl
            | writer => exact absurd rfl hc'
            | reader => simp [approach?, setSession]
          · intro c' hc'
            cases c' with
            | call j => exact hc'
            | writer => rfl
            | reader => simpa [Begun, setSession] using hc'
  | closed hw =>
      rename_i reason flushed effective
      have hbefore : w.approach? .writer = some ⟨some reason, .done effective⟩ := by
        simp only [approach?, hw, WriterPhase.approach?]
      refine .inl ⟨acting?_of_over rfl hbefore rfl, aside_of rfl rfl rfl rfl ?_ .refl⟩
      cases flushed <;> exact .of_none rfl fun _ => rfl
  | reports reason hw =>
      refine .inl ⟨acting?_of_writer hw rfl, aside_of rfl rfl rfl rfl ?_ .refl⟩
      rw [hw]
      exact .begins rfl
  | completes journal hw =>
      rename_i r flushed
      refine .inl ⟨acting?_of_writer hw rfl, aside_of rfl rfl rfl rfl ?_ .refl⟩
      rw [hw]
      cases flushed <;> exact .of_not_begun rfl rfl
  | ends journal hw hq =>
      refine .inl ⟨acting?_of_writer hw rfl, aside_of rfl rfl rfl rfl ?_ .refl⟩
      exact .of_none rfl fun _ => rfl
  | wakes hw hm | takes hw hq | stops hw | drains hw hm | rejects hw hm | takesLast hw hq
  | emptied hw hq | counts journal hw | givesUp hw hq =>
      refine .inl ⟨acting?_of_writer hw rfl, aside_of rfl rfl rfl rfl ?_ .refl⟩
      rw [hw]
      exact .of_none rfl id

private theorem closingStep_read (h : w.read = some w') : ClosingStep w w' .read := by
  obtain ⟨s, hgoes, rfl⟩ := readerGoes_of_read h
  cases hgoes with
  | closes hr =>
      rename_i reason stage
      have hbefore : w.approach? .reader = some ⟨reason, stage⟩ := by
        simp only [approach?, hr, ReaderPhase.approach?]
      cases hanswer : stage.answer? with
      | some effective =>
          rw [closeStep_over _ _ _ hanswer]
          refine .inl ⟨acting?_of_over rfl hbefore hanswer, aside_of rfl rfl rfl rfl .refl ?_⟩
          rw [hr]
          exact .refl
      | none =>
          refine .inr ⟨.reader, ⟨reason, stage⟩, acting?_of_going rfl hbefore hanswer,
            hbefore, hanswer, rfl, ?_, ?_, rfl, rfl, rfl⟩
          · intro c' hc'
            cases c' with
            | call j => rfl
            | writer => simp [approach?, setSession]
            | reader => exact absurd rfl hc'
          · intro c' hc'
            cases c' with
            | call j => exact hc'
            | writer => simpa [Begun, setSession] using hc'
            | reader => rfl
  | closed journal hr =>
      rename_i reason effective
      have hbefore : w.approach? .reader = some ⟨reason, .done effective⟩ := by
        simp only [approach?, hr, ReaderPhase.approach?]
      exact .inl ⟨acting?_of_over rfl hbefore rfl,
        aside_of rfl rfl rfl rfl .refl (.of_none rfl fun _ => rfl)⟩
  | refuses reason journal hr hd =>
      refine .inl ⟨acting?_of_reader hr rfl, aside_of rfl rfl rfl rfl .refl ?_⟩
      rw [hr]
      exact .begins rfl (.inl (Option.some_ne_none _))
  | told hr hm =>
      refine .inl ⟨acting?_of_reader hr rfl, aside_of rfl rfl rfl rfl .refl ?_⟩
      rw [hr]
      exact .begins rfl (.inr hm)
  | fails hr | leaves hr hl | announces hr hl =>
      exact .inl ⟨acting?_of_reader hr rfl,
        aside_of rfl rfl rfl rfl .refl (.of_none rfl fun _ => rfl)⟩
  | begins hr | needsMore hr hd | decodes journal hr hd | drops journal hr hl | emits hr hl =>
      refine .inl ⟨acting?_of_reader hr rfl, aside_of rfl rfl rfl rfl .refl ?_⟩
      rw [hr]
      exact .of_not_finished rfl rfl

theorem closingStep_of_step (h : w.step? e = some w') :
    ClosingStep w w' e := by
  cases e with
  | send p =>
      obtain rfl := Option.some.inj h
      exact .inl ⟨rfl, aside_of rfl rfl rfl rfl .refl .refl⟩
  | look i => exact .inl ⟨rfl, aside_look h⟩
  | enqueue i => exact .inl ⟨rfl, aside_enqueue h⟩
  | close =>
      obtain rfl := Option.some.inj h
      exact .inl ⟨rfl, aside_close⟩
  | closeStep i => exact closingStep_closeStep h
  | write => exact closingStep_write h
  | take =>
      obtain ⟨r, queue, hw, -, rfl⟩ := idle_of_take h
      refine .inl ⟨rfl, aside_of rfl rfl rfl rfl ?_ .refl⟩
      rw [hw]
      exact .of_not_begun rfl rfl
  | put count =>
      obtain ⟨r, rest, flushed, hw, -, -, rfl⟩ := writing_of_put h
      refine .inl ⟨rfl, aside_of rfl rfl rfl rfl ?_ .refl⟩
      rw [hw]
      exact .of_not_begun rfl rfl
  | failWrite fault =>
      obtain ⟨r, rest, flushed, journal, hw, rfl⟩ := writing_of_failWrite h
      refine .inl ⟨rfl, aside_of rfl rfl rfl rfl ?_ .refl⟩
      rw [hw]
      exact .of_not_begun rfl rfl
  | read => exact closingStep_read h
  | got bytes =>
      simp only [step?] at h
      split at h
      · cases h
      · exact .inl ⟨rfl, aside_answerRead h⟩
  | atEnd => exact .inl ⟨rfl, aside_answerRead h⟩
  | failRead fault => exact .inl ⟨rfl, aside_answerRead h⟩
  | outside call =>
      obtain rfl := Option.some.inj h
      exact .inl ⟨rfl, aside_outside call⟩
  | tick now =>
      obtain rfl := Option.some.inj h
      exact .inl ⟨rfl, aside_of rfl rfl rfl rfl .refl .refl⟩

end Run

/-- A run, with a list of what its closings do. -/
structure Docket where
  run : Run
  /-- The closings that found the session open, each with its reason. -/
  claims : List (Closing × Option String) := []
  /-- The reasons that were left in the slot of the last error. -/
  records : List String := []
  /-- The modes that were announced to the tasks. -/
  announced : List Mode := []
  /-- What each closing has answered: whether it took effect. -/
  answers : List (Closing × Bool) := []
  /-- The reasons with which the end of the session was reported. -/
  ends : List (Option String) := []

namespace Docket

/-- Closing `c` goes on from `a`. -/
def note (d : Docket) (c : Closing) (a : Approach) : Docket :=
  let (stage, s) := d.run.session.closeStep a.reason c.closer.mode a.stage
  { d with
    claims := d.claims ++ if d.run.session.closed = s.closed then [] else [(c, a.reason)]
    records := d.records ++ if a.stage = .recording then a.reason.toList else []
    announced := d.announced ++ if a.stage = .publishing then [s.mode] else []
    answers := d.answers ++ stage.answer?.toList.map fun effective => (c, effective) }

/-- One step; nothing if the event is not possible now. -/
def step? (d : Docket) (e : RunEvent) : Option Docket :=
  match d.run.step? e with
  | none => none
  | some w =>
    let noted := match d.run.acting? e with
      | none => d
      | some (c, a) => d.note c a
    some { noted with
      run := w
      ends := d.ends ++
        (w.session.events.drop d.run.session.events.length).filterMap SessionEvent.end? }

/-- The docket after a sequence of steps; it stays as it is if one of them is not
possible, or writes the slot of the last error from outside. -/
abbrev after (d : Docket) (events : List RunEvent) : Docket :=
  stateAfter (sparing RunEvent.sparesError step?) d events

/-- From one docket to a later one, when nobody writes the slot of the last error from
outside. -/
abbrev Steps : Docket → Docket → Prop :=
  Relation.ReflTransGen (Leads (sparing RunEvent.sparesError step?))

/-- A docket at the beginning of a session. -/
def start (label : String) (remote : Option Address) (config : SessionConfig)
    (now : Duration) : Docket :=
  { run := .start label remote config now }

/-- A session begins, and nobody has closed it. -/
inductive Begins : Docket → Prop
  | start (label : String) (remote : Option Address) (config : SessionConfig)
      (now : Duration) : Begins (.start label remote config now)

/-- The docket is of a moment in the life of some session. -/
abbrev Reached (d : Docket) : Prop :=
  Reachable Begins (Leads (sparing RunEvent.sparesError step?)) d

theorem Reached.start (label : String) (remote : Option Address) (config : SessionConfig)
    (now : Duration) : (Docket.start label remote config now).Reached :=
  Reachable.start (.start label remote config now)

/-- A step of a docket is a step of its run. -/
theorem run_of_step {d d' : Docket} {e : RunEvent} (h : d.step? e = some d') :
    d.run.step? e = some d'.run := by
  unfold step? at h
  split at h
  · cases h
  · rename_i w hw
    rw [hw, ← Option.some.inj h]

theorem Reached.run {d : Docket} (h : d.Reached) : d.run.Reached := by
  obtain ⟨_, ⟨label, remote, config, now⟩, hs⟩ := h
  induction hs with
  | refl => exact .start label remote config now
  | tail _ he ih =>
      obtain ⟨e, -, he⟩ := leads_sparing.1 he
      exact ih.step (run_of_step he)

end Docket

end PeerLink
