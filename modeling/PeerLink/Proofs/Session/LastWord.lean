import PeerLink.Proofs.Session.Faults
import PeerLink.Proofs.Session.FirstClose

/-!
# The last word of a session

When the reader has stopped, and has closed the session if nobody had, it reports the
end with a reason.  The reason is what made the reader stop.  What is left in the slot
of the last error is the reason of the closing that took effect, and that may be
another one: a write that failed, or a local close, which has none.

`Testimony` is the reader's part of a docket.  `Testimony.Effect` lists what a step
can do to it, and `Testimony.Sincere` is the invariant, phase by phase.

## Main results

* `Docket.Reached.sincere` — the reader reports what made it stop.
* `Docket.Reached.writer_claims` — the writer closes the session for its failed write.
* `Docket.end_reports_own_stop` — which closings the report of the end is true of.
-/

namespace PeerLink

/-! ## The reader's part -/

/-- The reader's part of a docket. -/
structure Testimony where
  reader : ReaderPhase
  stop : Option ReaderStop
  /-- The reasons with which the reader has claimed the closing. -/
  claims : List (Option String)
  /-- What it was told about having closed the session. -/
  answers : List Bool
  /-- The reasons with which it has reported the end. -/
  ends : List (Option String)

namespace Testimony

/-- What a step can do to the reader's part of a docket. -/
inductive Effect (k k' : Testimony) : Prop
  | aside (h : k' = k)
  | reads (phase : ReaderPhase) (hr : k.reader.finished = false)
      (hp : phase.finished = false) (h : k' = { k with reader := phase })
  /-- The reader could not begin. -/
  | fails (hr : k.reader = .starting) (h : k' = { k with reader := .ended })
  | stops (cause : ReaderStop) (hr : k.reader.finished = false)
      (h : k' = { k with
        reader := .closing cause.reason? .claiming
        stop := some cause })
  | closes {reason : Option String} {stage : ClosingStage} (stage' : ClosingStage)
      (claims : List (Option String)) (hr : k.reader = .closing reason stage)
      (hgoing : stage.answer? = none) (hclaims : ∀ r ∈ claims, r = reason)
      (h : k' = { k with
        reader := .closing reason stage'
        claims := k.claims ++ claims
        answers := k.answers ++ stage'.answer?.toList })
  | closed {reason : Option String} {effective : Bool}
      (hr : k.reader = .closing reason (.done effective))
      (h : k' = { k with reader := .announcing reason })
  /-- Nobody receives the report. -/
  | leaves {reason : Option String} (hr : k.reader = .announcing reason)
      (h : k' = { k with reader := .ended })
  | announces {reason : Option String} (hr : k.reader = .announcing reason)
      (h : k' = { k with reader := .ended, ends := k.ends ++ [reason] })

/-- The reason is what made the reader stop. -/
def Tells (k : Testimony) (reason : Option String) : Prop :=
  ∃ cause, k.stop = some cause ∧ reason = cause.reason?

/-- What the reader's phase tells about the rest. -/
def Sincere (k : Testimony) : Prop :=
  match k.reader with
  | .closing reason stage =>
    k.Tells reason ∧ (∀ r ∈ k.claims, r = reason) ∧ k.answers = stage.answer?.toList ∧
      k.ends = []
  | .announcing reason =>
    k.Tells reason ∧ (∀ r ∈ k.claims, r = reason) ∧ (∃ effective, k.answers = [effective]) ∧
      k.ends = []
  | .ended =>
    (∀ r ∈ k.claims, k.Tells r) ∧ (k.ends = [] ∨
      ∃ reason effective, k.Tells reason ∧ k.answers = [effective] ∧ k.ends = [reason])
  | _ => k.stop = none ∧ k.claims = [] ∧ k.answers = [] ∧ k.ends = []

variable {k k' : Testimony}

/-- The row of the phases before the end. -/
theorem sincere_iff_of_unfinished (hr : k.reader.finished = false) :
    k.Sincere ↔ k.stop = none ∧ k.claims = [] ∧ k.answers = [] ∧ k.ends = [] := by
  unfold Sincere
  revert hr
  cases k.reader with
  | closing | announcing | ended => nofun
  | _ => exact fun _ => Iff.rfl

/-- The row of a phase. -/
theorem Sincere.row (h : k.Sincere) {phase : ReaderPhase} (hr : k.reader = phase) :
    Sincere { k with reader := phase } := by
  rw [← hr]
  exact h

theorem Sincere.step (h : k.Sincere) (he : k.Effect k') : k'.Sincere := by
  cases he with
  | aside hk =>
      rw [hk]
      exact h
  | reads phase hr hp hk =>
      rw [hk]
      exact (sincere_iff_of_unfinished hp).2 ((sincere_iff_of_unfinished hr).1 h)
  | fails hr hk =>
      obtain ⟨-, hclaims, -, hends⟩ := h.row hr
      rw [hk]
      refine ⟨fun r hmem => ?_, .inl hends⟩
      rw [show k.claims = [] from hclaims] at hmem
      cases hmem
  | stops cause hr hk =>
      obtain ⟨-, hclaims, hanswers, hends⟩ := (sincere_iff_of_unfinished hr).1 h
      rw [hk]
      refine ⟨⟨cause, rfl, rfl⟩, fun r hmem => ?_, hanswers, hends⟩
      rw [show k.claims = [] from hclaims] at hmem
      cases hmem
  | closes stage' claims hr hgoing hnew hk =>
      obtain ⟨htells, hclaims, hanswers, hends⟩ := h.row hr
      rw [hk]
      refine ⟨htells, fun r hmem => ?_, ?_, hends⟩
      · rcases List.mem_append.1 hmem with hold | hlater
        · exact hclaims r hold
        · exact hnew r hlater
      · rw [show k.answers = [] by rw [show k.answers = _ from hanswers, hgoing]; rfl]
        rfl
  | closed hr hk =>
      rename_i reason effective
      obtain ⟨htells, hclaims, hanswers, hends⟩ := h.row hr
      rw [hk]
      exact ⟨htells, hclaims, ⟨effective, hanswers⟩, hends⟩
  | leaves hr hk =>
      obtain ⟨htells, hclaims, -, hends⟩ := h.row hr
      rw [hk]
      exact ⟨fun r hmem => hclaims r hmem ▸ htells, .inl hends⟩
  | announces hr hk =>
      rename_i reason
      obtain ⟨htells, hclaims, ⟨effective, hanswers⟩, hends⟩ := h.row hr
      rw [hk]
      refine ⟨fun r hmem => hclaims r hmem ▸ htells, .inr ⟨reason, effective, htells, hanswers, ?_⟩⟩
      rw [show k.ends = [] from hends]
      rfl

/-- A reader that has reported the end has closed the session before, or found it
closed, and whatever it claimed and reported is what made it stop. -/
theorem Sincere.of_mem_ends (h : k.Sincere) {reported : Option String}
    (hend : reported ∈ k.ends) :
    k.ends = [reported] ∧ k.Tells reported ∧ (∃ effective, k.answers = [effective]) ∧
      ∀ r ∈ k.claims, r = reported := by
  have hended : k.ends ≠ [] := List.ne_nil_of_mem hend
  cases hr : k.reader with
  | closing reason stage => exact absurd (h.row hr).2.2.2 hended
  | announcing reason => exact absurd (h.row hr).2.2.2 hended
  | ended =>
      obtain ⟨hclaims, hnone | ⟨reason, effective, ⟨cause, hstop, hreason⟩, hanswers, hends⟩⟩ :=
        h.row hr
      · exact absurd hnone hended
      · rw [show k.ends = [reason] from hends] at hend ⊢
        obtain rfl := List.mem_singleton.1 hend
        refine ⟨rfl, ⟨cause, hstop, hreason⟩, ⟨effective, hanswers⟩, fun r hmem => ?_⟩
        obtain ⟨cause', hstop', hreason'⟩ := hclaims r hmem
        obtain rfl := Option.some.inj (hstop.symm.trans hstop')
        exact hreason'.trans hreason.symm
  | _ =>
      have hunfinished : k.reader.finished = false := by
        rw [hr]
        rfl
      exact absurd ((sincere_iff_of_unfinished hunfinished).1 h).2.2.2 hended

end Testimony

namespace Docket

variable {d d' : Docket} {e : RunEvent} {c : Closing}

/-- The reasons with which a closing has found the session open. -/
def claimsOf (d : Docket) (c : Closing) : List (Option String) :=
  d.claims.filterMap fun p => if p.1 = c then some p.2 else none

/-- What a closing has answered. -/
def answersOf (d : Docket) (c : Closing) : List Bool :=
  d.answers.filterMap fun p => if p.1 = c then some p.2 else none

/-- The reader's part of the docket. -/
def testimony (d : Docket) : Testimony where
  reader := d.run.session.reader
  stop := d.run.stop
  claims := d.claimsOf .reader
  answers := d.answersOf .reader
  ends := d.ends

theorem mem_claimsOf {reason : Option String} :
    reason ∈ d.claimsOf c ↔ (c, reason) ∈ d.claims := by
  simp [claimsOf]

theorem mem_answersOf {effective : Bool} :
    effective ∈ d.answersOf c ↔ (c, effective) ∈ d.answers := by
  simp [answersOf]

theorem ends_of_step (h : d.step? e = some d') :
    d'.ends = d.ends ++ (d'.run.session.events.drop d.run.session.events.length).filterMap
      SessionEvent.end? := by
  unfold step? at h
  split at h
  · cases h
  · rw [← Option.some.inj h]

/-- What a step adds for a closing that does not go on in it. -/
theorem others_of_step (h : d.step? e = some d')
    (hothers : ∀ a, d.run.acting? e ≠ some (c, a)) :
    d'.claimsOf c = d.claimsOf c ∧ d'.answersOf c = d.answersOf c := by
  unfold step? at h
  split at h
  · cases h
  · cases hacting : d.run.acting? e with
    | none =>
        rw [hacting] at h
        rw [← Option.some.inj h]
        exact ⟨rfl, rfl⟩
    | some p =>
        obtain ⟨c', a⟩ := p
        have hne : c' ≠ c := by
          rintro rfl
          exact hothers a hacting
        rw [hacting] at h
        rw [← Option.some.inj h]
        constructor
        · simp only [claimsOf, note, List.filterMap_append]
          split <;> simp [hne]
        · simp [answersOf, note, hne, List.filterMap_map]

/-- What a step adds for the closing that goes on in it. -/
theorem own_of_step (h : d.step? e = some d') {a : Approach}
    (hacting : d.run.acting? e = some (c, a)) :
    (∃ claims, d'.claimsOf c = d.claimsOf c ++ claims ∧ ∀ r ∈ claims, r = a.reason) ∧
      d'.answersOf c = d.answersOf c ++
        (d.run.session.closeStep a.reason c.closer.mode a.stage).1.answer?.toList := by
  unfold step? at h
  split at h
  · cases h
  · rw [hacting] at h
    rw [← Option.some.inj h]
    constructor
    · simp only [claimsOf, note, List.filterMap_append]
      refine ⟨_, rfl, ?_⟩
      split <;> simp
    · simp [answersOf, note, List.filterMap_map]

/-- Nobody but the reader goes on with its closing. -/
theorem acting_reader {a : Approach} (h : d.run.acting? e = some (.reader, a)) :
    e = .read := by
  unfold Run.acting? at h
  obtain ⟨c, hc, hgoing⟩ := Option.bind_eq_some_iff.1 h
  obtain ⟨a', -, ha⟩ := Option.map_eq_some_iff.1 hgoing
  obtain rfl : c = .reader := congrArg Prod.fst ha
  cases e <;> first | rfl | cases hc

/-- A step in which the reader's closing does not go on. -/
private theorem testimony_of_quiet (h : d.step? e = some d')
    (hquiet : ∀ a, d.run.acting? e ≠ some (.reader, a)) :
    d'.testimony = { d.testimony with
      reader := d'.run.session.reader
      stop := d'.run.stop
      ends := d.ends ++ (d'.run.session.events.drop
        d.run.session.events.length).filterMap SessionEvent.end? } := by
  obtain ⟨hclaims, hanswers⟩ := others_of_step h hquiet
  simp only [testimony, hclaims, hanswers, ends_of_step h]

private theorem testimony_of_spares (h : d.step? e = some d')
    (hspares : Run.SparesReader d.run d'.run) (htask : e.task ≠ .reader) :
    d'.testimony = d.testimony := by
  rw [testimony_of_quiet h fun a hacting => htask (acting_reader hacting ▸ rfl),
    hspares.reader, hspares.stop, List.drop_eq_nil_of_le hspares.events]
  simp [testimony]

private theorem testimony_of_answerRead {answer : ReadAnswer} {bytes : Bytes}
    {stop : Option ReaderStop} (h : d.step? e = some d')
    (hread : d.run.answerRead answer bytes stop = some d'.run) (he : e.closing? = none) :
    d.run.session.reader = .reading ∧ d'.testimony = { d.testimony with
      reader := (d.run.session.makeRoom.afterRead answer).reader
      stop := stop.or d.run.stop } := by
  obtain ⟨hr, hrun⟩ := Run.reading_of_answerRead hread
  refine ⟨hr, ?_⟩
  have hquiet : ∀ a, d.run.acting? e ≠ some (.reader, a) := by
    intro a hacting
    rw [acting_reader hacting] at he
    cases he
  rw [testimony_of_quiet h hquiet, hrun]
  cases answer <;> simp [testimony, Run.setSession, Session.afterRead, Session.makeRoom,
    Session.log]

private theorem unfinished_of_reader {phase : ReaderPhase} (hr : d.run.session.reader = phase)
    (hp : phase.finished = false) : d.testimony.reader.finished = false := by
  rw [show d.testimony.reader = phase from hr, hp]

/-- What a step of the reader changes besides the closing. -/
private theorem move_of_read (h : d.step? .read = some d') :
    ∃ s, (d.run.session.readerMove d.run.clock).outcome? = some s ∧
      d'.run.session.reader = s.reader ∧ d'.run.session.events = s.events ∧
      d'.run.stop = d.run.session.stopCause.or d.run.stop := by
  have hread : d.run.read = some d'.run := run_of_step h
  unfold Run.read at hread
  split at hread
  · cases hread
  · rename_i s hmove
    refine ⟨s, hmove, ?_⟩
    rw [← Option.some.inj hread]
    exact ⟨rfl, rfl, rfl⟩

/-- A step of the reader that is at no closing, or has been answered. -/
private theorem testimony_of_quiet_read (h : d.step? .read = some d') {s : Session}
    (hmove : (d.run.session.readerMove d.run.clock).outcome? = some s)
    {phase : ReaderPhase} (hr : d.run.session.reader = phase)
    (hover : (phase.approach?.filter fun a => a.stage.answer?.isNone) = none) :
    d'.testimony = { d.testimony with
      reader := s.reader
      stop := d.run.session.stopCause.or d.run.stop
      ends := d.ends ++ (s.events.drop d.run.session.events.length).filterMap
        SessionEvent.end? } := by
  have hquiet : ∀ a, d.run.acting? .read ≠ some (.reader, a) := by
    intro a
    simp only [Run.acting?, RunEvent.closing?, Option.bind_some, Run.approach?, hr, hover,
      Option.map_none]
    exact (Option.some_ne_none _).symm
  obtain ⟨s', hmove', hreader, hevents, hstop⟩ := move_of_read h
  obtain rfl := Option.some.inj (hmove.symm.trans hmove')
  rw [testimony_of_quiet h hquiet, hreader, hevents, hstop]

/-- A step of the reader's closing. -/
private theorem testimony_of_closing (h : d.step? .read = some d')
    {reason : Option String} {stage : ClosingStage}
    (hr : d.run.session.reader = .closing reason stage) (hgoing : stage.answer? = none) :
    d.testimony.Effect d'.testimony := by
  have happroach : d.run.approach? .reader = some ⟨reason, stage⟩ := by
    simp only [Run.approach?, hr, ReaderPhase.approach?]
  obtain ⟨⟨claims, hclaims, hreasons⟩, hanswers⟩ :=
    own_of_step h (Run.acting?_of_going rfl happroach hgoing)
  obtain ⟨s, hmove, hreader, hevents, hstop⟩ := move_of_read h
  refine .closes (d.run.session.closeStep reason .abort stage).1 claims hr hgoing hreasons ?_
  simp only [testimony, hclaims, hanswers, ends_of_step h, hreader, hevents, hstop]
  cases Session.readerGoes_of_move hmove with
  | closes hr' =>
      obtain ⟨rfl, rfl⟩ := ReaderPhase.closing.inj (hr.symm.trans hr')
      simp [Session.stopCause, hr, Closing.closer, Closer.mode]
  | closed journal hr' =>
      obtain ⟨-, rfl⟩ := ReaderPhase.closing.inj (hr.symm.trans hr')
      cases hgoing
  | _ => cases hr.symm.trans ‹_›

private theorem testimony_of_read (h : d.step? .read = some d') :
    d.testimony.Effect d'.testimony := by
  obtain ⟨s, hmove, -⟩ := move_of_read h
  cases Session.readerGoes_of_move hmove with
  | begins hr =>
      refine .reads .decoding (unfinished_of_reader hr rfl) rfl ?_
      rw [testimony_of_quiet_read h hmove hr rfl]
      simp [testimony, Session.stopCause, hr]
  | fails hr =>
      refine .fails hr ?_
      rw [testimony_of_quiet_read h hmove hr rfl]
      simp [testimony, Session.stopCause, hr]
  | needsMore hr hd =>
      refine .reads .reading (unfinished_of_reader hr rfl) rfl ?_
      rw [testimony_of_quiet_read h hmove hr rfl]
      simp [testimony, Session.stopCause, hr, hd]
  | refuses reason journal hr hd =>
      rename_i refused
      have hreader := Session.reader_of_refused hr hd hmove
      refine .stops (.refused refused) (unfinished_of_reader hr rfl) ?_
      rw [testimony_of_quiet_read h hmove hr rfl, hreader]
      simp [testimony, Session.stopCause, hr, hd]
  | decodes journal hr hd =>
      rename_i f rest
      refine .reads (.delivering f) (unfinished_of_reader hr rfl) rfl ?_
      rw [testimony_of_quiet_read h hmove hr rfl]
      simp [testimony, Session.stopCause, hr, hd]
  | drops journal hr hl =>
      refine .reads .decoding (unfinished_of_reader hr rfl) rfl ?_
      rw [testimony_of_quiet_read h hmove hr rfl]
      simp [testimony, Session.stopCause, hr]
  | emits hr hl =>
      refine .reads .decoding (unfinished_of_reader hr rfl) rfl ?_
      rw [testimony_of_quiet_read h hmove hr rfl]
      simp [testimony, Session.stopCause, hr, SessionEvent.end?]
  | told hr hm =>
      refine .stops .told (unfinished_of_reader hr rfl) ?_
      rw [testimony_of_quiet_read h hmove hr rfl]
      simp [testimony, Session.stopCause, hr, hm, ReaderStop.reason?]
  | closed journal hr =>
      refine .closed hr ?_
      rw [testimony_of_quiet_read h hmove hr rfl]
      simp [testimony, Session.stopCause, hr]
  | leaves hr hl =>
      refine .leaves hr ?_
      rw [testimony_of_quiet_read h hmove hr rfl]
      simp [testimony, Session.stopCause, hr]
  | announces hr hl =>
      refine .announces hr ?_
      rw [testimony_of_quiet_read h hmove hr rfl]
      simp [testimony, Session.stopCause, hr, SessionEvent.end?]
  | closes hr =>
      rename_i reason stage
      cases hanswer : stage.answer? with
      | none => exact testimony_of_closing h hr hanswer
      | some effective =>
          refine .aside ?_
          obtain rfl := ClosingStage.answer?_eq_some.1 hanswer
          rw [testimony_of_quiet_read h hmove hr rfl]
          simp [testimony, Session.stopCause, hr, Session.closeStep]

theorem testimony_of_step (h : d.step? e = some d') :
    d.testimony.Effect d'.testimony := by
  have hrun := run_of_step h
  by_cases htask : e.task = .reader
  · cases e with
    | read => exact testimony_of_read h
    | got bytes =>
        simp only [Run.step?] at hrun
        split at hrun
        · cases hrun
        · obtain ⟨hr, hk⟩ := testimony_of_answerRead h hrun rfl
          exact .reads .decoding (unfinished_of_reader hr rfl) rfl hk
    | atEnd =>
        obtain ⟨hr, hk⟩ := testimony_of_answerRead h hrun rfl
        exact .stops .atEnd (unfinished_of_reader hr rfl) hk
    | failRead fault =>
        obtain ⟨hr, hk⟩ := testimony_of_answerRead h hrun rfl
        exact .stops (.failed fault) (unfinished_of_reader hr rfl) hk
    | _ => cases htask
  · exact .aside (testimony_of_spares h ((Run.spares_of_step hrun).1 htask) htask)

theorem Reached.sincere (h : d.Reached) : d.testimony.Sincere := by
  obtain ⟨_, ⟨label, remote, config, now⟩, hs⟩ := h
  induction hs with
  | refl =>
      obtain ⟨journal, hsession⟩ := Run.session_start label remote config now
      have hr : (Docket.start label remote config now).testimony.reader = .starting := by
        simp only [testimony, Docket.start, hsession]
      refine (Testimony.sincere_iff_of_unfinished ?_).2 ⟨rfl, rfl, rfl, rfl⟩
      rw [hr]
      rfl
  | tail _ he ih =>
      obtain ⟨e, -, he⟩ := leads_sparing.1 he
      exact ih.step (testimony_of_step he)

/-- A writer that has claimed the closing did so for its failed write. -/
theorem Reached.writer_claims (h : d.Reached) {reason : Option String}
    (hclaim : (.writer, reason) ∈ d.claims) :
    ∃ b, d.run.broken = some b ∧ reason = some b.reason := by
  obtain ⟨_, ⟨label, remote, config, now⟩, hs⟩ := h
  induction hs with
  | refl => cases hclaim
  | tail hs he ih =>
      rename_i d₁ d₂
      obtain ⟨e, -, he⟩ := leads_sparing.1 he
      have hreached : d₁.run.Reached := Reached.run ⟨_, .start label remote config now, hs⟩
      have hold : (.writer, reason) ∈ d₁.claims →
          ∃ b, d₂.run.broken = some b ∧ reason = some b.reason := by
        intro hmem
        obtain ⟨b, hb, hreason⟩ := ih hmem
        exact ⟨b, hreached.broken_step (run_of_step he) hb, hreason⟩
      cases effect_of_step he with
      | claims hadvance hopen hd =>
          rw [hd] at hclaim
          rcases List.mem_append.1 hclaim with hmem | hnew
          · exact hold hmem
          · cases List.mem_singleton.1 hnew
            have hbefore := hadvance.before
            simp only [Run.approach?] at hbefore
            cases hw : d₁.run.session.writer with
            | breaking text flushed stage =>
                rw [hw] at hbefore
                cases hbefore
                obtain ⟨b, hb, rfl⟩ := hreached.blames _ _ _ hw
                exact ⟨b, hreached.broken_step (run_of_step he) hb, rfl⟩
            | _ =>
                rw [hw] at hbefore
                cases hbefore
      | aside haside hd | yields hadvance hclosed hd | records hadvance hd
      | announces hadvance hd =>
          rw [hd] at hclaim
          exact hold hclaim

/-! ## The report and the last error -/

section Progress

variable {reason : Option String} {stage : ClosingStage} {records : List String}
  {modes : List Mode} {answers : List (Closing × Bool)}

theorem Progress.head?_records (h : Progress c reason stage records modes answers) :
    records.head? = none ∨ records.head? = reason := by
  cases h with
  | recording => exact .inl rfl
  | publishing | done => cases reason <;> exact .inr rfl

theorem Progress.modes_ne_nil (h : Progress c reason stage records modes answers)
    (hanswered : answers ≠ []) : modes ≠ [] := by
  cases h with
  | done => nofun
  | _ => exact absurd rfl hanswered

end Progress

section Won

variable {reason : Option String} {stage : ClosingStage}

theorem Won.lastError?_eq_head? (h : d.Won c reason stage) :
    d.run.session.lastError? = d.records.head? := by
  simp only [Session.lastError?, Slots.get?, h.lastError]
  cases d.records <;> rfl

/-- What a winner leaves in the slot of the last error is its reason. -/
theorem Won.lastError?_eq (h : d.Won c reason stage) :
    d.run.session.lastError? = none ∨ d.run.session.lastError? = reason := by
  rw [h.lastError?_eq_head?]
  exact h.progress.head?_records

/-- It is there when the winner has announced its mode. -/
theorem Won.lastError?_of_announced (h : d.Won c reason stage) (hannounced : d.announced ≠ []) :
    d.run.session.lastError? = reason := by
  rw [h.lastError?_eq_head?, (h.progress.of_announced hannounced).1]
  cases reason <;> rfl

theorem Won.announced_of_mode (h : d.Won c reason stage)
    (hmode : d.run.session.mode ≠ .running) : d.announced ≠ [] := by
  intro hnone
  rw [h.mode, hnone] at hmode
  exact hmode rfl

/-- A winner that has been answered has announced its mode. -/
theorem Won.announced_of_answered (h : d.Won c reason stage) {effective : Bool}
    (hanswered : (c, effective) ∈ d.answers) : d.announced ≠ [] := by
  obtain rfl : effective = true := (h.losers c effective hanswered).2 rfl
  exact h.progress.modes_ne_nil (List.ne_nil_of_mem (List.mem_filter.2 ⟨hanswered, rfl⟩))

end Won

/-- What the report of the end is worth, by the closing that took effect. -/
inductive Verdict (d : Docket) (reported : Option String) (cause : ReaderStop) :
    Closing → Option String → Prop
  /-- The reader reports what it closed the session for. -/
  | reader {text : String} (hreported : reported = some text)
      (hlast : d.run.session.lastError? = some text) :
      Verdict d reported cause .reader (some text)
  /-- A write had failed, and the report does not say so. -/
  | writer {b : BrokenWrite} (hbroken : d.run.broken = some b)
      (hreported : reported ≠ some b.reason)
      (hlast : d.run.session.lastError? = none ∨ d.run.session.lastError? = some b.reason)
      (htold : cause = .told → d.run.session.lastError? = some b.reason) :
      Verdict d reported cause .writer (some b.reason)
  /-- Nothing had failed when a local close took effect. -/
  | call (i : Nat) (hlast : d.run.session.lastError? = none) :
      Verdict d reported cause (.call i) none

/-- The report of the end is true: it has no reason exactly if a local close took
effect, and the reason that it has otherwise is the last error. -/
def Truthful (d : Docket) (reported : Option String) : Prop :=
  ∃ c reason, d.claims = [(c, reason)] ∧ (reported = none ↔ c.closer = .caller) ∧
    (reported ≠ none → d.run.session.lastError? = reported)

theorem Verdict.truthful_iff {reported reason : Option String} {cause : ReaderStop}
    (h : d.Verdict reported cause c reason) (hclaims : d.claims = [(c, reason)])
    (hreported : reported = cause.reason?) :
    d.Truthful reported ↔ c = .reader ∨ c.closer = .caller ∧ cause = .told := by
  -- the docket has one winner, so a truthful report is about this one
  have hwinner : d.Truthful reported ↔ (reported = none ↔ c.closer = .caller) ∧
      (reported ≠ none → d.run.session.lastError? = reported) := by
    unfold Truthful
    rw [hclaims]
    constructor
    · rintro ⟨c', reason', hsame, htrue⟩
      cases List.singleton_inj.1 hsame
      exact htrue
    · exact fun htrue => ⟨c, reason, rfl, htrue⟩
  rw [hwinner]
  cases h with
  | reader hsome hlast =>
      rw [hsome, hlast]
      simp [Closing.closer]
  | writer hbroken hne hlast htold =>
      simp only [Closing.closer, reduceCtorEq, iff_false, false_and, or_false, not_and]
      intro hsome hsame
      rw [hsame hsome] at hlast
      exact hlast.elim hsome hne
  | call i hlast =>
      have hnone : reported = none ↔ cause = .told := hreported ▸ ReaderStop.reason?_eq_none
      simp [Closing.closer, hlast, hnone, eq_comm]

/-- The end is reported once, with what made the reader stop.  This is why the session
was closed, and what is in the slot of the last error, if the reader closed it.  After
a local close it is right that the report has no reason, but it has none only if the
reader was told to stop.  If a failed write closed the session the report is wrong: a
reader that was told to stop gives no reason while the last error has one, and any
other reader gives another. -/
theorem end_reports_own_stop (h : d.Reached) {reported : Option String}
    (hend : reported ∈ d.ends) :
    d.ends = [reported] ∧ ∃ cause c reason, d.run.stop = some cause ∧
      reported = cause.reason? ∧ d.claims = [(c, reason)] ∧
      d.Verdict reported cause c reason ∧
      (d.Truthful reported ↔ c = .reader ∨ c.closer = .caller ∧ cause = .told) := by
  obtain ⟨hends, ⟨cause, hstop, hreported⟩, ⟨effective, hanswers⟩, hclaims⟩ :=
    h.sincere.of_mem_ends hend
  have hanswered : (.reader, effective) ∈ d.answers := by
    rw [← mem_answersOf, show d.answersOf .reader = [effective] from hanswers]
    exact List.mem_singleton_self _
  rcases h.ordered with hunclaimed | ⟨c, reason, stage, hwon⟩
  · rw [hunclaimed.answers] at hanswered
    cases hanswered
  have hmem : (c, reason) ∈ d.claims := by
    rw [hwon.claims]
    exact List.mem_singleton_self _
  have hverdict : d.Verdict reported cause c reason := by
    cases c with
    | call i =>
        obtain rfl := hwon.faults.2 rfl
        exact .call i (hwon.lastError?_eq.elim id id)
    | writer =>
        obtain ⟨b, hbroken, rfl⟩ := h.writer_claims hmem
        refine .writer hbroken (hreported ▸ cause.reason?_ne b) hwon.lastError?_eq ?_
        rintro rfl
        exact hwon.lastError?_of_announced
          (hwon.announced_of_mode (h.run.mode_of_told hstop))
    | reader =>
        obtain rfl := hclaims reason (mem_claimsOf.2 hmem)
        have hlast :=
          hwon.lastError?_of_announced (hwon.announced_of_answered hanswered)
        cases hreason : reason with
        | none => cases hwon.faults.1 hreason
        | some text => exact .reader rfl (hreason ▸ hlast)
  exact ⟨hends, cause, c, reason, hstop, hreported, hwon.claims, hverdict,
    hverdict.truthful_iff hwon.claims hreported⟩

/-- The stream comes to its end, and the reader closes the session. -/
def parted : Docket :=
  (start "1" none {} default).after
    [.read, .read, .atEnd, .read, .read, .read, .read, .read]

theorem parted_is_truthful :
    parted.Reached ∧ parted.ends = [some "connection closed by peer"] ∧
      parted.Truthful (some "connection closed by peer") := by
  have hreached : parted.Reached := (Reached.start _ _ _ _).after _
  have hwinner : parted.claims = [(.reader, some "connection closed by peer")] := rfl
  have hend : some "connection closed by peer" ∈ parted.ends := List.mem_singleton_self _
  obtain ⟨hends, cause, c, reason, -, -, hclaims, -, htruthful⟩ :=
    end_reports_own_stop hreached hend
  rw [hwinner] at hclaims
  cases hclaims
  exact ⟨hreached, hends, htruthful.2 (.inl rfl)⟩

/-- A write fails while the reader waits for bytes.  The writer closes the session for
it, and the reader is told to stop. -/
def silenced : Docket :=
  (start "1" none {} default).after
    [.read, .read, .send (.buffer [1, 2]), .look 0, .enqueue 0, .write,
      .failWrite (.bare .brokenPipe), .write, .write, .write, .write,
      .read, .read, .read, .read]

/-- The failed write is the last error, and the report of the end has no reason. -/
theorem failed_write_is_not_reported :
    silenced.Reached ∧ silenced.ends = [none] ∧
      silenced.run.session.lastError? = some "write failed: broken pipe" ∧
      ¬ silenced.Truthful none := by
  refine ⟨(Reached.start _ _ _ _).after _, rfl, rfl, ?_⟩
  rintro ⟨c, reason, hclaims, hnone, -⟩
  have hwinner : silenced.claims = [(.writer, some "write failed: broken pipe")] := rfl
  rw [hwinner] at hclaims
  cases hclaims
  exact nomatch hnone.1 rfl

end Docket

end PeerLink
