import PeerLink.Proofs.Session.Tasks

/-!
# Who closes a session

Callers, the writer and the reader may all be closing a session at the same
time, each one step at a time.  Whoever claims the closing first is the winner.
The losers stop where they are, so from then on only the winner leaves a reason
and tells the tasks how to wind down.

`Claims` is the invariant behind this: the session is closed exactly if there
is a winner, nobody but the winner has got past claiming, and the mode is the
one the winner stands for.

## Main results

* `Run.Reached.claims` — the invariant holds of every reached run.
* `Run.Reached.winner_step`, `Run.Reached.mode_step` — the winner and the mode
  stay once they are settled.
-/

namespace PeerLink

/-- The mode that a close by somebody announces. -/
def Closer.mode : Closer → Mode
  | .caller => .drain
  | .writer | .reader => .abort

/-- A close that has claimed the closing, and found the session open. -/
def ClosingStage.claimed : ClosingStage → Bool
  | .recording | .publishing | .done true => true
  | .claiming | .done false => false

/-- The writer has claimed the closing. -/
def WriterPhase.claimed : WriterPhase → Bool
  | .breaking _ _ stage => stage.claimed
  | _ => false

/-- The reader has claimed the closing. -/
def ReaderPhase.claimed : ReaderPhase → Bool
  | .closing _ stage => stage.claimed
  | _ => false

namespace Run

/-- Somebody is past claiming the closing. -/
def Claimed (w : Run) : Closer → Prop
  | .caller => ∃ stage ∈ w.closes, stage.claimed = true
  | .writer => w.session.writer.claimed = true
  | .reader => w.session.reader.claimed = true

/-- Only the winner gets past claiming, and the mode is the winner's. -/
structure Claims (w : Run) : Prop where
  closed_iff : w.session.closed = true ↔ w.winner ≠ none
  winner_of_claimed : ∀ who, w.Claimed who → w.winner = some who
  mode_eq : w.session.mode = .running ∨
    ∃ who, w.winner = some who ∧ w.session.mode = who.mode

variable {w w' : Run}

theorem Claims.winner_ne_none (h : Claims w) (hm : w.session.mode ≠ .running) :
    w.winner ≠ none := by
  rcases h.mode_eq with hrun | ⟨who, hwho, -⟩
  · exact absurd hrun hm
  · simp [hwho]

theorem Claims.mode_of_caller (h : Claims w) (hw : w.winner = some .caller)
    (hm : w.session.mode ≠ .running) : w.session.mode = .drain := by
  rcases h.mode_eq with hrun | ⟨who, hwho, hmode⟩
  · exact absurd hrun hm
  · rw [hw] at hwho
    obtain rfl := Option.some.inj hwho
    exact hmode

/-! ## Steps that leave the closing alone -/

/-- Nothing about the closing changes, and nobody gets past claiming. -/
structure KeepsClosing (w w' : Run) : Prop where
  closed : w'.session.closed = w.session.closed
  mode : w'.session.mode = w.session.mode
  winner : w'.winner = w.winner
  claimed : ∀ who, w'.Claimed who → w.Claimed who

theorem KeepsClosing.claims (k : KeepsClosing w w') (h : Claims w) : Claims w' where
  closed_iff := by
    rw [k.closed, k.winner]
    exact h.closed_iff
  winner_of_claimed who hwho := by
    rw [k.winner]
    exact h.winner_of_claimed who (k.claimed who hwho)
  mode_eq := by
    rw [k.mode, k.winner]
    exact h.mode_eq

/-- A session whose flag has not changed makes no winner. -/
theorem winner_setSession_of_closed_eq (w : Run) (who : Closer) {s : Session}
    (h : s.closed = w.session.closed) : (w.setSession who s).winner = w.winner := by
  simp only [setSession, h]
  cases w.session.closed <;> rfl

/-! ## A step of a close -/

/-- `who`, being at `stage`, does its next step of closing the session. -/
structure ClosesBy (w w' : Run) (who : Closer) (reason : Option String)
    (stage : ClosingStage) : Prop where
  /-- Who is past claiming has been seen there. -/
  held : stage.claimed = true → w.Claimed who
  closed : w'.session.closed = (w.session.closeStep reason who.mode stage).2.closed
  mode : w'.session.mode = (w.session.closeStep reason who.mode stage).2.mode
  winner : w'.winner =
    if w.session.closed = false ∧ w'.session.closed = true then some who else w.winner
  claimed : ∀ who', w'.Claimed who' → w.Claimed who' ∨
    (who' = who ∧ (w.session.closeStep reason who.mode stage).1.claimed = true)

variable {who : Closer} {reason : Option String} {stage : ClosingStage}

/-- A close that meets a closed session changes nothing; one that meets an open
session makes its owner the winner. -/
theorem ClosesBy.winner_eq (c : ClosesBy w w' who reason stage) (h : Claims w) :
    w'.winner = w.winner ∨
      (w.winner = none ∧ w'.winner = some who ∧ w'.session.mode = w.session.mode) := by
  rw [c.winner]
  by_cases hopen : w.session.closed = false
  · by_cases hshut : w'.session.closed = true
    · right
      rw [if_pos ⟨hopen, hshut⟩]
      have hnone : w.winner = none := by
        by_contra hne
        rw [h.closed_iff.2 hne] at hopen
        cases hopen
      refine ⟨hnone, rfl, ?_⟩
      rw [c.mode]
      rw [c.closed] at hshut
      cases stage with
      | claiming => simp [Session.closeStep, Session.claimClose, hopen]
      | recording => simp [Session.closeStep]
      | publishing => simp [Session.closeStep, Session.publish, hopen] at hshut
      | done effective => simp [Session.closeStep]
    · left
      rw [if_neg (fun hc => hshut hc.2)]
  · left
    rw [if_neg (fun hc => hopen hc.1)]

theorem ClosesBy.closed_eq (c : ClosesBy w w' who reason stage) :
    w'.session.closed = (w.session.closed || decide (stage = .claiming)) := by
  rw [c.closed]
  cases stage with
  | claiming =>
      cases hc : w.session.closed <;> simp [Session.closeStep, Session.claimClose, hc]
  | recording => simp [Session.closeStep]
  | publishing => simp [Session.closeStep, Session.publish]
  | done effective => simp [Session.closeStep]

theorem ClosesBy.claims (c : ClosesBy w w' who reason stage) (h : Claims w) :
    Claims w' where
  closed_iff := by
    rw [c.winner]
    by_cases hopen : w.session.closed = false
    · by_cases hshut : w'.session.closed = true
      · simp [hopen, hshut]
      · rw [if_neg (fun hc => hshut hc.2), ← h.closed_iff]
        simp [hopen, hshut]
    · have hclosed : w.session.closed = true := by simpa using hopen
      have hshut : w'.session.closed = true := by rw [c.closed_eq, hclosed]; rfl
      rw [if_neg (fun hc => hopen hc.1), ← h.closed_iff]
      simp [hclosed, hshut]
  winner_of_claimed who' hwho' := by
    rcases c.claimed who' hwho' with hold | ⟨rfl, hstage⟩
    · have hwinner := h.winner_of_claimed who' hold
      rcases c.winner_eq h with hsame | ⟨hnone, -, -⟩
      · rw [hsame, hwinner]
      · rw [hwinner] at hnone
        cases hnone
    · -- the stage that was reached is past claiming: either it was before,
      -- or this very step found the session open
      by_cases hheld : stage.claimed = true
      · have hwinner := h.winner_of_claimed _ (c.held hheld)
        rcases c.winner_eq h with hsame | ⟨hnone, -, -⟩
        · rw [hsame, hwinner]
        · rw [hwinner] at hnone
          cases hnone
      · have hclaiming : stage = .claiming ∧ w.session.closed = false := by
          cases stage with
          | claiming =>
              cases hc : w.session.closed
              · exact ⟨rfl, rfl⟩
              · simp [Session.closeStep, Session.claimClose, hc, ClosingStage.claimed]
                  at hstage
          | recording => exact absurd rfl hheld
          | publishing => exact absurd rfl hheld
          | done effective =>
              simp only [Session.closeStep] at hstage
              exact absurd hstage hheld
        have hshut : w'.session.closed = true := by
          rw [c.closed_eq, hclaiming.1]
          simp
        rw [c.winner, if_pos ⟨hclaiming.2, hshut⟩]
  mode_eq := by
    by_cases hpub : stage = .publishing
    · subst hpub
      right
      have hwinner := h.winner_of_claimed _ (c.held rfl)
      refine ⟨who, ?_, by rw [c.mode]; rfl⟩
      rcases c.winner_eq h with hsame | ⟨hnone, -, -⟩
      · rw [hsame, hwinner]
      · rw [hwinner] at hnone
        cases hnone
    · have hmode : w'.session.mode = w.session.mode := by
        rw [c.mode]
        cases stage with
        | claiming =>
            cases hc : w.session.closed <;> simp [Session.closeStep, Session.claimClose, hc]
        | recording => simp [Session.closeStep]
        | publishing => exact absurd rfl hpub
        | done effective => simp [Session.closeStep]
      rw [hmode]
      rcases h.mode_eq with hrun | ⟨who', hwho', hm⟩
      · exact .inl hrun
      · right
        rcases c.winner_eq h with hsame | ⟨hnone, -, -⟩
        · exact ⟨who', by rw [hsame, hwho'], hm⟩
        · rw [hwho'] at hnone
          cases hnone

/-! ## Every step -/

/-- What a step does to the closing. -/
def ClosingEffect (w w' : Run) : Prop :=
  KeepsClosing w w' ∨ ∃ who reason stage, ClosesBy w w' who reason stage

/-- Nothing about the closing changes when the flag, the mode and the stages of
all closes stay. -/
private theorem keepsClosing_of (who : Closer)
    (hwinner : w'.winner = (w.setSession who w'.session).winner)
    (hclosed : w'.session.closed = w.session.closed)
    (hmode : w'.session.mode = w.session.mode)
    (hcloses : ∀ stage ∈ w'.closes, stage.claimed = true → stage ∈ w.closes)
    (hwriter : w'.session.writer.claimed = true → w.session.writer.claimed = true)
    (hreader : w'.session.reader.claimed = true → w.session.reader.claimed = true) :
    KeepsClosing w w' where
  closed := hclosed
  mode := hmode
  winner := by rw [hwinner, winner_setSession_of_closed_eq w who hclosed]
  claimed who' h := by
    cases who' with
    | caller =>
        obtain ⟨stage, hmem, hstage⟩ := h
        exact ⟨stage, hcloses stage hmem hstage, hstage⟩
    | writer => exact hwriter h
    | reader => exact hreader h

private theorem closing_look {i : Nat} (h : w.look i = some w') : KeepsClosing w w' := by
  obtain ⟨p, -, ⟨e, journal, -, rfl⟩ | ⟨bytes, -, rfl⟩ | rfl⟩ := looking_of_look h
  · exact keepsClosing_of .caller rfl rfl rfl (fun _ hm _ => hm) id id
  · exact ⟨rfl, rfl, rfl, fun who hc => by cases who <;> exact hc⟩
  · exact ⟨rfl, rfl, rfl, fun who hc => by cases who <;> exact hc⟩

private theorem closing_enqueue {i : Nat} (h : w.enqueue i = some w') :
    KeepsClosing w w' := by
  obtain ⟨p, bytes, -, ⟨-, rfl⟩ | ⟨-, rfl⟩⟩ := queueing_of_enqueue h
  · exact keepsClosing_of .caller rfl rfl rfl (fun _ hm _ => hm) id id
  · exact keepsClosing_of .caller rfl rfl rfl (fun _ hm _ => hm) id id

private theorem closing_closeStep {i : Nat} (h : w.closeStep i = some w') :
    ∃ stage, ClosesBy w w' .caller none stage := by
  obtain ⟨stage, hi, rfl⟩ := stage_of_closeStep h
  refine ⟨stage,
    { held := fun hs => ⟨stage, List.mem_of_getElem? hi, hs⟩
      closed := rfl
      mode := rfl
      winner := rfl
      claimed := ?_ }⟩
  intro who hwho
  cases who with
  | caller =>
      obtain ⟨stage', hmem, hstage'⟩ := hwho
      rcases List.mem_or_eq_of_mem_set hmem with hold | rfl
      · exact .inl ⟨stage', hold, hstage'⟩
      · exact .inr ⟨rfl, hstage'⟩
  | writer =>
      left
      simpa [Claimed, setSession] using hwho
  | reader =>
      left
      simpa [Claimed, setSession] using hwho

private theorem claimed_phaseAfterWritten (flushed : Option Nat) :
    (Session.phaseAfterWritten flushed).claimed = false := by
  cases flushed <;> rfl

private theorem claimed_phaseAfterFailure (flushed : Option Nat) :
    (Session.phaseAfterFailure flushed).claimed = false := by
  cases flushed <;> rfl

private theorem closing_write (h : w.write = some w') : ClosingEffect w w' := by
  obtain ⟨s, firing, hgoes, rfl⟩ := writerGoes_of_write h
  cases hgoes with
  | closes hw =>
      rename_i reason flushed stage
      refine .inr ⟨.writer, some reason, stage,
        { held := ?_
          closed := rfl
          mode := rfl
          winner := rfl
          claimed := ?_ }⟩
      · intro hs
        simpa [Claimed, hw, WriterPhase.claimed] using hs
      · intro who hwho
        cases who with
        | caller => exact .inl hwho
        | writer => exact .inr ⟨rfl, hwho⟩
        | reader =>
            left
            simpa [Claimed, setSession] using hwho
  | completes _ _ =>
      refine .inl (keepsClosing_of .writer rfl rfl rfl (fun _ hm _ => hm) ?_ id)
      intro hc
      simp [setSession, claimed_phaseAfterWritten] at hc
  | closed _ =>
      refine .inl (keepsClosing_of .writer rfl rfl rfl (fun _ hm _ => hm) ?_ id)
      intro hc
      simp [setSession, claimed_phaseAfterFailure] at hc
  | _ => exact .inl (keepsClosing_of .writer rfl rfl rfl (fun _ hm _ => hm) nofun id)

private theorem closing_read (h : w.read = some w') : ClosingEffect w w' := by
  obtain ⟨s, hgoes, rfl⟩ := readerGoes_of_read h
  cases hgoes with
  | closes hr =>
      rename_i reason stage
      refine .inr ⟨.reader, reason, stage,
        { held := ?_
          closed := rfl
          mode := rfl
          winner := rfl
          claimed := ?_ }⟩
      · intro hs
        simpa [Claimed, hr, ReaderPhase.claimed] using hs
      · intro who hwho
        cases who with
        | caller => exact .inl hwho
        | writer =>
            left
            simpa [Claimed, setSession] using hwho
        | reader => exact .inr ⟨rfl, hwho⟩
  | _ => exact .inl (keepsClosing_of .reader rfl rfl rfl (fun _ hm _ => hm) id nofun)

private theorem closing_answerRead {answer : ReadAnswer} {bytes : Bytes}
    {stop : Option ReaderStop} (h : w.answerRead answer bytes stop = some w') :
    KeepsClosing w w' := by
  obtain ⟨hr, rfl⟩ := reading_of_answerRead h
  cases answer with
  | blocked => exact keepsClosing_of .reader rfl rfl rfl (fun _ hm _ => hm) id id
  | _ => exact keepsClosing_of .reader rfl rfl rfl (fun _ hm _ => hm) id nofun

private theorem closing_outside (call : OutsideCall) :
    KeepsClosing w (w.setSession .caller (w.session.outside call)) := by
  cases call <;> exact keepsClosing_of .caller rfl rfl rfl (fun _ hm _ => hm) id id

theorem closingEffect_of_step {e : RunEvent} (h : w.step? e = some w') :
    ClosingEffect w w' := by
  cases e with
  | send p =>
      obtain rfl := Option.some.inj h
      exact .inl ⟨rfl, rfl, rfl, fun who hc => by cases who <;> exact hc⟩
  | look i => exact .inl (closing_look h)
  | enqueue i => exact .inl (closing_enqueue h)
  | close =>
      obtain rfl := Option.some.inj h
      refine .inl ⟨rfl, rfl, rfl, fun who hc => ?_⟩
      cases who with
      | caller =>
          obtain ⟨stage, hmem, hstage⟩ := hc
          rcases List.mem_append.1 hmem with hold | hnew
          · exact ⟨stage, hold, hstage⟩
          · obtain rfl := List.mem_singleton.1 hnew
            cases hstage
      | writer => exact hc
      | reader => exact hc
  | closeStep i =>
      obtain ⟨stage, hclose⟩ := closing_closeStep h
      exact .inr ⟨.caller, none, stage, hclose⟩
  | write => exact closing_write h
  | take =>
      obtain ⟨r, queue, -, -, rfl⟩ := idle_of_take h
      exact .inl (keepsClosing_of .writer rfl rfl rfl (fun _ hm _ => hm) nofun id)
  | put count =>
      obtain ⟨r, rest, flushed, -, -, -, rfl⟩ := writing_of_put h
      exact .inl (keepsClosing_of .writer rfl rfl rfl (fun _ hm _ => hm) nofun id)
  | failWrite fault =>
      obtain ⟨r, rest, flushed, journal, -, rfl⟩ := writing_of_failWrite h
      exact .inl (keepsClosing_of .writer rfl rfl rfl (fun _ hm _ => hm) nofun id)
  | read => exact closing_read h
  | got bytes =>
      simp only [step?] at h
      split at h
      · cases h
      · exact .inl (closing_answerRead h)
  | atEnd => exact .inl (closing_answerRead h)
  | failRead fault => exact .inl (closing_answerRead h)
  | outside call =>
      obtain rfl := Option.some.inj h
      exact .inl (closing_outside call)
  | tick now =>
      obtain rfl := Option.some.inj h
      exact .inl ⟨rfl, rfl, rfl, fun who hc => by cases who <;> exact hc⟩

/-! ## Every run -/

theorem claims_start (label : String) (remote : Option Address) (config : SessionConfig)
    (now : Duration) : Claims (.start label remote config now) := by
  obtain ⟨journal, hsession⟩ := session_start label remote config now
  refine ⟨?_, ?_, ?_⟩
  · rw [hsession]
    simp [start]
  · intro who hwho
    cases who with
    | caller =>
        obtain ⟨stage, hmem, -⟩ := hwho
        cases hmem
    | writer =>
        simp only [Claimed, hsession] at hwho
        cases hwho
    | reader =>
        simp only [Claimed, hsession] at hwho
        cases hwho
  · left
    rw [hsession]

theorem Reached.claims (h : w.Reached) : Claims w := by
  refine h.invariant ?_ ?_
  · rintro _ ⟨label, remote, config, now⟩
    exact claims_start label remote config now
  · rintro w w' _ ⟨e, he⟩ hclaims
    rcases closingEffect_of_step he with hkeeps | ⟨who, reason, stage, hcloses⟩
    · exact hkeeps.claims hclaims
    · exact hcloses.claims hclaims

/-- A winner stays the winner. -/
theorem Reached.winner_step (h : w.Reached) {e : RunEvent} (he : w.step? e = some w')
    (hw : w.winner ≠ none) : w'.winner = w.winner := by
  rcases closingEffect_of_step he with hkeeps | ⟨who, reason, stage, hcloses⟩
  · exact hkeeps.winner
  · rcases hcloses.winner_eq h.claims with hsame | ⟨hnone, -, -⟩
    · exact hsame
    · exact absurd hnone hw

/-- A mode that has been announced stays. -/
theorem Reached.mode_step (h : w.Reached) {e : RunEvent} (he : w.step? e = some w')
    (hm : w.session.mode ≠ .running) : w'.session.mode ≠ .running := by
  have hwinner := h.claims.winner_ne_none hm
  rcases closingEffect_of_step he with hkeeps | ⟨who, reason, stage, hcloses⟩
  · rw [hkeeps.mode]
    exact hm
  · rw [hcloses.mode]
    cases stage with
    | claiming =>
        cases hc : w.session.closed <;>
          simpa [Session.closeStep, Session.claimClose, hc] using hm
    | recording => simpa [Session.closeStep] using hm
    | publishing =>
        simp only [Session.closeStep, Session.publish]
        cases who <;> simp [Closer.mode]
    | done effective => simpa [Session.closeStep] using hm

end Run

end PeerLink
