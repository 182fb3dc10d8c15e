import PeerLink.Proofs.Session.Docket

/-!
# The first close wins

Closings of a session meet at its flag.  The one that finds the session open claims
it, leaves its reason in the slot of the last error, and announces its mode, in this
order; all others find the session closed and do nothing.

`Docket.Unclaimed` and `Docket.Won` say what a docket looks like before and after the
claim.  Every step leads from the one to the one or the other, and from the other to
the other with the same winner.  That the reader does not win without a reason comes
out of this: it stops without a reason only when it has seen a mode, so the session
was claimed before.

## Main results

* `Docket.effect_of_step` — what a step does to a docket.
* `Docket.Reached.ordered` — every docket is unclaimed or won.
* `Docket.first_close_wins` — one closing takes effect, and its mode and reason stay.
-/

namespace PeerLink.Docket

variable {d d' : Docket} {e : RunEvent} {c : Closing} {reason : Option String}

/-! ## What a step does -/

/-- What a step does to a docket; the reports of the end are left open. -/
inductive Effect (d : Docket) (e : RunEvent) (d' : Docket) : Prop
  | aside (h : Run.Aside d.run e d'.run)
      (hd : d' = { d with run := d'.run, ends := d'.ends })
  /-- A closing found the session open. -/
  | claims {c : Closing} {reason : Option String}
      (h : Run.Advance d.run d'.run c ⟨reason, .claiming⟩)
      (hopen : d.run.session.closed = false)
      (hd : d' = { d with
        run := d'.run, ends := d'.ends
        claims := d.claims ++ [(c, reason)] })
  /-- A closing found the session closed. -/
  | yields {c : Closing} {reason : Option String}
      (h : Run.Advance d.run d'.run c ⟨reason, .claiming⟩)
      (hclosed : d.run.session.closed = true)
      (hd : d' = { d with
        run := d'.run, ends := d'.ends
        answers := d.answers ++ [(c, false)] })
  | records {c : Closing} {reason : Option String}
      (h : Run.Advance d.run d'.run c ⟨reason, .recording⟩)
      (hd : d' = { d with
        run := d'.run, ends := d'.ends
        records := d.records ++ reason.toList })
  | announces {c : Closing} {reason : Option String}
      (h : Run.Advance d.run d'.run c ⟨reason, .publishing⟩)
      (hd : d' = { d with
        run := d'.run, ends := d'.ends
        announced := d.announced ++ [c.closer.mode]
        answers := d.answers ++ [(c, true)] })

theorem effect_of_step (h : d.step? e = some d') : Effect d e d' := by
  unfold step? at h
  split at h
  · cases h
  rename_i w hw
  rcases Run.closingStep_of_step hw with ⟨hacting, haside⟩ | ⟨c, ⟨reason, stage⟩, hacting, hadvance⟩
  · rw [hacting] at h
    obtain rfl := Option.some.inj h
    exact .aside haside rfl
  · rw [hacting] at h
    obtain rfl := Option.some.inj h
    cases stage with
    | claiming =>
        cases hclosed : d.run.session.closed with
        | false =>
            refine .claims hadvance hclosed ?_
            simp [note, Session.closeStep, Session.claimClose, hclosed, ClosingStage.answer?]
        | true =>
            refine .yields hadvance hclosed ?_
            simp [note, Session.closeStep, Session.claimClose, hclosed, ClosingStage.answer?]
    | recording =>
        refine .records hadvance ?_
        simp [note, Session.closeStep, ClosingStage.answer?]
    | publishing =>
        refine .announces hadvance ?_
        simp [note, Session.closeStep, Session.publish, ClosingStage.answer?]
    | done effective => cases hadvance.going

/-! ## Before and after the claim -/

/-- Nobody has claimed the closing. -/
structure Unclaimed (d : Docket) : Prop where
  closed : d.run.session.closed = false
  mode : d.run.session.mode = .running
  lastError : d.run.session.slots.lastError = none
  claims : d.claims = []
  records : d.records = []
  announced : d.announced = []
  answers : d.answers = []
  /-- Whoever is at a closing is at its first step, and the reader brings a reason. -/
  approach : ∀ c a, d.run.approach? c = some a →
    a.stage = .claiming ∧ (c = .reader → a.reason ≠ none)

/-- What the winner has done when it is at a stage. -/
inductive Progress (c : Closing) (reason : Option String) :
    ClosingStage → List String → List Mode → List (Closing × Bool) → Prop
  | recording : Progress c reason .recording [] [] []
  | publishing : Progress c reason .publishing reason.toList [] []
  | done : Progress c reason (.done true) reason.toList [c.closer.mode] [(c, true)]

/-- Closing `c` has claimed the closing, and is at `stage`. -/
structure Won (d : Docket) (c : Closing) (reason : Option String) (stage : ClosingStage) :
    Prop where
  claims : d.claims = [(c, reason)]
  closed : d.run.session.closed = true
  /-- A local close has no reason, and the tasks bring one. -/
  faults : reason = none ↔ c.closer = .caller
  progress : Progress c reason stage d.records d.announced (d.answers.filter Prod.snd)
  mode : d.run.session.mode = d.announced.headD .running
  lastError : d.run.session.slots.lastError = d.records.head?.map .text
  begun : d.run.Begun c
  approach : ∀ a, d.run.approach? c = some a → a = ⟨reason, stage⟩
  others : ∀ c' a, c' ≠ c → d.run.approach? c' = some a →
    a.stage = .claiming ∨ a.stage = .done false
  losers : ∀ c' effective, (c', effective) ∈ d.answers → (effective = true ↔ c' = c)

/-- A docket is unclaimed, or one closing has won. -/
def Ordered (d : Docket) : Prop := d.Unclaimed ∨ ∃ c reason stage, d.Won c reason stage

private theorem unclaimed_aside (h : d.Unclaimed) (haside : Run.Aside d.run e d'.run)
    (hd : d' = { d with run := d'.run, ends := d'.ends }) (hspare : e.sparesError = true) :
    d'.Unclaimed := by
  rw [hd]
  refine ⟨haside.closed.trans h.closed, haside.mode.trans h.mode,
    (haside.lastError hspare).trans h.lastError, h.claims, h.records, h.announced,
    h.answers, fun c a ha => ?_⟩
  rcases haside.approach ha with hold | ⟨-, hnew, hreader⟩
  · exact h.approach c a hold
  · exact ⟨hnew, fun hc hnone => hreader hc hnone h.mode⟩

/-- The closing that finds the session open has won it. -/
private theorem won_claims (h : d.Unclaimed)
    (hadvance : Run.Advance d.run d'.run c ⟨reason, .claiming⟩)
    (hopen : d.run.session.closed = false)
    (hd : d' = { d with
      run := d'.run, ends := d'.ends
      claims := d.claims ++ [(c, reason)] }) : d'.Won c reason .recording := by
  have hbegun := Run.begun_of_approach hadvance.before
  have hreason := Run.reason_of_approach hadvance.before
  have hreader := (h.approach c _ hadvance.before).2
  have hclosed := hadvance.closed
  have hmode := hadvance.mode
  have hslots := hadvance.slots
  have hafter := hadvance.after
  simp only [Session.closeStep, Session.claimClose, hopen, Bool.not_false]
    at hclosed hmode hslots hafter
  rw [hd]
  refine { claims := ?_, closed := hclosed, faults := ?_, progress := ?_, mode := ?_,
           lastError := ?_, begun := hadvance.begun c hbegun, approach := ?_, others := ?_,
           losers := ?_ }
  · rw [h.claims]
    rfl
  · constructor
    · intro hnone
      cases c with
      | call i => rfl
      | writer => exact absurd hnone (hreason.2 rfl)
      | reader => exact absurd hnone (hreader rfl)
    · exact hreason.1
  · rw [h.records, h.announced, h.answers]
    exact .recording
  · rw [h.announced]
    exact hmode.trans h.mode
  · rw [h.records]
    exact (congrArg Slots.lastError hslots).trans h.lastError
  · intro a ha
    rw [hafter] at ha
    exact (Option.some.inj ha).symm
  · intro c' a hc' ha
    rw [hadvance.others c' hc'] at ha
    exact .inl (h.approach c' a ha).1
  · rw [h.answers]
    exact fun _ _ hmem => absurd hmem List.not_mem_nil

theorem Unclaimed.step (h : d.Unclaimed) (he : Effect d e d') (hspare : e.sparesError = true) :
    d'.Ordered := by
  cases he with
  | aside haside hd => exact .inl (unclaimed_aside h haside hd hspare)
  | claims hadvance hopen hd => exact .inr ⟨_, _, _, won_claims h hadvance hopen hd⟩
  | yields hadvance hclosed hd =>
      rw [h.closed] at hclosed
      cases hclosed
  | records hadvance hd => cases (h.approach _ _ hadvance.before).1
  | announces hadvance hd => cases (h.approach _ _ hadvance.before).1

section Progress

variable {stage : ClosingStage} {records : List String} {modes : List Mode}
  {answers : List (Closing × Bool)}

/-- The winner is past claiming, and will not be told that it lost. -/
theorem Progress.stage_ne (h : Progress c reason stage records modes answers) :
    stage ≠ .claiming ∧ stage ≠ .done false := by
  cases h <;> exact ⟨nofun, nofun⟩

theorem Progress.of_recording (h : Progress c reason .recording records modes answers) :
    records = [] ∧ modes = [] ∧ answers = [] := by
  cases h
  exact ⟨rfl, rfl, rfl⟩

theorem Progress.of_publishing (h : Progress c reason .publishing records modes answers) :
    records = reason.toList ∧ modes = [] ∧ answers = [] := by
  cases h
  exact ⟨rfl, rfl, rfl⟩

end Progress

section Won

variable {stage : ClosingStage} {w : Run}

/-- Only the winner gets past claiming. -/
theorem Won.eq_winner (h : d.Won c reason stage) {who : Closing} {a : Approach}
    (hadvance : Run.Advance d.run w who a) (hclaiming : a.stage ≠ .claiming) :
    who = c ∧ a = ⟨reason, stage⟩ := by
  have hwho : who = c := by
    by_contra hne
    rcases h.others who a hne hadvance.before with hfirst | hlost
    · exact hclaiming hfirst
    · have hgoing := hadvance.going
      rw [hlost] at hgoing
      cases hgoing
  rw [hwho] at hadvance
  exact ⟨hwho, h.approach a hadvance.before⟩

/-- Where everybody is when the winner has gone on. -/
theorem Won.approach_of_advance (h : d.Won c reason stage) {stage' : ClosingStage}
    (hadvance : Run.Advance d.run w c ⟨reason, stage⟩)
    (hstage : (d.run.session.closeStep reason c.closer.mode stage).1 = stage') :
    (∀ a, w.approach? c = some a → a = ⟨reason, stage'⟩) ∧
      ∀ c' a, c' ≠ c → w.approach? c' = some a →
        a.stage = .claiming ∨ a.stage = .done false := by
  constructor
  · intro a ha
    rw [hadvance.after, hstage] at ha
    exact (Option.some.inj ha).symm
  · intro c' a hc' ha
    rw [hadvance.others c' hc'] at ha
    exact h.others c' a hc' ha

private theorem won_aside (h : d.Won c reason stage) (haside : Run.Aside d.run e d'.run)
    (hd : d' = { d with run := d'.run, ends := d'.ends }) (hspare : e.sparesError = true) :
    d'.Won c reason stage := by
  rw [hd]
  refine { h with
    closed := haside.closed.trans h.closed
    mode := haside.mode.trans h.mode
    lastError := (haside.lastError hspare).trans h.lastError
    begun := haside.begun h.begun
    approach := fun a ha => ?_
    others := fun c' a hc' ha => ?_ }
  · rcases haside.approach ha with hold | ⟨hbegun, -, -⟩
    · exact h.approach a hold
    · exact absurd h.begun hbegun
  · rcases haside.approach ha with hold | ⟨-, hnew, -⟩
    · exact h.others c' a hc' hold
    · exact .inl hnew

/-- Who finds the session closed is not the winner, and changes nothing. -/
private theorem won_yields (h : d.Won c reason stage) {loser : Closing} {reason' : Option String}
    (hadvance : Run.Advance d.run d'.run loser ⟨reason', .claiming⟩)
    (hclosed : d.run.session.closed = true)
    (hd : d' = { d with
      run := d'.run, ends := d'.ends
      answers := d.answers ++ [(loser, false)] }) : d'.Won c reason stage := by
  have hne : loser ≠ c := by
    rintro rfl
    cases h.approach _ hadvance.before
    exact h.progress.stage_ne.1 rfl
  have hflag := hadvance.closed
  have hmode := hadvance.mode
  have hslots := hadvance.slots
  have hafter := hadvance.after
  simp only [Session.closeStep, Session.claimClose, hclosed, Bool.not_true]
    at hflag hmode hslots hafter
  rw [hd]
  refine { h with
    closed := hflag
    progress := ?_
    mode := hmode.trans h.mode
    lastError := (congrArg Slots.lastError hslots).trans h.lastError
    begun := hadvance.begun c h.begun
    approach := fun a ha => ?_
    others := fun c' a hc' ha => ?_
    losers := fun c' effective hmem => ?_ }
  · rw [List.filter_append]
    simpa using h.progress
  · rw [hadvance.others c hne.symm] at ha
    exact h.approach a ha
  · by_cases hsame : c' = loser
    · rw [hsame, hafter] at ha
      cases ha
      exact .inr rfl
    · rw [hadvance.others c' hsame] at ha
      exact h.others c' a hc' ha
  · rcases List.mem_append.1 hmem with hold | hnew
    · exact h.losers c' effective hold
    · cases List.mem_singleton.1 hnew
      simpa using hne

private theorem won_records (h : d.Won c reason .recording)
    (hadvance : Run.Advance d.run d'.run c ⟨reason, .recording⟩)
    (hd : d' = { d with
      run := d'.run, ends := d'.ends
      records := d.records ++ reason.toList }) : d'.Won c reason .publishing := by
  obtain ⟨hrecords, hannounced, hanswers⟩ := h.progress.of_recording
  obtain ⟨happroach, hothers⟩ := h.approach_of_advance hadvance rfl
  have hempty : d.run.session.slots.lastError = none := by
    rw [h.lastError, hrecords]
    rfl
  have hslots := congrArg Slots.lastError hadvance.slots
  simp only [Session.closeStep, Session.lastError_recordReason, hempty] at hslots
  rw [hd]
  refine { h with
    closed := hadvance.closed.trans ((Session.closed_recordReason _ _).trans h.closed)
    progress := ?_
    mode := hadvance.mode.trans ((Session.mode_recordReason _ _).trans h.mode)
    lastError := ?_
    begun := hadvance.begun c h.begun
    approach := happroach
    others := hothers }
  · rw [hrecords, hannounced, hanswers]
    exact .publishing
  · rw [hslots, hrecords]
    cases reason <;> rfl

private theorem won_announces (h : d.Won c reason .publishing)
    (hadvance : Run.Advance d.run d'.run c ⟨reason, .publishing⟩)
    (hd : d' = { d with
      run := d'.run, ends := d'.ends
      announced := d.announced ++ [c.closer.mode]
      answers := d.answers ++ [(c, true)] }) : d'.Won c reason (.done true) := by
  obtain ⟨hrecords, hannounced, hanswers⟩ := h.progress.of_publishing
  obtain ⟨happroach, hothers⟩ := h.approach_of_advance hadvance rfl
  rw [hd]
  refine { h with
    closed := hadvance.closed.trans h.closed
    progress := ?_
    mode := ?_
    lastError := (congrArg Slots.lastError hadvance.slots).trans h.lastError
    begun := hadvance.begun c h.begun
    approach := happroach
    others := hothers
    losers := fun c' effective hmem => ?_ }
  · rw [hrecords, hannounced, List.filter_append, hanswers]
    exact .done
  · rw [hannounced]
    exact hadvance.mode
  · rcases List.mem_append.1 hmem with hold | hnew
    · exact h.losers c' effective hold
    · cases List.mem_singleton.1 hnew
      simp

theorem Won.step (h : d.Won c reason stage) (he : Effect d e d')
    (hspare : e.sparesError = true) : ∃ stage', d'.Won c reason stage' := by
  cases he with
  | aside haside hd => exact ⟨stage, won_aside h haside hd hspare⟩
  | claims hadvance hopen hd =>
      rw [h.closed] at hopen
      cases hopen
  | yields hadvance hclosed hd => exact ⟨stage, won_yields h hadvance hclosed hd⟩
  | records hadvance hd =>
      obtain ⟨rfl, hat⟩ := h.eq_winner hadvance (fun heq => by cases heq)
      cases hat
      exact ⟨.publishing, won_records h hadvance hd⟩
  | announces hadvance hd =>
      obtain ⟨rfl, hat⟩ := h.eq_winner hadvance (fun heq => by cases heq)
      cases hat
      exact ⟨.done true, won_announces h hadvance hd⟩

end Won

theorem unclaimed_start (label : String) (remote : Option Address) (config : SessionConfig)
    (now : Duration) : (start label remote config now).Unclaimed := by
  obtain ⟨journal, hsession⟩ := Run.session_start label remote config now
  refine ⟨?_, ?_, ?_, rfl, rfl, rfl, rfl, fun c a ha => ?_⟩
  · rw [start, hsession]
  · rw [start, hsession]
  · rw [start, hsession]
  · cases c with
    | call i => cases ha
    | writer =>
        simp only [start, Run.approach?, hsession] at ha
        cases ha
    | reader =>
        simp only [start, Run.approach?, hsession] at ha
        cases ha

theorem Reached.ordered (h : d.Reached) : d.Ordered := by
  obtain ⟨_, ⟨label, remote, config, now⟩, hs⟩ := h
  induction hs with
  | refl => exact .inl (unclaimed_start label remote config now)
  | tail _ he ih =>
      obtain ⟨e, hspare, he⟩ := leads_sparing.1 he
      rcases ih with hunclaimed | ⟨c, reason, stage, hwon⟩
      · exact hunclaimed.step (effect_of_step he) hspare
      · obtain ⟨stage', hwon'⟩ := hwon.step (effect_of_step he) hspare
        exact .inr ⟨c, reason, stage', hwon'⟩

/-! ## What a docket never shows otherwise -/

/-- What has been put down stays. -/
structure Grows (d d' : Docket) : Prop where
  claims : d.claims <+: d'.claims
  records : d.records <+: d'.records
  announced : d.announced <+: d'.announced
  answers : d.answers <+: d'.answers

theorem Effect.grows (h : Effect d e d') : Grows d d' := by
  cases h with
  | aside haside hd =>
      rw [hd]
      exact ⟨List.prefix_rfl, List.prefix_rfl, List.prefix_rfl, List.prefix_rfl⟩
  | claims hadvance hopen hd =>
      rw [hd]
      exact ⟨List.prefix_append _ _, List.prefix_rfl, List.prefix_rfl, List.prefix_rfl⟩
  | yields hadvance hclosed hd =>
      rw [hd]
      exact ⟨List.prefix_rfl, List.prefix_rfl, List.prefix_rfl, List.prefix_append _ _⟩
  | records hadvance hd =>
      rw [hd]
      exact ⟨List.prefix_rfl, List.prefix_append _ _, List.prefix_rfl, List.prefix_rfl⟩
  | announces hadvance hd =>
      rw [hd]
      exact ⟨List.prefix_rfl, List.prefix_rfl, List.prefix_append _ _, List.prefix_append _ _⟩

theorem Steps.grows (h : Steps d d') : Grows d d' := by
  induction h with
  | refl => exact ⟨List.prefix_rfl, List.prefix_rfl, List.prefix_rfl, List.prefix_rfl⟩
  | tail _ he ih =>
      obtain ⟨e, -, he⟩ := leads_sparing.1 he
      have hlast := (effect_of_step he).grows
      exact ⟨ih.claims.trans hlast.claims, ih.records.trans hlast.records,
        ih.announced.trans hlast.announced, ih.answers.trans hlast.answers⟩

/-- One closing takes effect, at most, and the mode and the last error are its. -/
structure FirstWins (d : Docket) : Prop where
  /-- The session is closed by the closing that finds it open. -/
  closed_iff : d.run.session.closed = true ↔ d.claims ≠ []
  length_claims : d.claims.length ≤ 1
  /-- At most one closing answers that it took effect. -/
  length_effective : (d.answers.filter Prod.snd).length ≤ 1
  /-- Once any closing has answered, one has taken effect, and no other says so. -/
  answered : ∀ c effective, (c, effective) ∈ d.answers →
    ∃ c' reason, d.claims = [(c', reason)] ∧ (effective = true ↔ c = c')
  /-- The mode is announced once. -/
  length_announced : d.announced.length ≤ 1
  mode : d.run.session.mode = d.announced.headD .running
  /-- The slot of the last error is written once. -/
  length_records : d.records.length ≤ 1
  lastError : d.run.session.slots.lastError = d.records.head?.map .text
  /-- It holds the reason of the closing that took effect before anybody can see that
  the queue is to be given up. -/
  reason_of_abort : d.run.session.mode = .abort →
    ∃ c text, d.claims = [(c, some text)] ∧ d.run.session.lastError? = some text
  /-- The reader does not win without a reason. -/
  reason_of_reader : ∀ reason, (.reader, reason) ∈ d.claims → reason ≠ none

theorem Unclaimed.firstWins (h : d.Unclaimed) : d.FirstWins where
  closed_iff := by simp [h.closed, h.claims]
  length_claims := by simp [h.claims]
  length_effective := by simp [h.answers]
  answered := by simp [h.answers]
  length_announced := by simp [h.announced]
  mode := by rw [h.mode, h.announced]; rfl
  length_records := by simp [h.records]
  lastError := by rw [h.lastError, h.records]; rfl
  reason_of_abort := by simp [h.mode]
  reason_of_reader := by simp [h.claims]

theorem Progress.lengths {stage : ClosingStage} {records : List String} {modes : List Mode}
    {answers : List (Closing × Bool)} (h : Progress c reason stage records modes answers) :
    records.length ≤ 1 ∧ modes.length ≤ 1 ∧ answers.length ≤ 1 := by
  cases h <;> cases reason <;> simp

/-- A winner that has announced its mode had recorded its reason. -/
theorem Progress.of_announced {stage : ClosingStage} {records : List String}
    {modes : List Mode} {answers : List (Closing × Bool)}
    (h : Progress c reason stage records modes answers) (hmode : modes ≠ []) :
    records = reason.toList ∧ modes = [c.closer.mode] := by
  cases h with
  | done => exact ⟨rfl, rfl⟩
  | _ => exact absurd rfl hmode

theorem Won.firstWins {stage : ClosingStage} (h : d.Won c reason stage) : d.FirstWins where
  closed_iff := by simp [h.closed, h.claims]
  length_claims := by simp [h.claims]
  length_effective := h.progress.lengths.2.2
  answered c' effective hmem := ⟨c, reason, h.claims, h.losers c' effective hmem⟩
  length_announced := h.progress.lengths.2.1
  mode := h.mode
  length_records := h.progress.lengths.1
  lastError := h.lastError
  reason_of_abort := by
    intro habort
    have hmode := h.mode
    have hannounced : d.announced ≠ [] := by
      intro hnone
      rw [hnone, habort] at hmode
      cases hmode
    obtain ⟨hrecords, hmodes⟩ := h.progress.of_announced hannounced
    rw [hmodes, habort] at hmode
    have hcaller : c.closer ≠ .caller := by
      intro hcaller
      rw [hcaller] at hmode
      cases hmode
    cases reason with
    | none => exact absurd (h.faults.1 rfl) hcaller
    | some text =>
        refine ⟨c, text, h.claims, ?_⟩
        simp only [Session.lastError?, Slots.get?, h.lastError, hrecords]
        rfl
  reason_of_reader := by
    intro reason' hmem
    rw [h.claims] at hmem
    cases List.mem_singleton.1 hmem
    intro hnone
    cases h.faults.1 hnone

theorem Reached.firstWins (h : d.Reached) : d.FirstWins := by
  rcases h.ordered with hunclaimed | ⟨c, reason, stage, hwon⟩
  · exact hunclaimed.firstWins
  · exact hwon.firstWins

theorem Reached.closed_steps (h : d.Reached) (hs : Steps d d')
    (hclosed : d.run.session.closed = true) : d'.run.session.closed = true := by
  have hclaims := h.firstWins.closed_iff.1 hclosed
  refine (Reached.firstWins (h.steps hs)).closed_iff.2 fun hnone => hclaims ?_
  exact List.prefix_nil.1 (hnone ▸ hs.grows.claims)

/-- An announced mode stays. -/
theorem Reached.mode_steps (h : d.Reached) (hs : Steps d d')
    (hmode : d.run.session.mode ≠ .running) :
    d'.run.session.mode = d.run.session.mode := by
  rw [(Reached.firstWins (h.steps hs)).mode, h.firstWins.mode]
  obtain ⟨later, hlater⟩ := hs.grows.announced
  cases hannounced : d.announced with
  | nil =>
      rw [h.firstWins.mode, hannounced] at hmode
      exact absurd rfl hmode
  | cons mode modes =>
      rw [← hlater, hannounced]
      rfl

/-- Among all closings of a session, at most one takes effect, and one has when any of
them is over.  From then on the session is closed; the mode that was announced stays,
and so does the reason in the slot of the last error.  The queue is given up only for
a reason that is there, so a reader that was merely told to stop has not won. -/
theorem first_close_wins (h : d.Reached) (hs : Steps d d') :
    d.FirstWins ∧
      (d.run.session.closed = true → d'.run.session.closed = true) ∧
      (d.run.session.mode ≠ .running →
        d'.run.session.mode = d.run.session.mode) ∧
      (d.run.session.slots.lastError ≠ none →
        d'.run.session.slots.lastError = d.run.session.slots.lastError) := by
  refine ⟨h.firstWins, h.closed_steps hs, h.mode_steps hs, fun hslot => ?_⟩
  rw [(Reached.firstWins (h.steps hs)).lastError, h.firstWins.lastError]
  obtain ⟨later, hlater⟩ := hs.grows.records
  cases hrecords : d.records with
  | nil =>
      rw [h.firstWins.lastError, hrecords] at hslot
      exact absurd rfl hslot
  | cons text texts =>
      rw [← hlater, hrecords]
      rfl

/-- A local close claims the closing.  Before it has announced its mode, a write fails
and the stream comes to its end, and the writer and the reader close the session too. -/
def contested : Docket :=
  (start "1" none {} default).after
    [.send (.buffer [1, 2]), .look 0, .enqueue 0, .write, .put 1, .read, .read,
      .close, .closeStep 0, .failWrite (.bare .brokenPipe), .write, .write,
      .atEnd, .read, .closeStep 0, .closeStep 0]

theorem contested_is_drained :
    contested.answers = [(.writer, false), (.reader, false), (.call 0, true)] ∧
      contested.FirstWins ∧ contested.run.session.mode = .drain ∧
      ∀ d', Steps contested d' → d'.run.session.mode = .drain := by
  have hreached : contested.Reached := (Reached.start _ _ _ _).after _
  have hdrain : contested.run.session.mode = .drain := rfl
  refine ⟨rfl, (first_close_wins hreached .refl).1, hdrain, fun d' hs => ?_⟩
  exact (first_close_wins hreached hs).2.2.1 (by rw [hdrain]; nofun)

end PeerLink.Docket
