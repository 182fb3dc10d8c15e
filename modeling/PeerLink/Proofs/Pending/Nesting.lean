import Mathlib.Data.List.Nodup
import PeerLink.Pending.Bench
import PeerLink.Proofs.Pending.Sound

/-!
# Completers that are used inside callbacks

A callback that runs may use completers, which run further callbacks there and then,
without bound.  What is still to be done is a stack of tasks: the callback that a use sets
off comes on top, and below it waits the answer of that use.

Nothing is assumed of what a callback does.  In a run (`Desk.Runs`) any tasks may take the
place of the callback that a use sets off, so that a callback may decide as it goes along.
The tasks of `Callback.tasks` are one case, and `Desk.run` is the run in which every
callback does what it says.

Every use that sets something off takes away a completer, and no task brings one back.
This bounds the uses, and every other task leaves the stack shorter.  A use records its
result and takes the callback off before anything else is done, and both stay so.

## Main results

* `Desk.wellFounded_next` — no run goes on for ever.
* `Desk.Runs.accounts` — a run ends each operation at most once, with the result of the
  use that took its completer away.
* `Desk.Runs.split` — what is lower on the stack is left alone until all above is done.
* `Bench.nested_uses_end` — all of this for the use of a completer.
-/

namespace PeerLink

/-! ## The use of a completer -/

namespace Board

variable {κ : Type} {b b' : Board κ} {n : Nat}

theorem isPending_of_recorded {r : SendResult} {callback : Option κ}
    (h : b.complete n r = (.recorded callback, b')) : b.IsPending n := by
  unfold complete at h
  split at h
  · cases h
  · rename_i o ho
    split at h
    · rename_i hc
      split at h
      · cases h
      · rename_i hr
        exact ⟨o, ho, by simpa using hr, hc⟩
    · cases h

theorem onComplete_of_result (h : b.result? n ≠ none) (x : κ) : b.onComplete n x = (false, b) := by
  have hrefused : (b.onComplete n x).1 = false := by
    by_contra htaken
    obtain ⟨o, ho, hr, -⟩ := (b.onComplete_fst n x).1 (by simpa using htaken)
    exact h (by simp [Board.result?, ho, hr])
  exact Prod.ext hrefused (onComplete_of_refused hrefused)

end Board

namespace Desk

variable {d d' d'' : Desk} {handle : Nat} {result : SendResult} {callback : Option Callback}

/-- A use that records a result is one of a completer that is still there. -/
theorem useCompleter_eq_recorded (h : d.useCompleter handle result = (.recorded callback, d')) :
    d.isOwner handle = true ∧
      d.board.complete (d.operation handle) result = (.recorded callback, d'.board) ∧
      d'.handles = d.handles := by
  unfold useCompleter at h
  split at h
  · rename_i howner
    cases hc : d.board.complete (d.operation handle) result with
    | mk answer board =>
        rw [hc] at h
        cases h
        exact ⟨howner, rfl, rfl⟩
  · cases h

/-- A use that comes to nothing changes nothing. -/
theorem useCompleter_eq_usedUp (h : d.useCompleter handle result = (.usedUp, d')) : d' = d := by
  unfold useCompleter at h
  split at h
  · cases hc : d.board.complete (d.operation handle) result with
    | mk answer board =>
        rw [hc] at h
        obtain ⟨rfl, rfl⟩ := Prod.mk.inj h
        rw [Board.complete_usedUp hc]
  · exact (congrArg Prod.snd h).symm

/-- A completer that is not there changes nothing. -/
theorem useCompleter_of_isOpen_eq_false (h : d.board.isOpen (d.operation handle) = false)
    (result : SendResult) : d.useCompleter handle result = (.usedUp, d) := by
  unfold useCompleter
  split
  · rw [Board.complete_of_isOpen_eq_false h]
  · rfl

/-- No completer of a sound board comes late. -/
theorem useCompleter_ne_late (h : d.board.Sound) : d.useCompleter handle result ≠ (.late, d') := by
  intro hlate
  unfold useCompleter at hlate
  split at hlate
  · cases hopen : d.board.isOpen (d.operation handle) with
    | true =>
        rw [Board.complete_of_pending (h.isPending_iff.2 hopen)] at hlate
        cases hlate
    | false =>
        rw [Board.complete_of_isOpen_eq_false hopen] at hlate
        cases hlate
  · cases hlate

theorem step_complete_of_usedUp {caller : String}
    (h : d.useCompleter handle result = (.usedUp, d')) :
    d.step (.act caller (.complete handle result)) =
      ([], d'.write (.completed caller none)) := by
  simp only [step, h]

theorem step_complete_of_recorded {caller : String}
    (h : d.useCompleter handle result = (.recorded callback, d')) :
    d.step (.act caller (.complete handle result)) =
      ((callback.map fun c => c.tasks result).getD [] ++
        [.write (.completed caller (some true))], d') := by
  simp only [step, h]

/-! ## Runs -/

/-- One task is done.  If it uses a completer and a callback is to run, the callback may do
anything; its tasks come first, then the answer of the use. -/
inductive Moves (d : Desk) : List Task → List (Nat × SendResult) → Desk → List Task → Prop
  | plain {t : Task} {rest : List Task} (ht : (d.step t).1 = []) :
      Moves d (t :: rest) [] (d.step t).2 rest
  | fires {caller : String} {handle : Nat} {result : SendResult} {rest : List Task}
      {callback : Option Callback} {d' : Desk}
      (hu : d.useCompleter handle result = (.recorded callback, d')) (tasks : List Task)
      (hnone : callback = none → tasks = []) :
      Moves d (.act caller (.complete handle result) :: rest) [(d.operation handle, result)] d'
        (tasks ++ .write (.completed caller (some true)) :: rest)

/-- Any number of tasks are done.  The trace tells which operations have ended meanwhile,
each with the result of the use that ended it. -/
inductive Runs : Desk → List Task → List (Nat × SendResult) → Desk → List Task → Prop
  | refl (d : Desk) (ts : List Task) : Runs d ts [] d ts
  | step {d d₁ d' : Desk} {ts ts₁ ts' : List Task} {ended trace : List (Nat × SendResult)}
      (hm : d.Moves ts ended d₁ ts₁) (hr : Runs d₁ ts₁ trace d' ts') :
      Runs d ts (ended ++ trace) d' ts'

/-- What is left to do after one task more. -/
def Next (y x : Desk × List Task) : Prop := ∃ ended, x.1.Moves x.2 ended y.1 y.2

theorem Runs.trans {ts ts' ts'' : List Task} {t₁ t₂ : List (Nat × SendResult)}
    (h : Runs d ts t₁ d' ts') (h' : Runs d' ts' t₂ d'' ts'') : Runs d ts (t₁ ++ t₂) d'' ts'' := by
  induction h with
  | refl => exact h'
  | step hm _ ih =>
      rw [List.append_assoc]
      exact .step hm (ih h')

/-! ### Every run ends -/

theorem Moves.decreases {ts ts' : List Task} {ended : List (Nat × SendResult)}
    (h : d.Moves ts ended d' ts') :
    d'.board.openCount < d.board.openCount ∨
      d'.board.openCount = d.board.openCount ∧ ts'.length < ts.length := by
  cases h with
  | plain ht =>
      rename_i t
      rcases d.step_decreases t with hless | ⟨hsame, -⟩
      · exact .inl hless
      · exact .inr ⟨hsame, Nat.lt_succ_self _⟩
  | fires hu tasks hnone =>
      obtain ⟨-, hc, -⟩ := useCompleter_eq_recorded hu
      exact .inl (Board.openCount_complete_lt hc nofun)

/-- No run goes on for ever: a task uses up a completer, or leaves the stack shorter. -/
theorem wellFounded_next : WellFounded Next := by
  refine Subrelation.wf (fun {y x} hnext => ?_) (InvImage.wf
    (fun x : Desk × List Task => (x.1.board.openCount, x.2.length))
    (Prod.lex Nat.lt_wfRel Nat.lt_wfRel).wf)
  obtain ⟨ended, hm⟩ := hnext
  rcases hm.decreases with hless | ⟨hsame, hshorter⟩
  · exact Prod.Lex.left _ _ hless
  · show Prod.Lex _ _ (_, _) (_, _)
    rw [hsame]
    exact Prod.Lex.right _ hshorter

/-- A task is done as the desk says. -/
theorem moves_step (d : Desk) (t : Task) (rest : List Task) :
    ∃ ended, d.Moves (t :: rest) ended (d.step t).2 ((d.step t).1 ++ rest) := by
  have hplain (ht : (d.step t).1 = []) :
      ∃ ended, d.Moves (t :: rest) ended (d.step t).2 ((d.step t).1 ++ rest) := by
    rw [ht]
    exact ⟨_, .plain ht⟩
  match t with
  | .write note => exact hplain rfl
  | .act caller (.observe handle) => exact hplain rfl
  | .act caller (.register handle c) => exact hplain rfl
  | .act caller (.take handle) => exact hplain rfl
  | .act caller (.complete handle result) =>
      cases hu : d.useCompleter handle result with
      | mk answer d' =>
          cases answer with
          | usedUp => exact hplain (by simp only [step, hu])
          | late => exact hplain (by simp only [step, hu])
          | recorded callback =>
              rw [step_complete_of_recorded hu, List.append_assoc]
              exact ⟨_, .fires hu _ (by rintro rfl; rfl)⟩

/-- The run in which every callback does what it says. -/
theorem runs_run (d : Desk) (ts : List Task) : ∃ trace, Runs d ts trace (d.run ts) [] := by
  induction d, ts using run.induct with
  | case1 d =>
      unfold run
      exact ⟨[], .refl d []⟩
  | case2 d t rest ih =>
      obtain ⟨ended, hm⟩ := d.moves_step t rest
      obtain ⟨trace, hr⟩ := ih
      unfold run
      exact ⟨_, .step hm hr⟩

/-! ### What a run leaves behind -/

/-- A task that sets nothing off leaves every operation as it stands. -/
theorem sameOutcomes_step (h : d.board.Sound) {t : Task} (ht : (d.step t).1 = []) :
    d.board.SameOutcomes (d.step t).2.board ∧ (d.step t).2.board.Sound ∧
      (d.step t).2.handles = d.handles := by
  match t with
  | .write note => exact ⟨.refl _, h, rfl⟩
  | .act caller (.observe handle) => exact ⟨.refl _, h, rfl⟩
  | .act caller (.register handle c) =>
      exact ⟨Board.sameOutcomes_onComplete _ _ c, h.onComplete c, rfl⟩
  | .act caller (.take handle) =>
      exact ⟨Board.sameOutcomes_takeCallback _ _, h.takeCallback, rfl⟩
  | .act caller (.complete handle result) =>
      cases hu : d.useCompleter handle result with
      | mk answer d' =>
          cases answer with
          | usedUp =>
              rw [step_complete_of_usedUp hu, useCompleter_eq_usedUp hu]
              exact ⟨.refl _, h, rfl⟩
          | late => exact absurd hu (useCompleter_ne_late h)
          | recorded callback =>
              rw [step_complete_of_recorded hu] at ht
              exact absurd ht (by simp)

/-- All that has happened to the operations in a run. -/
structure Accounts (d d' : Desk) (trace : List (Nat × SendResult)) : Prop where
  once : (trace.map Prod.fst).Nodup
  ended : ∀ n r, (n, r) ∈ trace →
    d.board.isOpen n = true ∧ d'.board.isOpen n = false ∧ d'.board.result? n = some r
  others : ∀ n, n ∉ trace.map Prod.fst →
    d'.board.isOpen n = d.board.isOpen n ∧ d'.board.result? n = d.board.result? n

theorem Accounts.trans {t₁ t₂ : List (Nat × SendResult)} (h : d.Accounts d' t₁)
    (h' : d'.Accounts d'' t₂) : d.Accounts d'' (t₁ ++ t₂) := by
  -- What the first part has ended has no completer left in the second.
  have hapart : ∀ n, n ∈ t₁.map Prod.fst → n ∉ t₂.map Prod.fst := by
    intro n h₁ h₂
    obtain ⟨⟨n, r⟩, hr, rfl⟩ := List.mem_map.1 h₁
    obtain ⟨⟨m, r'⟩, hr', rfl⟩ := List.mem_map.1 h₂
    have hshut := (h.ended _ r hr).2.1
    rw [(h'.ended _ r' hr').1] at hshut
    cases hshut
  refine ⟨?_, fun n r hmem => ?_, fun n hmem => ?_⟩
  · rw [List.map_append]
    refine List.nodup_append.2 ⟨h.once, h'.once, fun n h₁ m h₂ hnm => ?_⟩
    exact hapart n h₁ (hnm ▸ h₂)
  · rcases List.mem_append.1 hmem with h₁ | h₂
    · obtain ⟨hopen, hshut, hr⟩ := h.ended n r h₁
      obtain ⟨hsame, hresult⟩ := h'.others n (hapart n (List.mem_map_of_mem h₁))
      exact ⟨hopen, hsame.trans hshut, hresult.trans hr⟩
    · obtain ⟨hopen, hshut, hr⟩ := h'.ended n r h₂
      have hnot : n ∉ t₁.map Prod.fst := fun h₁ => hapart n h₁ (List.mem_map_of_mem h₂)
      exact ⟨(h.others n hnot).1.symm.trans hopen, hshut, hr⟩
  · rw [List.map_append, List.mem_append, not_or] at hmem
    obtain ⟨hsame, hresult⟩ := h.others n hmem.1
    obtain ⟨hsame', hresult'⟩ := h'.others n hmem.2
    exact ⟨hsame'.trans hsame, hresult'.trans hresult⟩

theorem Accounts.of_sameOutcomes (h : d.board.Sound) (h' : d'.board.Sound)
    (hsame : d.board.SameOutcomes d'.board) : d.Accounts d' [] := by
  refine ⟨List.nodup_nil, nofun, fun n _ => ⟨?_, hsame.result n⟩⟩
  rw [Bool.eq_iff_iff, ← h.isPending_iff, ← h'.isPending_iff]
  exact hsame.pending n

/-- A use that records a result ends its operation and no other. -/
theorem accounts_of_recorded (h : d.board.Sound)
    (hu : d.useCompleter handle result = (.recorded callback, d')) :
    d.Accounts d' [(d.operation handle, result)] ∧ d'.board.Sound ∧ d'.handles = d.handles := by
  obtain ⟨-, hc, hhandles⟩ := useCompleter_eq_recorded hu
  have hpending := Board.isPending_of_recorded hc
  have hboard : (d.board.complete (d.operation handle) result).2 = d'.board :=
    congrArg Prod.snd hc
  have hsound : d'.board.Sound := hboard ▸ h.complete result
  refine ⟨⟨List.nodup_singleton _, fun n r hmem => ?_, fun n hmem => ?_⟩, hsound, hhandles⟩
  · obtain ⟨rfl, rfl⟩ := Prod.mk.inj (List.mem_singleton.1 hmem)
    refine ⟨h.isPending_iff.1 hpending, ?_, ?_⟩
    · cases hopen : d'.board.isOpen (d.operation handle) with
      | false => rfl
      | true =>
          have hstill := hsound.isPending_iff.2 hopen
          rw [← hboard, Board.isPending_complete_iff hpending] at hstill
          exact absurd rfl hstill.1
    · rw [← hboard, Board.result?_complete_of_pending hpending, if_pos rfl]
  · have hother : n ≠ d.operation handle := by simpa using hmem
    constructor
    · rw [Bool.eq_iff_iff, ← h.isPending_iff, ← hsound.isPending_iff, ← hboard,
        Board.isPending_complete_iff hpending]
      exact and_iff_right hother
    · rw [← hboard, Board.result?_complete_of_pending hpending, if_neg hother]

/-- A task ends one operation at most. -/
theorem Moves.accounts {ts ts' : List Task} {ended : List (Nat × SendResult)}
    (hm : d.Moves ts ended d' ts') (h : d.board.Sound) :
    d.Accounts d' ended ∧ d'.board.Sound ∧ d'.handles = d.handles := by
  cases hm with
  | plain ht =>
      obtain ⟨hsame, hsound, hhandles⟩ := sameOutcomes_step h ht
      exact ⟨.of_sameOutcomes h hsound hsame, hsound, hhandles⟩
  | fires hu tasks hnone => exact accounts_of_recorded h hu

/-- A run ends each operation at most once, and with the result of the use that took its
completer away. -/
theorem Runs.accounts {ts ts' : List Task} {trace : List (Nat × SendResult)}
    (hr : Runs d ts trace d' ts') (h : d.board.Sound) :
    d.Accounts d' trace ∧ d'.board.Sound ∧ d'.handles = d.handles := by
  induction hr with
  | refl d ts => exact ⟨.of_sameOutcomes h h (.refl _), h, rfl⟩
  | step hm _ ih =>
      obtain ⟨haccounts, hsound, hhandles⟩ := hm.accounts h
      obtain ⟨haccounts', hsound', hhandles'⟩ := ih hsound
      exact ⟨haccounts.trans haccounts', hsound', hhandles'.trans hhandles⟩

/-! ### What a callback finds -/

/-- The operation has ended with this result, and whoever looks finds it so: it carries no
callback, takes none on, and its completer is used up. -/
structure Finished (d : Desk) (n : Nat) (result : SendResult) : Prop where
  observes : ∀ caller handle, d.operation handle = n →
    d.step (.act caller (.observe handle)) = ([], d.write (.saw caller true false (some result)))
  refuses : ∀ caller handle callback, d.operation handle = n →
    d.step (.act caller (.register handle callback)) = ([], d.write (.registered caller false))
  usedUp : ∀ caller handle r, d.operation handle = n →
    d.step (.act caller (.complete handle r)) = ([], d.write (.completed caller none))

theorem finished_of_result? (h : d.board.Sound) {n : Nat} (hr : d.board.result? n = some result) :
    d.Finished n result where
  observes caller handle hn := by
    have hcallback : d.board.hasCallback n = false := by
      have hnone := h.callback?_eq_none (n := n) (by rw [hr]; simp)
      rw [Board.hasCallback, show (d.board.operation? n).bind Operation.callback = none from hnone]
      rfl
    simp only [step, hn, hcallback, Board.isDone, hr, Option.isSome_some]
  refuses caller handle callback hn := by
    have hrefused := Board.onComplete_of_result (b := d.board) (n := n) (by rw [hr]; simp) callback
    simp only [step, hn, hrefused]
  usedUp caller handle r hn := by
    have hshut : d.board.isOpen (d.operation handle) = false := by
      cases hopen : d.board.isOpen (d.operation handle) with
      | false => rfl
      | true =>
          have hnone := (h.isOpen_iff.1 hopen).2
          rw [hn, hr] at hnone
          cases hnone
    rw [step_complete_of_usedUp (useCompleter_of_isOpen_eq_false hshut r)]

/-! ### What is below on the stack -/

/-- What is below on the stack is left alone until all that is above is done. -/
theorem Runs.split {above below ts' : List Task} {trace : List (Nat × SendResult)}
    (hr : Runs d (above ++ below) trace d' ts') :
    (∃ above', ts' = above' ++ below ∧ Runs d above trace d' above') ∨
      ∃ d₁ t₁ t₂, Runs d above t₁ d₁ [] ∧ Runs d₁ below t₂ d' ts' ∧ trace = t₁ ++ t₂ := by
  generalize hts : above ++ below = ts at hr
  induction hr generalizing above with
  | refl d ts => exact .inl ⟨above, hts.symm, .refl d above⟩
  | step hm hrest ih =>
      rename_i d d₁ d' ts ts₁ ts' ended trace
      cases above with
      | nil =>
          obtain rfl : below = ts := hts
          exact .inr ⟨d, [], _, .refl d [], .step hm hrest, rfl⟩
      | cons t above =>
          -- The task is on top of the upper part, and so is what it sets off.
          have hupper : ∃ above₁, d.Moves (t :: above) ended d₁ above₁ ∧ above₁ ++ below = ts₁ := by
            cases hm with
            | plain ht =>
                obtain ⟨rfl, rfl⟩ := List.cons.inj hts
                exact ⟨above, .plain ht, rfl⟩
            | fires hu tasks hnone =>
                obtain ⟨rfl, rfl⟩ := List.cons.inj hts
                exact ⟨_, .fires hu tasks hnone, by simp⟩
          obtain ⟨above₁, hmove, hts₁⟩ := hupper
          rcases ih hts₁ with ⟨above', rfl, habove⟩ | ⟨d₂, t₁, t₂, habove, hbelow, rfl⟩
          · exact .inl ⟨above', rfl, .step hmove habove⟩
          · refine .inr ⟨d₂, ended ++ t₁, t₂, .step hmove habove, hbelow, ?_⟩
            rw [List.append_assoc]

/-- A note is written when all that was above it is done, and not before. -/
theorem Runs.written {above rest ts' : List Task} {note : Note}
    {trace : List (Nat × SendResult)} (hr : Runs d (above ++ .write note :: rest) trace d' ts') :
    (∃ above', ts' = above' ++ .write note :: rest ∧ Runs d above trace d' above') ∨
      ∃ d₁ t₁ t₂, Runs d above t₁ d₁ [] ∧ Runs (d₁.write note) rest t₂ d' ts' ∧
        trace = t₁ ++ t₂ := by
  rcases hr.split with hleft | ⟨d₁, t₁, t₂, habove, hbelow, rfl⟩
  · exact .inl hleft
  · cases hbelow with
    | refl =>
        refine .inl ⟨[], rfl, ?_⟩
        rw [List.append_nil]
        exact habove
    | step hm hrest =>
        cases hm with
        | plain ht => exact .inr ⟨d₁, t₁, _, habove, hrest, rfl⟩

/-- A stack is done from above. -/
theorem run_append (d : Desk) (above below : List Task) :
    d.run (above ++ below) = (d.run above).run below := by
  induction d, above using run.induct with
  | case1 d =>
      rw [List.nil_append, run.eq_1 d]
  | case2 d t rest ih =>
      rw [List.cons_append, run.eq_2 d, run.eq_2 d, ← List.append_assoc, ih]

theorem sound_run (h : d.board.Sound) (ts : List Task) : (d.run ts).board.Sound := by
  obtain ⟨trace, hr⟩ := d.runs_run ts
  exact (hr.accounts h).2.1

/-- What a use sets off ends before the use has its answer. -/
theorem run_complete_of_recorded (hu : d.useCompleter handle result = (.recorded callback, d'))
    (caller : String) (rest : List Task) :
    d.run (.act caller (.complete handle result) :: rest) =
      ((d'.run ((callback.map fun c => c.tasks result).getD [])).write
        (.completed caller (some true))).run rest := by
  rw [run.eq_2 d, step_complete_of_recorded hu, List.append_assoc, run_append]
  exact run.eq_2 _ _ _

/-! ### Notes -/

theorem notes_useCompleter {answer : Completion Callback}
    (h : d.useCompleter handle result = (answer, d')) : d'.notes = d.notes := by
  unfold useCompleter at h
  split at h
  · rw [← congrArg (fun x => Desk.notes (Prod.snd x)) h]
  · rw [← (Prod.mk.inj h).2]

/-- No task takes a note back. -/
theorem notes_step (d : Desk) (t : Task) : d.notes <:+ (d.step t).2.notes := by
  match t with
  | .write note => exact List.suffix_cons note d.notes
  | .act caller (.observe handle) => exact List.suffix_cons _ d.notes
  | .act caller (.register handle c) => exact List.suffix_cons _ d.notes
  | .act caller (.take handle) => exact List.suffix_cons _ d.notes
  | .act caller (.complete handle result) =>
      cases hu : d.useCompleter handle result with
      | mk answer d' =>
          have hnotes := notes_useCompleter hu
          cases answer with
          | usedUp | late =>
              simp only [step, hu, write, hnotes]
              exact List.suffix_cons _ d.notes
          | recorded callback =>
              simp only [step_complete_of_recorded hu, hnotes, List.suffix_rfl]

theorem notes_run (d : Desk) (ts : List Task) : d.notes <:+ (d.run ts).notes := by
  induction d, ts using run.induct with
  | case1 d =>
      unfold run
      exact List.suffix_rfl
  | case2 d t rest ih =>
      unfold run
      exact (d.notes_step t).trans ih

/-- A callback with a name that a use sets off notes first that it was run, and with which
result. -/
theorem notes_of_recorded {c : Callback} {name : String}
    (hu : d.useCompleter handle result = (.recorded (some c), d')) (hname : c.name = some name) :
    .ran name result :: d.notes <:+ (d'.run (c.tasks result)).notes := by
  have htasks : c.tasks result = .write (.ran name result) :: c.actions.map (.act name) := by
    rw [Callback.tasks, hname]
  rw [htasks, run.eq_2, ← notes_useCompleter hu]
  exact notes_run (d'.write (.ran name result)) _

/-- The operation of a use that records a result is finished, whatever is done next. -/
theorem Runs.finished (h : d.board.Sound)
    (hu : d.useCompleter handle result = (.recorded callback, d')) {ts ts' : List Task}
    {trace : List (Nat × SendResult)} (hr : Runs d' ts trace d'' ts') :
    d''.Finished (d.operation handle) result := by
  obtain ⟨⟨-, hended, -⟩, hsound, -⟩ := accounts_of_recorded h hu
  obtain ⟨-, hshut, hresult⟩ := hended _ result (List.mem_singleton.2 rfl)
  obtain ⟨haccounts, hsound', -⟩ := hr.accounts hsound
  have hnot : d.operation handle ∉ trace.map Prod.fst := by
    intro hmem
    obtain ⟨⟨n, r⟩, hr, hn⟩ := List.mem_map.1 hmem
    have hopen := (haccounts.ended n r hr).1
    rw [show n = d.operation handle from hn, hshut] at hopen
    cases hopen
  exact finished_of_result? hsound' ((haccounts.others _ hnot).2.trans hresult)

end Desk

/-! ## Benches -/

namespace Bench

variable {b b' : Bench} {handle : Nat} {result : SendResult} {answer : Option Bool}

/-- What a completer answers that is used from outside, and what has happened by then. -/
theorem complete_cases (h : b.desk.board.Sound)
    (hc : b.complete handle result = (answer, b')) :
    (answer = some true ∧ ∃ callback d,
        b.desk.useCompleter handle result = (.recorded callback, d) ∧
        b'.desk = d.run ((callback.map fun c => c.tasks result).getD [])) ∨
      (answer = none ∧ b' = b ∧ ∃ d, b.desk.useCompleter handle result = (.usedUp, d)) := by
  unfold complete at hc
  cases hu : b.desk.useCompleter handle result with
  | mk completion d =>
      rw [hu] at hc
      cases completion with
      | usedUp =>
          cases hc
          rw [Desk.useCompleter_eq_usedUp hu]
          exact .inr ⟨rfl, rfl, _, rfl⟩
      | late => exact absurd hu (Desk.useCompleter_ne_late h)
      | recorded callback =>
          cases hc
          exact .inl ⟨rfl, callback, d, rfl, rfl⟩

theorem sound_complete (h : b.desk.board.Sound)
    (hc : b.complete handle result = (answer, b')) : b'.desk.board.Sound := by
  rcases complete_cases h hc with ⟨-, callback, d, hu, hdesk⟩ | ⟨-, rfl, -⟩
  · rw [hdesk]
    exact Desk.sound_run (Desk.accounts_of_recorded h hu).2.1 _
  · exact h

/-- Whatever a bench is asked, its board stays sound. -/
theorem sound_perform (h : b.desk.board.Sound) (command : BenchCommand) :
    (b.perform command).2.desk.board.Sound := by
  cases command with
  | create => exact h.push Operation.sound_pending
  | createResolved r => exact h.push (Operation.sound_resolved r)
  | clone | isDone | hasCallback | tryResult | get | debugOperation | debugCompleter | wait =>
      exact h
  | onComplete handle name callback =>
      have hsound := h.onComplete (n := b.desk.operation handle) callback
      cases hc : b.desk.board.onComplete (b.desk.operation handle) callback with
      | mk taken board =>
          rw [hc] at hsound
          simp only [perform, hc]
          cases taken with
          | true => exact hsound
          | false => exact h
  | takeCallback handle keepAs =>
      have hsound := h.takeCallback (n := b.desk.operation handle)
      cases hc : b.desk.board.takeCallback (b.desk.operation handle) with
      | mk taken board =>
          rw [hc] at hsound
          simp only [perform, hc]
          cases taken with
          | none => exact h
          | some callback => exact hsound
  | call name result =>
      simp only [perform]
      cases b.kept.lookup name with
      | none => exact h
      | some callback => exact Desk.sound_run h _
  | complete handle result =>
      cases hc : b.complete handle result with
      | mk answer b' =>
          have hsound := sound_complete h hc
          simp only [perform, hc]
          cases answer <;> exact hsound
  | drop handle => exact sound_complete h rfl
  | join waiter =>
      simp only [perform]
      cases b.waiters.lookup waiter with
      | none => exact h
      | some handle =>
          cases hr : b.desk.board.result? (b.desk.operation handle) <;> simp only [hr] <;> exact h

/-- A bench that was asked to do these things, one after the other. -/
def after (commands : List BenchCommand) : Bench :=
  commands.foldl (fun b command => (b.perform command).2) {}

theorem sound_after (commands : List BenchCommand) : (after commands).desk.board.Sound := by
  have hfrom : ∀ b : Bench, b.desk.board.Sound →
      (commands.foldl (fun b command => (b.perform command).2) b).desk.board.Sound := by
    induction commands with
    | nil => exact fun b h => h
    | cons command rest ih => exact fun b h => ih _ (sound_perform h command)
  exact hfrom {} Board.sound_empty

/-- A callback with a name notes that it runs before anything else is noted. -/
theorem notes_run_complete {d d₁ : Desk} {c : Callback} {name : String}
    (hu : d.useCompleter handle result = (.recorded (some c), d₁))
    (hname : c.name = some name) (caller : String) (rest : List Task) :
    .ran name result :: d.notes <:+
      (d.run (.act caller (.complete handle result) :: rest)).notes := by
  have hbefore := Desk.notes_of_recorded hu hname
  have hafter :=
    Desk.notes_run ((d₁.run (c.tasks result)).write (.completed caller (some true))) rest
  rw [Desk.run_complete_of_recorded hu caller rest]
  exact hbefore.trans ((List.suffix_cons _ _).trans hafter)

/-- If a use finds no completer, the handle is not the owner's, or the operation has ended. -/
theorem not_open_of_usedUp {d d₁ : Desk} (h : d.board.Sound)
    (hu : d.useCompleter handle result = (.usedUp, d₁)) :
    d.isOwner handle = false ∨ d.board.isOpen (d.operation handle) = false := by
  by_contra hthere
  rw [not_or, Bool.not_eq_false, Bool.not_eq_false] at hthere
  have hpending := h.isPending_iff.2 hthere.2
  rw [Desk.useCompleter, if_pos hthere.1, Board.complete_of_pending hpending] at hu
  cases hu

/-- Completers that are used inside callbacks.  No run goes on for ever, whatever the
callbacks do; it ends when nothing is left to do, and the run of what the callbacks say
does so.  A run ends each operation at most once, with the result of the use that took
its completer away.  From this use on, and so for the callback that it runs, the operation
is done, has this result and no callback, takes none on, and its completer is used up.
A callback with a name first notes that it runs with this result.  Whatever the use sets
off is done before it answers "yes".  All this holds for a completer that is used from
outside, too. -/
theorem nested_uses_end (h : b.desk.board.Sound) :
    (∀ ts, Acc Desk.Next (b.desk, ts) ∧ ∃ trace, Desk.Runs b.desk ts trace (b.desk.run ts) []) ∧
    (∀ ts trace d ts', Desk.Runs b.desk ts trace d ts' →
      b.desk.Accounts d trace ∧ (ts' = [] ∨ ∃ y, Desk.Next y (d, ts'))) ∧
    (∀ ts trace d caller handle result rest callback d₁,
      Desk.Runs b.desk ts trace d (.act caller (.complete handle result) :: rest) →
      d.useCompleter handle result = (.recorded callback, d₁) →
      d.run (.act caller (.complete handle result) :: rest) =
        ((d₁.run ((callback.map fun c => c.tasks result).getD [])).write
          (.completed caller (some true))).run rest ∧
      (∀ c name, callback = some c → c.name = some name →
        .ran name result :: d.notes <:+
          (d.run (.act caller (.complete handle result) :: rest)).notes) ∧
      ∀ tasks trace' d' ts',
        Desk.Runs d₁ (tasks ++ .write (.completed caller (some true)) :: rest) trace' d' ts' →
        d'.Finished (d.operation handle) result ∧
        ((∃ above, ts' = above ++ .write (.completed caller (some true)) :: rest ∧
            Desk.Runs d₁ tasks trace' d' above) ∨
          ∃ d₂ t₁ t₂, Desk.Runs d₁ tasks t₁ d₂ [] ∧
            Desk.Runs (d₂.write (.completed caller (some true))) rest t₂ d' ts' ∧
            trace' = t₁ ++ t₂)) ∧
    (∀ handle result answer b', b.complete handle result = (answer, b') →
      (answer = some true ∧ b.desk.isOwner handle = true ∧
          b.desk.board.isOpen (b.desk.operation handle) = true ∧
          b'.desk.Finished (b.desk.operation handle) result ∧
          ∃ callback d₁ trace, b.desk.useCompleter handle result = (.recorded callback, d₁) ∧
            Desk.Runs d₁ ((callback.map fun c => c.tasks result).getD []) trace b'.desk [] ∧
            ∀ c name, callback = some c → c.name = some name →
              .ran name result :: b.desk.notes <:+ b'.desk.notes) ∨
        (answer = none ∧ b' = b ∧ (b.desk.isOwner handle = false ∨
          b.desk.board.isOpen (b.desk.operation handle) = false))) := by
  refine ⟨fun ts => ⟨Desk.wellFounded_next.apply _, b.desk.runs_run ts⟩, ?_, ?_, ?_⟩
  · intro ts trace d ts' hr
    refine ⟨(hr.accounts h).1, ?_⟩
    cases ts' with
    | nil => exact .inl rfl
    | cons t rest =>
        obtain ⟨ended, hm⟩ := d.moves_step t rest
        exact .inr ⟨(_, _), ended, hm⟩
  · intro ts trace d caller handle result rest callback d₁ hr hu
    have hsound := (hr.accounts h).2.1
    refine ⟨Desk.run_complete_of_recorded hu caller rest, ?_,
      fun tasks trace' d' ts' hr' => ⟨hr'.finished hsound hu, hr'.written⟩⟩
    rintro c name rfl hname
    exact notes_run_complete hu hname caller rest
  · intro handle result answer b' hc
    rcases complete_cases h hc with ⟨rfl, callback, d, hu, hdesk⟩ | ⟨rfl, rfl, d, hu⟩
    · obtain ⟨howner, hrecorded, -⟩ := Desk.useCompleter_eq_recorded hu
      obtain ⟨trace, hr⟩ := d.runs_run ((callback.map fun c => c.tasks result).getD [])
      rw [← hdesk] at hr
      have hopen := h.isPending_iff.1 (Board.isPending_of_recorded hrecorded)
      refine .inl ⟨rfl, howner, hopen, hr.finished h hu, callback, d, trace, hu, hr, ?_⟩
      rintro c name rfl hname
      rw [hdesk]
      exact Desk.notes_of_recorded hu hname
    · exact .inr ⟨rfl, rfl, not_open_of_usedUp h hu⟩

/-! ### A circle of callbacks -/

/-- Two operations.  The callback of each looks at its own, asks for a callback there, uses
the completer of the other, and then its own once more. -/
def entangled : Bench :=
  after [.create, .create,
    .onComplete 0 "a" (.mk (some "a")
      [.observe 0, .register 0 (.mk none []), .complete 1 (.error .canceled),
        .complete 0 (.error .canceled)]),
    .onComplete 1 "b" (.mk (some "b")
      [.observe 1, .register 1 (.mk none []), .complete 0 (.error .canceled),
        .complete 1 .succeeded])]

theorem entangled_ends :
    Acc Desk.Next (entangled.desk, [.act "" (.complete 0 .succeeded)]) ∧
      ∃ b', entangled.complete 0 .succeeded = (some true, b') ∧
        b'.desk.Finished 0 .succeeded ∧
        ∃ callback d trace, entangled.desk.useCompleter 0 .succeeded = (.recorded callback, d) ∧
          Desk.Runs d ((callback.map fun c => c.tasks .succeeded).getD []) trace b'.desk [] ∧
          ∀ c name, callback = some c → c.name = some name →
            .ran name .succeeded :: entangled.desk.notes <:+ b'.desk.notes := by
  obtain ⟨hends, -, -, hcomplete⟩ := nested_uses_end (sound_after _ : entangled.desk.board.Sound)
  refine ⟨(hends _).1, (entangled.complete 0 .succeeded).2, ?_⟩
  have hanswer : entangled.complete 0 .succeeded =
      (some true, (entangled.complete 0 .succeeded).2) := Prod.ext (by decide +kernel) rfl
  rcases hcomplete 0 .succeeded _ _ hanswer with ⟨-, -, -, hfinished, hruns⟩ | ⟨hnone, -⟩
  · exact ⟨hanswer, hfinished, hruns⟩
  · cases hnone

end Bench

end PeerLink
