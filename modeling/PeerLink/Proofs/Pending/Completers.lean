import PeerLink.Proofs.Pending.Family

/-!
# Completers

Every operation has one completer, and every result comes from a use of one.
`Completers` relates the results on a board to the uses that an observer has
noted: a use stands for the result it was made with, no two uses are of one
operation, and a use that has answered said yes.

Uses only ever move from stage to stage (`Completers.restage`), and a new one
is made of an operation that has no result yet (`Completers.add`); that is all
that the steps of a family do to them.

## Main results

* `Family.Reached.completers` — the uses account for all results.
* `Family.results_are_written_once` — an operation has no result exactly while
  its completer is there, the first use of the completer decides, and from then
  on everybody sees that result.
-/

namespace PeerLink

variable {κ : Type} {b b' : Board (Passed κ)} {uses : List (Use κ)}

/-- The uses of completers, and the results that stand on the board. -/
structure Completers (b : Board (Passed κ)) (uses : List (Use κ)) : Prop where
  recorded : ∀ u ∈ uses, b.result? u.operation = some u.result
  used : ∀ n r, b.result? n = some r → ∃ u ∈ uses, u.operation = n
  once : ∀ (i j : Nat) (u u' : Use κ), uses[i]? = some u → uses[j]? = some u' →
    u.operation = u'.operation → i = j
  /-- A use that has a callback to run has one. -/
  calling : ∀ u ∈ uses, u.stage = .calling → u.callback ≠ none
  answered : ∀ u ∈ uses, ∀ answer, u.stage = .returned answer → answer = true

namespace Completers

theorem congr (h : Completers b uses) (hb : ∀ n, b'.result? n = b.result? n) :
    Completers b' uses where
  recorded u hu := by rw [hb, h.recorded u hu]
  used n r hr := h.used n r (by rw [← hb, hr])
  once := h.once
  calling := h.calling
  answered := h.answered

/-- A completer is used that was there. -/
theorem add (h : Completers b uses) {u : Use κ} (hnone : b.result? u.operation = none)
    (hb : ∀ n, b'.result? n = if n = u.operation then some u.result else b.result? n)
    (hcalling : u.stage = .calling → u.callback ≠ none)
    (hanswer : ∀ answer, u.stage = .returned answer → answer = true) :
    Completers b' (uses ++ [u]) := by
  have hold : ∀ v ∈ uses, v.operation ≠ u.operation := by
    intro v hv heq
    have hrecorded := h.recorded v hv
    rw [heq, hnone] at hrecorded
    cases hrecorded
  constructor
  · intro v hv
    rw [hb]
    rcases List.mem_append.1 hv with hin | hlast
    · rw [if_neg (hold v hin), h.recorded v hin]
    · rw [List.mem_singleton.1 hlast, if_pos rfl]
  · intro n r hr
    rw [hb] at hr
    by_cases hn : n = u.operation
    · exact ⟨u, List.mem_append_right _ (List.mem_singleton.2 rfl), hn.symm⟩
    · rw [if_neg hn] at hr
      obtain ⟨v, hv, hop⟩ := h.used n r hr
      exact ⟨v, List.mem_append_left _ hv, hop⟩
  · intro i j v v' hi hj hop
    rcases getElem?_concat_cases hi with hin | ⟨hlast, heq⟩
    · rcases getElem?_concat_cases hj with hin' | ⟨-, heq'⟩
      · exact h.once i j v v' hin hin' hop
      · rw [heq'] at hop
        exact absurd hop (hold v (List.mem_of_getElem? hin))
    · rcases getElem?_concat_cases hj with hin' | ⟨hlast', -⟩
      · rw [heq] at hop
        exact absurd hop.symm (hold v' (List.mem_of_getElem? hin'))
      · rw [hlast, hlast']
  · intro v hv
    rcases List.mem_append.1 hv with hin | hlast
    · exact h.calling v hin
    · rw [List.mem_singleton.1 hlast]
      exact hcalling
  · intro v hv
    rcases List.mem_append.1 hv with hin | hlast
    · exact h.answered v hin
    · rw [List.mem_singleton.1 hlast]
      exact hanswer

/-- A use goes on to its next stage. -/
theorem restage (h : Completers b uses) {i : Nat} {u : Use κ} {stage : UseStage}
    (hi : uses[i]? = some u) (hcalling : stage ≠ .calling)
    (hanswer : ∀ answer, stage = .returned answer → answer = true) :
    Completers b (uses.set i { u with stage := stage }) := by
  have hu := List.mem_of_getElem? hi
  have hlt := (List.getElem?_eq_some_iff.1 hi).1
  constructor
  · intro v hv
    rcases List.mem_or_eq_of_mem_set hv with hold | rfl
    · exact h.recorded v hold
    · exact h.recorded u hu
  · intro n r hr
    obtain ⟨v, hv, hop⟩ := h.used n r hr
    obtain ⟨j, hj⟩ := List.getElem?_of_mem hv
    by_cases hji : j = i
    · refine ⟨_, List.mem_set hlt _, ?_⟩
      rw [hji, hi] at hj
      rw [← hop, ← Option.some.inj hj]
    · refine ⟨v, ?_, hop⟩
      refine List.mem_of_getElem? (i := j) ?_
      rw [List.getElem?_set_ne (Ne.symm hji), hj]
  · intro j k v v' hj hk hop
    rcases getElem?_set_cases hj with ⟨rfl, rfl⟩ | ⟨-, hold⟩
    · rcases getElem?_set_cases hk with ⟨rfl, -⟩ | ⟨-, hold'⟩
      · rfl
      · exact h.once _ k u v' hi hold' hop
    · rcases getElem?_set_cases hk with ⟨rfl, rfl⟩ | ⟨-, hold'⟩
      · exact h.once j _ v u hold hi hop
      · exact h.once j k v v' hold hold' hop
  · intro v hv hstage
    rcases List.mem_or_eq_of_mem_set hv with hold | rfl
    · exact h.calling v hold hstage
    · exact absurd hstage hcalling
  · intro v hv
    rcases List.mem_or_eq_of_mem_set hv with hold | rfl
    · exact h.answered v hold
    · exact hanswer

end Completers

namespace Family

variable {w w' : Family κ}

private theorem Effect.completers (he : Effect w w') (h : Completers w.board w.uses) :
    Completers w'.board w'.uses := by
  cases he with
  | aside | refuses => exact h
  | creates => exact h.congr (Board.result?_push_pending w.board)
  | createsEnded r =>
      have hnew := Board.result?_eq_none_of_size_le (Nat.le_refl w.board.size)
      refine h.add hnew (Board.result?_push w.board _) ?_ ?_
      · intro hcalling
        cases hcalling
      · intro answer hanswer
        exact (UseStage.returned.inj hanswer).symm
  | takesOn hb => exact h.congr (Board.sameOutcomes_of_onComplete hb).result
  | removes n => exact h.congr (Board.sameOutcomes_takeCallback w.board n).result
  | records r hp =>
      refine h.add hp.result? (Board.result?_complete_of_pending hp r) ?_ ?_
      · intro hcalling hnone
        simp only at hcalling hnone
        rw [hnone] at hcalling
        cases hcalling
      · intro answer hanswer
        simp only at hanswer
        split at hanswer <;> cases hanswer
  | calls hi => exact h.restage hi (by simp) (by simp)
  | finishes hi =>
      refine h.restage hi (by simp) ?_
      intro answer hanswer
      exact (UseStage.returned.inj hanswer).symm

theorem Reached.completers (h : w.Reached) : Completers w.board w.uses := by
  refine h.invariant (P := fun w => Completers w.board w.uses) ?_ ?_
  · rintro _ ⟨⟩
    constructor
    · intro u hu
      cases hu
    · intro n r hr
      cases hr
    · intro i j u u' hi
      cases hi
    · intro u hu
      cases hu
    · intro u hu
      cases hu
  · rintro w w' (hw : w.Reached) ⟨e, he⟩ hcompleters
    exact (hw.effect he).completers hcompleters

/-- An operation runs callbacks with its result only. -/
theorem Reached.invocations_eq (h : w.Reached) :
    ∀ x ∈ w.invocations, w.board.result? x.operation = some x.result := by
  refine h.invariant
    (P := fun w => ∀ x ∈ w.invocations, w.board.result? x.operation = some x.result) ?_ ?_
  · rintro _ ⟨⟩ x hx
    cases hx
  · rintro w w' (hw : w.Reached) ⟨e, he⟩ ih x hx
    have heffect := hw.effect he
    have hextends := heffect.extends
    cases heffect with
    | calls hi =>
        rcases List.mem_append.1 hx with hold | hnew
        · exact ih x hold
        · rw [List.mem_singleton.1 hnew]
          exact hw.completers.recorded _ (List.mem_of_getElem? hi)
    | _ => exact hextends _ _ (ih x hx)

/-! ## What is seen of a result -/

/-- A look adds what it shows to the sightings, and leaves the board alone. -/
private theorem sightings_of_step {e : FamilyEvent κ} (he : w.step? e = some w') :
    w'.sightings = w.sightings ∨ ∃ n l sight, w.board.look n l = some sight ∧
      w'.board = w.board ∧ w'.sightings = w.sightings ++ [⟨n, l, sight⟩] := by
  cases e with
  | look handle l =>
      obtain ⟨n, -, hsee⟩ := Option.bind_eq_some_iff.1 he
      obtain ⟨sight, hlook, rfl⟩ := Option.map_eq_some_iff.1 hsee
      exact .inr ⟨n, l, sight, hlook, rfl, rfl⟩
  | create | createEnded =>
      obtain rfl := Option.some.inj he
      exact .inl rfl
  | clone | pass | remove =>
      obtain ⟨n, -, rfl⟩ := Option.map_eq_some_iff.1 he
      exact .inl rfl
  | use | drop =>
      simp only [step?, use] at he
      split at he <;> cases he <;> exact .inl rfl
  | call =>
      simp only [step?, call] at he
      split at he <;> cases he
      exact .inl rfl
  | finish =>
      simp only [step?, finish] at he
      split at he <;> cases he
      exact .inl rfl

/-- A result that was seen stands on the board. -/
theorem Reached.seen (h : w.Reached) : ∀ s ∈ w.sightings, ∀ r,
    s.sight = .result (some r) → w.board.result? s.operation = some r := by
  refine h.invariant (P := fun w => ∀ s ∈ w.sightings, ∀ r,
    s.sight = .result (some r) → w.board.result? s.operation = some r) ?_ ?_
  · rintro _ ⟨⟩ s hs
    cases hs
  · rintro w w' (hw : w.Reached) ⟨e, he⟩ ih s hs r hr
    have hextends := (hw.effect he).extends
    rcases sightings_of_step he with hsame | ⟨n, l, sight, hlook, hboard, hnew⟩
    · rw [hsame] at hs
      exact hextends _ _ (ih s hs r hr)
    · rw [hnew] at hs
      rcases List.mem_append.1 hs with hold | hlast
      · exact hextends _ _ (ih s hold r hr)
      · obtain rfl := List.mem_singleton.1 hlast
        obtain rfl : sight = .result (some r) := hr
        rw [hboard]
        cases l with
        | isDone => cases hlook
        | hasCallback => cases hlook
        | tryResult => exact Sight.result.inj (Option.some.inj hlook)
        | get | wait =>
            obtain ⟨r', hr', heq⟩ := Option.map_eq_some_iff.1 hlook
            rw [hr', Sight.result.inj heq]

/-- Everybody who looks after an operation has ended sees how it ended. -/
theorem Steps.seen_since (hs : Steps w w') (h : w.Reached) {n : Nat} {r : SendResult}
    (hr : w.board.result? n = some r) :
    ∃ since, w'.sightings = w.sightings ++ since ∧
      ∀ s ∈ since, s.operation = n → s.sight = s.look.atEnd r := by
  refine h.along (P := fun v => ∃ since, v.sightings = w.sightings ++ since ∧
    ∀ s ∈ since, s.operation = n → s.sight = s.look.atEnd r) hs ?_ ?_
  · exact ⟨[], (List.append_nil _).symm, nofun⟩
  · rintro v v' (hv : v.Reached) (hwv : Steps w v) ⟨e, he⟩ ⟨since, hsince, hshow⟩
    rcases sightings_of_step he with hsame | ⟨m, l, sight, hlook, -, hnew⟩
    · exact ⟨since, hsame.trans hsince, hshow⟩
    · refine ⟨since ++ [⟨m, l, sight⟩], ?_, ?_⟩
      · rw [hnew, hsince, List.append_assoc]
      · intro s hmem hn
        rcases List.mem_append.1 hmem with hold | hlast
        · exact hshow s hold hn
        · obtain rfl := List.mem_singleton.1 hlast
          obtain rfl : m = n := hn
          rw [hv.sound.look_eq (hwv.extends h _ _ hr) l] at hlook
          exact (Option.some.inj hlook).symm

/-! ## Results are written once -/

/-- The result of an operation at one moment is its result at a later one, and
whoever learns of it learns that. -/
structure Final (w w' : Family κ) (n : Nat) (r : SendResult) : Prop where
  result : w'.board.result? n = some r
  /-- The completer is gone. -/
  gone : w'.board.isOpen n = false
  /-- All that was ever seen of a result is this one. -/
  seen : ∀ s ∈ w'.sightings, s.operation = n → ∀ r', s.sight = .result (some r') → r' = r
  /-- From the first moment on, every look shows that the operation has ended so. -/
  shown : ∃ since, w'.sightings = w.sightings ++ since ∧
    ∀ s ∈ since, s.operation = n → s.sight = s.look.atEnd r
  run : ∀ x ∈ w'.invocations, x.operation = n → x.result = r

theorem Reached.final (h : w.Reached) {n : Nat} {r : SendResult}
    (hr : w.board.result? n = some r) (hs : Steps w w') : Final w w' n r := by
  have hw' : w'.Reached := h.steps hs
  have hr' : w'.board.result? n = some r := hs.extends h n r hr
  constructor
  · exact hr'
  · rw [Bool.eq_false_iff, ne_eq, hw'.sound.isOpen_iff, hr']
    rintro ⟨-, hnone⟩
    cases hnone
  · intro s hmem hn r' hsight
    have hseen := hw'.seen s hmem r' hsight
    rw [hn, hr'] at hseen
    exact (Option.some.inj hseen).symm
  · exact hs.seen_since h hr
  · intro x hx hn
    have hrun := hw'.invocations_eq x hx
    rw [hn, hr'] at hrun
    exact (Option.some.inj hrun).symm

/-- As long as a completer is there, using it records the result. -/
theorem Reached.use_of_isOpen (h : w.Reached) {n : Nat} (hopen : w.board.isOpen n = true)
    (r : SendResult) : ∃ w', w.use n r = some w' ∧ w'.board.result? n = some r := by
  have hp := h.sound.isPending_iff.2 hopen
  have hresult := Board.result?_complete_of_pending hp r n
  rw [Board.complete_of_pending hp, if_pos rfl] at hresult
  unfold use
  rw [Board.complete_of_pending hp]
  exact ⟨_, rfl, hresult⟩

theorem use_of_isOpen_eq_false {n : Nat} (hgone : w.board.isOpen n = false)
    (r : SendResult) : w.use n r = none := by
  unfold use
  rw [Board.complete_of_isOpen_eq_false hgone]

/-- A use of a completer that has not answered yet can go on. -/
theorem Reached.use_goes_on (h : w.Reached) {i : Nat} {u : Use κ} (hi : w.uses[i]? = some u)
    (hstage : ∀ answer, u.stage ≠ .returned answer) :
    ∃ w', w.step? (.call i) = some w' ∨ w.step? (.finish i) = some w' := by
  obtain ⟨n, r, callback, stage⟩ := u
  cases stage with
  | calling =>
      cases callback with
      | none => exact absurd rfl (h.completers.calling _ (List.mem_of_getElem? hi) rfl)
      | some x =>
          simp only [step?, call, hi]
          exact ⟨_, .inl rfl⟩
  | running =>
      simp only [step?, finish, hi]
      exact ⟨_, .inr rfl⟩
  | returned answer => exact absurd rfl (hstage answer)

/-- Results are written once.  An operation has no result exactly while its
completer is there, that is, while no use of it has been made.  As long as it is
there, using it records the result and dropping it records that the send was
canceled; after that it can be neither used nor dropped.  A use stands for its
result, and has answered yes or goes on to do so.  Once an operation has a
result, nothing changes it, and everybody who looks, at any handle, and every
callback that the operation runs learns this result and no other. -/
theorem results_are_written_once (h : w.Reached) :
    (∀ n < w.board.size, (w.board.result? n = none ↔ w.board.isOpen n = true) ∧
      (w.board.isOpen n = true ↔ ∀ u ∈ w.uses, u.operation ≠ n)) ∧
    (∀ n, w.board.isOpen n = true →
      (∀ r, ∃ w', w.step? (.use n r) = some w' ∧ w'.board.result? n = some r) ∧
      ∃ w', w.step? (.drop n) = some w' ∧ w'.board.result? n = some (.error .canceled)) ∧
    (∀ n, w.board.isOpen n = false →
      (∀ r, w.step? (.use n r) = none) ∧ w.step? (.drop n) = none) ∧
    (∀ i u, w.uses[i]? = some u → w.board.result? u.operation = some u.result ∧
      (u.stage = .returned true ∨
        ∃ w', w.step? (.call i) = some w' ∨ w.step? (.finish i) = some w')) ∧
    ∀ n r, w.board.result? n = some r → ∀ w', Steps w w' → Final w w' n r := by
  refine ⟨fun n hn => ⟨?_, ?_⟩, ?_, ?_, ?_, fun n r hr w' hs => h.final hr hs⟩
  · rw [h.sound.isOpen_iff]
    exact ⟨fun hnone => ⟨hn, hnone⟩, fun hopen => hopen.2⟩
  · rw [h.sound.isOpen_iff]
    constructor
    · rintro ⟨-, hnone⟩ u hu heq
      have hrecorded := h.completers.recorded u hu
      rw [heq, hnone] at hrecorded
      cases hrecorded
    · intro hunused
      refine ⟨hn, ?_⟩
      by_contra hsome
      obtain ⟨r, hr⟩ := Option.ne_none_iff_exists'.1 hsome
      obtain ⟨u, hu, hop⟩ := h.completers.used n r hr
      exact hunused u hu hop
  · intro n hopen
    exact ⟨h.use_of_isOpen hopen, h.use_of_isOpen hopen _⟩
  · intro n hgone
    exact ⟨use_of_isOpen_eq_false hgone, use_of_isOpen_eq_false hgone _⟩
  · intro i u hi
    have hu := List.mem_of_getElem? hi
    refine ⟨h.completers.recorded u hu, ?_⟩
    by_cases hreturned : ∃ answer, u.stage = .returned answer
    · obtain ⟨answer, hanswer⟩ := hreturned
      have htrue := h.completers.answered u hu answer hanswer
      rw [htrue] at hanswer
      exact .inl hanswer
    · exact .inr (h.use_goes_on hi fun answer hanswer => hreturned ⟨answer, hanswer⟩)

/-- Two operations.  The callback of the first, while it runs, drops the
completer of the second, whose callback runs there and then; somebody waits at a
clone of the first. -/
def nested : Family Nat :=
  Family.after {}
    [.create, .create, .clone 0, .pass 2 7, .pass 1 8, .look 2 .tryResult, .use 0 .succeeded,
      .call 0, .drop 1, .call 1, .finish 1, .finish 0, .look 2 .wait]

theorem nested_results_stay :
    nested.board.result? 0 = some .succeeded ∧
      nested.board.result? 1 = some (.error .canceled) ∧
      (∀ u ∈ nested.uses, u.stage = .returned true) ∧
      ∀ w', Steps nested w' →
        Final nested w' 0 .succeeded ∧ Final nested w' 1 (.error .canceled) := by
  have hfirst : nested.board.result? 0 = some .succeeded := by rfl
  have hsecond : nested.board.result? 1 = some (.error .canceled) := by rfl
  have hreturned : nested.uses.map (·.stage) = [.returned true, .returned true] := by rfl
  obtain ⟨-, -, -, -, hfinal⟩ :=
    results_are_written_once ((Reachable.start .empty).after _ : nested.Reached)
  refine ⟨hfirst, hsecond, fun u hu => ?_, fun w' hs => ?_⟩
  · have hstage := List.mem_map_of_mem (f := fun u : Use Nat => u.stage) hu
    rw [hreturned] at hstage
    simpa using hstage
  · exact ⟨hfinal 0 _ hfirst w' hs, hfinal 1 _ hsecond w' hs⟩

end Family

end PeerLink
