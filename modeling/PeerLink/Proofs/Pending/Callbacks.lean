import PeerLink.Proofs.Pending.Custody

/-!
# Callbacks

Where is a callback that was passed to an operation?  `Family.Stands` lists the
answers: it was refused, or taken off again, or it is registered, or it has been
run.  Between the two parts of a completer's use there is a moment at which the
callback has left the board and does not run yet.  It is `due` then, and nothing
but the call itself is left to be done with it.

Custody gives each callback one of these situations and no second one, and
`Family.situation` computes it from the notes.

## Main results

* `Family.Reached.stands_iff` — each callback is in one situation, which can be
  computed.
* `Family.every_callback_is_accounted_for` — refused, removed, registered, or run
  once with the result of the operation.
-/

namespace PeerLink

namespace Family

variable {κ : Type} {w w' : Family κ} {e : FamilyEvent κ}

/-! ## The situation of a callback -/

/-- Where a callback that was passed to an operation can be. -/
inductive Situation
  /-- The operation handed it back at once. -/
  | refused
  /-- Somebody took it off. -/
  | removed
  /-- The operation carries it. -/
  | registered
  /-- The completer has taken it off and is about to run it. -/
  | due
  /-- The operation has begun to run it. -/
  | run
  deriving DecidableEq, Repr

/-- A callback that is there stays there. -/
def Situation.isFinal : Situation → Bool
  | .refused | .removed | .run => true
  | .registered | .due => false

/-- The callback of a passing is in this situation. -/
def Stands (w : Family κ) (p : Passing κ) : Situation → Prop
  | .refused => p.takenOn = false ∧ w.runsOf p.passed = []
  | .removed => ⟨p.operation, p.passed, none⟩ ∈ w.departures ∧ w.runsOf p.passed = []
  | .registered => w.board.callback? p.operation = some p.passed ∧
      w.board.result? p.operation = none ∧ w.runsOf p.passed = []
  | .due => (∃ r, ⟨p.operation, r, some p.passed, .calling⟩ ∈ w.uses) ∧ w.runsOf p.passed = []
  | .run => ∃ r, w.board.result? p.operation = some r ∧
      w.runsOf p.passed = [⟨p.operation, p.passed, r⟩]

/-- The situation that the callback of a passing is in. -/
def situation (w : Family κ) (p : Passing κ) : Situation :=
  match p.takenOn, w.departures.find? (fun d => d.passed.number == p.passed.number) with
  | false, _ => .refused
  | true, none => .registered
  | true, some ⟨_, _, none⟩ => .removed
  | true, some ⟨_, _, some _⟩ => if (w.runsOf p.passed).isEmpty then .due else .run

section Standing

variable {p : Passing κ}

theorem Reached.stands_refused (h : w.Reached) (hp : p ∈ w.passings)
    (hrefused : p.takenOn = false) : Stands w p .refused := by
  refine ⟨hrefused, h.runsOf_eq_nil fun d hd heq => ?_⟩
  have hpassing := h.custody.passing_inj (h.custody.passing_of_departure hd) hp heq
  rw [← hpassing] at hrefused
  cases hrefused

theorem Reached.stands_removed (h : w.Reached)
    (hd : ⟨p.operation, p.passed, none⟩ ∈ w.departures) : Stands w p .removed := by
  refine ⟨hd, h.runsOf_eq_nil fun d hd' heq => ?_⟩
  rw [h.custody.departure_inj hd' hd heq]

theorem Reached.stands_registered (h : w.Reached)
    (hx : w.board.callback? p.operation = some p.passed) : Stands w p .registered := by
  refine ⟨hx, ?_, h.runsOf_eq_nil fun d hd heq => absurd heq (h.custody.departed_ne hd hx)⟩
  by_contra hended
  rw [h.sound.callback?_eq_none hended] at hx
  cases hx

/-- A callback that has left to be run is due, or has been run. -/
theorem Reached.stands_departed (h : w.Reached) {r : SendResult}
    (hd : ⟨p.operation, p.passed, some r⟩ ∈ w.departures) :
    (Stands w p .due ∧ w.runsOf p.passed = []) ∨
      (Stands w p .run ∧ w.runsOf p.passed = [⟨p.operation, p.passed, r⟩]) := by
  obtain ⟨u, hu, hop, hx, hr⟩ := h.custody.use_of_departure hd
  have hruns := h.runsOf_eq hu hx
  have hresult := h.completers.recorded u hu
  obtain ⟨n, r', callback, stage⟩ := u
  obtain rfl : n = p.operation := hop
  obtain rfl : callback = some p.passed := hx
  obtain rfl : r' = r := hr
  unfold Use.invocation? at hruns
  by_cases hcalling : stage = .calling
  · rw [if_pos hcalling] at hruns
    rw [hcalling] at hu
    exact .inl ⟨⟨⟨r', hu⟩, hruns⟩, hruns⟩
  · rw [if_neg hcalling] at hruns
    exact .inr ⟨⟨r', hresult, hruns⟩, hruns⟩

theorem Reached.stands_run (h : w.Reached) {r : SendResult}
    (hy : ⟨p.operation, p.passed, r⟩ ∈ w.invocations) : Stands w p .run := by
  rcases h.stands_departed (h.departure_of_invocation hy) with ⟨-, hnone⟩ | ⟨hrun, -⟩
  · have hmem : ⟨p.operation, p.passed, r⟩ ∈ w.runsOf p.passed :=
      List.mem_filter.2 ⟨hy, beq_self_eq_true _⟩
    rw [hnone] at hmem
    cases hmem
  · exact hrun

theorem Stands.invoked (hs : Stands w p .run) :
    ∃ r, ⟨p.operation, p.passed, r⟩ ∈ w.invocations := by
  obtain ⟨r, -, hruns⟩ := hs
  have hmem : ⟨p.operation, p.passed, r⟩ ∈ w.runsOf p.passed := by
    rw [hruns]
    exact List.mem_singleton.2 rfl
  exact ⟨r, List.mem_of_mem_filter hmem⟩

/-- The operation that has taken a callback on has let it go, or carries it. -/
theorem Reached.departed_or_registered (h : w.Reached) (hp : p ∈ w.passings)
    (htaken : p.takenOn = true) :
    (∃ r, ⟨p.operation, p.passed, r⟩ ∈ w.departures) ∨
      w.board.callback? p.operation = some p.passed := by
  have hmem : p.passed ∈ w.takenOnAt p.operation := by
    refine Custody.mem_takenOnAt_iff.2 ?_
    rw [← htaken]
    exact hp
  rw [h.custody.kept] at hmem
  rcases List.mem_append.1 hmem with hleft | hthere
  · left
    obtain ⟨⟨n, x, r⟩, hd, rfl⟩ := List.mem_map.1 hleft
    obtain ⟨hd, hop⟩ := List.mem_filter.1 hd
    rw [← beq_iff_eq.1 hop]
    exact ⟨r, hd⟩
  · exact .inr (Option.mem_toList.1 hthere)

theorem Reached.exists_stands (h : w.Reached) (hp : p ∈ w.passings) : ∃ s, Stands w p s := by
  cases htaken : p.takenOn with
  | false => exact ⟨_, h.stands_refused hp htaken⟩
  | true =>
      rcases h.departed_or_registered hp htaken with ⟨r, hd⟩ | hx
      · cases r with
        | none => exact ⟨_, h.stands_removed hd⟩
        | some r =>
            rcases h.stands_departed hd with ⟨hdue, -⟩ | ⟨hrun, -⟩
            · exact ⟨_, hdue⟩
            · exact ⟨_, hrun⟩
      · exact ⟨_, h.stands_registered hx⟩

/-- A departure of the callback is the one that is found. -/
private theorem Reached.situation_departed (h : w.Reached) (hp : p ∈ w.passings)
    {r : Option SendResult} (hd : ⟨p.operation, p.passed, r⟩ ∈ w.departures) :
    w.situation p = match r with
      | none => .removed
      | some _ => if (w.runsOf p.passed).isEmpty then .due else .run := by
  have htaken : p.takenOn = true := by
    rw [← h.custody.passing_inj (h.custody.passing_of_departure hd) hp rfl]
  have hfind : w.departures.find? (fun d => d.passed.number == p.passed.number) =
      some ⟨p.operation, p.passed, r⟩ := by
    cases hfind : w.departures.find? fun d => d.passed.number == p.passed.number with
    | none => exact absurd (beq_self_eq_true _) (List.find?_eq_none.1 hfind _ hd)
    | some d =>
        have heq := List.find?_some hfind
        rw [h.custody.departure_inj (List.mem_of_find?_eq_some hfind) hd (beq_iff_eq.1 heq)]
  unfold situation
  rw [htaken, hfind]
  cases r <;> rfl

theorem Reached.situation_eq (h : w.Reached) (hp : p ∈ w.passings) {s : Situation}
    (hs : Stands w p s) : w.situation p = s := by
  cases s with
  | refused =>
      unfold situation
      rw [hs.1]
  | removed => exact h.situation_departed hp hs.1
  | registered =>
      have hpassing := h.custody.passing_inj (h.custody.passing_of_callback? hs.1) hp rfl
      have hfind : w.departures.find? (fun d => d.passed.number == p.passed.number) = none := by
        refine List.find?_eq_none.2 fun d hd heq => ?_
        exact h.custody.departed_ne hd hs.1 (beq_iff_eq.1 heq)
      unfold situation
      rw [hfind, ← hpassing]
  | due =>
      obtain ⟨⟨r, hu⟩, hnone⟩ := hs
      rw [h.situation_departed hp (h.custody.departure_of_use hu rfl), hnone]
      rfl
  | run =>
      obtain ⟨r, hy⟩ := Stands.invoked hs
      obtain ⟨r', -, hruns⟩ := hs
      rw [h.situation_departed hp (h.departure_of_invocation hy), hruns]
      rfl

theorem Reached.stands_iff (h : w.Reached) (hp : p ∈ w.passings) {s : Situation} :
    Stands w p s ↔ w.situation p = s := by
  constructor
  · exact h.situation_eq hp
  · intro heq
    obtain ⟨s', hs'⟩ := h.exists_stands hp
    rw [← heq, h.situation_eq hp hs']
    exact hs'

/-! ## From one moment to a later one -/

private theorem Effect.grows (he : Effect w w') : w.passings ⊆ w'.passings ∧
    w.departures ⊆ w'.departures ∧ w.invocations ⊆ w'.invocations := by
  cases he with
  | aside | creates | createsEnded | finishes =>
      exact ⟨List.Subset.refl _, List.Subset.refl _, List.Subset.refl _⟩
  | takesOn | refuses =>
      exact ⟨List.subset_append_left _ _, List.Subset.refl _, List.Subset.refl _⟩
  | removes | records =>
      exact ⟨List.Subset.refl _, List.subset_append_left _ _, List.Subset.refl _⟩
  | calls => exact ⟨List.Subset.refl _, List.Subset.refl _, List.subset_append_left _ _⟩

theorem Steps.grows (hs : Steps w w') (h : w.Reached) : w.passings ⊆ w'.passings ∧
    w.departures ⊆ w'.departures ∧ w.invocations ⊆ w'.invocations := by
  refine h.along (P := fun v => w.passings ⊆ v.passings ∧
    w.departures ⊆ v.departures ∧ w.invocations ⊆ v.invocations) hs ?_ ?_
  · exact ⟨List.Subset.refl _, List.Subset.refl _, List.Subset.refl _⟩
  · rintro v v' (hv : v.Reached) - ⟨e, he⟩ ⟨hp, hd, hi⟩
    obtain ⟨hp', hd', hi'⟩ := (hv.effect he).grows
    exact ⟨List.Subset.trans hp hp', List.Subset.trans hd hd', List.Subset.trans hi hi'⟩

/-- A callback that was refused, taken off or run stays so. -/
theorem Reached.stands_later (h : w.Reached) (hp : p ∈ w.passings) {s : Situation}
    (hs : Stands w p s) (hfinal : s.isFinal = true) (hsteps : Steps w w') : Stands w' p s := by
  have hw' : w'.Reached := h.steps hsteps
  obtain ⟨hpassings, hdepartures, hinvocations⟩ := hsteps.grows h
  cases s with
  | refused => exact hw'.stands_refused (hpassings hp) hs.1
  | removed => exact hw'.stands_removed (hdepartures hs.1)
  | registered => cases hfinal
  | due => cases hfinal
  | run =>
      obtain ⟨r, hy⟩ := Stands.invoked hs
      exact hw'.stands_run (hinvocations hy)

/-- An operation without a result that refused a callback has taken another one on. -/
theorem Reached.refused_for (h : w.Reached) : ∀ p ∈ w.passings, p.takenOn = false →
    w.board.result? p.operation = none → ∃ x, ⟨p.operation, x, true⟩ ∈ w.passings := by
  refine h.invariant (P := fun w => ∀ p ∈ w.passings, p.takenOn = false →
    w.board.result? p.operation = none → ∃ x, ⟨p.operation, x, true⟩ ∈ w.passings) ?_ ?_
  · rintro _ ⟨⟩ p hp
    cases hp
  rintro w w' (hw : w.Reached) ⟨e, he⟩ ih p hp hrefused hnone
  have heffect := hw.effect he
  have hold : p ∈ w.passings → ∃ x, ⟨p.operation, x, true⟩ ∈ w'.passings := by
    intro hin
    have hbefore : w.board.result? p.operation = none := by
      by_contra hsome
      obtain ⟨r, hr⟩ := Option.ne_none_iff_exists'.1 hsome
      rw [heffect.extends _ r hr] at hnone
      cases hnone
    obtain ⟨x, hx⟩ := ih p hin hrefused hbefore
    exact ⟨x, heffect.grows.1 hx⟩
  cases heffect with
  | takesOn hb =>
      rcases List.mem_append.1 hp with hin | hlast
      · exact hold hin
      · rw [List.mem_singleton.1 hlast] at hrefused
        cases hrefused
  | refuses n callback hn hb =>
      rcases List.mem_append.1 hp with hin | hlast
      · exact hold hin
      · obtain rfl := List.mem_singleton.1 hlast
        -- the operation is there and has no result, so it carries a callback
        have hcarries : w.board.callback? n ≠ none := fun hfree =>
          Board.result?_of_refused (Prod.ext hb rfl) (hw.lt_size_of_handle n hn) hfree hnone
        obtain ⟨x, hx⟩ := Option.ne_none_iff_exists'.1 hcarries
        exact ⟨x, List.mem_append_left _ (hw.custody.passing_of_callback? hx)⟩
  | _ => exact hold hp

/-- The use that has taken a callback off goes on to run it. -/
theorem Reached.due_goes_on (h : w.Reached) (hs : Stands w p .due) :
    ∃ i w', w.step? (.call i) = some w' ∧ Stands w' p .run := by
  obtain ⟨⟨r, hu⟩, -⟩ := hs
  obtain ⟨i, hi⟩ := List.getElem?_of_mem hu
  have hcall : ∃ w', w.step? (.call i) = some w' ∧
      ⟨p.operation, p.passed, r⟩ ∈ w'.invocations := by
    simp only [step?, call, hi]
    exact ⟨_, rfl, List.mem_append_right _ (List.mem_singleton.2 rfl)⟩
  obtain ⟨w', he, hmem⟩ := hcall
  exact ⟨i, w', he, Reached.stands_run (h.step he) hmem⟩

/-- A callback that was taken on, and not taken off again, runs when the operation
ends: it has run, or the use of the completer runs it next. -/
theorem Reached.runsOf_at_end (h : w.Reached) (hp : p ∈ w.passings) (htaken : p.takenOn = true)
    {r : SendResult} (hr : w.board.result? p.operation = some r)
    (hkept : ∀ d ∈ w.departures, d.passed.number = p.passed.number → d.result ≠ none) :
    w.runsOf p.passed = [⟨p.operation, p.passed, r⟩] ∨
      w.runsOf p.passed = [] ∧ ∃ i w', w.step? (.call i) = some w' ∧
        w'.runsOf p.passed = [⟨p.operation, p.passed, r⟩] := by
  have hruns : ∀ {v : Family κ}, v.board.result? p.operation = some r → Stands v p .run →
      v.runsOf p.passed = [⟨p.operation, p.passed, r⟩] := by
    rintro v hv ⟨r', hr', hruns⟩
    rw [hv] at hr'
    rw [hruns, Option.some.inj hr']
  rcases h.departed_or_registered hp htaken with ⟨result, hd⟩ | hx
  · cases result with
    | none => exact absurd rfl (hkept _ hd rfl)
    | some r' =>
        rcases h.stands_departed hd with ⟨hdue, hnone⟩ | ⟨hrun, -⟩
        · obtain ⟨i, w', he, hrun⟩ := h.due_goes_on hdue
          have hr' := (h.effect he).extends _ r hr
          exact .inr ⟨hnone, i, w', he, hruns hr' hrun⟩
        · exact .inl (hruns hr hrun)
  · have hpending := (h.stands_registered hx).2.1
    rw [hr] at hpending
    cases hpending

/-- No step puts another callback in the place of one that is registered. -/
theorem Reached.registered_stays (h : w.Reached) {n : Nat} {x : Passed κ}
    (hx : w.board.callback? n = some x) (he : w.step? e = some w') :
    w'.board.callback? n = some x ∨
      w'.board.callback? n = none ∧ ∃ r, ⟨n, x, r⟩ ∈ w'.departures := by
  have hleaves : ∀ {m : Nat} {r : Option SendResult} {b : Board (Passed κ)},
      b.callback? n = (if n = m then none else w.board.callback? n) →
      b.callback? n = some x ∨ b.callback? n = none ∧
        ∃ r', ⟨n, x, r'⟩ ∈ w.departures ++
          ((w.board.callback? m).map fun y => (⟨m, y, r⟩ : Departure κ)).toList := by
    intro m r b hb
    by_cases hn : n = m
    · rw [if_pos hn] at hb
      rw [← hn, hx]
      exact .inr ⟨hb, r, List.mem_append_right _ (List.mem_singleton.2 rfl)⟩
    · rw [if_neg hn] at hb
      exact .inl (hb.trans hx)
  cases h.effect he with
  | aside | refuses | calls | finishes => exact .inl hx
  | creates => exact .inl ((Board.callback?_push_of_none w.board (o := .pending) rfl n).trans hx)
  | createsEnded r =>
      exact .inl ((Board.callback?_push_of_none w.board (o := .resolved r) rfl n).trans hx)
  | takesOn hb =>
      left
      rw [Board.callback?_onComplete hb, if_neg]
      · exact hx
      · rintro rfl
        rw [Board.callback?_of_onComplete hb] at hx
        cases hx
  | removes m => exact hleaves (Board.callback?_takeCallback w.board m n)
  | records r hp => exact hleaves (Board.callback?_complete_of_pending hp r n)

end Standing

/-! ## Every callback is accounted for -/

/-- Every callback that was ever passed to an operation is accounted for.  It was
refused, or taken off again, and is not run; or the operation carries it and has
no result; or the operation has run it once, with its result.  While the
completer of the operation is in the middle of its use there is one more
situation, in which the next thing that the use can do is to run the callback.
A callback that was refused, taken off or run stays so, and one is refused only by
an operation that has ended or has taken on another.  An operation with a result
carries no callback, and no step puts another callback in the place of one that
is registered. -/
theorem every_callback_is_accounted_for (h : w.Reached) :
    (∀ p ∈ w.passings, (∃! s, Stands w p s) ∧
      ((∀ u ∈ w.uses, u.operation = p.operation → u.stage ≠ .calling) →
        ∃! s, s ≠ .due ∧ Stands w p s)) ∧
    (∀ p ∈ w.passings, Stands w p .due →
      ∃ i w', w.step? (.call i) = some w' ∧ Stands w' p .run) ∧
    (∀ p ∈ w.passings, ∀ s, Stands w p s → s.isFinal = true →
      ∀ w', Steps w w' → Stands w' p s) ∧
    (∀ p ∈ w.passings, Stands w p .refused → w.board.result? p.operation = none →
      ∃ x, ⟨p.operation, x, true⟩ ∈ w.passings) ∧
    (∀ n, w.board.result? n = none ∨ w.board.callback? n = none) ∧
    ∀ n x, w.board.callback? n = some x → ∀ e w', w.step? e = some w' →
      w'.board.callback? n = some x ∨
        w'.board.callback? n = none ∧ ∃ r, ⟨n, x, r⟩ ∈ w'.departures := by
  refine ⟨fun p hp => ?_, fun p _ => h.due_goes_on, fun p hp s hs hfinal w' hsteps => ?_,
    fun p hp hs => h.refused_for p hp hs.1, fun n => ?_,
    fun n x hx e w' he => h.registered_stays hx he⟩
  · have hstands : Stands w p (w.situation p) := (h.stands_iff hp).2 rfl
    refine ⟨⟨_, hstands, fun s hs => (h.situation_eq hp hs).symm⟩, fun hidle => ?_⟩
    refine ⟨_, ⟨fun hdue => ?_, hstands⟩, fun s hs => (h.situation_eq hp hs.2).symm⟩
    rw [hdue] at hstands
    obtain ⟨⟨r, hu⟩, -⟩ := hstands
    exact hidle _ hu rfl rfl
  · exact h.stands_later hp hs hfinal hsteps
  · by_cases hr : w.board.result? n = none
    · exact .inl hr
    · exact .inr (h.sound.callback?_eq_none hr)

/-- Five callbacks and three operations.  The second callback is refused, the
third is taken off; the fourth, while it runs, leaves the fifth with the last
operation, whose completer is then dropped. -/
def errand : Family Nat :=
  Family.after {}
    [.create, .create, .create, .pass 0 5, .pass 0 6, .pass 1 7, .remove 1, .pass 1 8,
      .use 1 .succeeded, .call 0, .pass 2 9, .drop 2]

theorem errand_is_accounted_for :
    errand.passings.map errand.situation = [.registered, .refused, .removed, .run, .due] ∧
      (∀ p ∈ errand.passings, ∃! s, Stands errand p s) ∧
      ∀ p ∈ errand.passings, Stands errand p .removed →
        ∀ w', Steps errand w' → Stands w' p .removed := by
  obtain ⟨hone, -, hlater, -, -, -⟩ :=
    every_callback_is_accounted_for ((Reachable.start .empty).after _ : errand.Reached)
  refine ⟨rfl, fun p hp => (hone p hp).1, fun p hp hremoved => ?_⟩
  exact hlater p hp .removed hremoved rfl

end Family

end PeerLink
