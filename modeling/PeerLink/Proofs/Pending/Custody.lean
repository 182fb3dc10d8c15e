import Mathlib.Data.List.Nodup
import PeerLink.Proofs.Pending.Completers

/-!
# Custody of callbacks

Every callback that was passed to an operation is somewhere.  The operation
refused it, or somebody took it off again, or it is still on the board, or the
completer took it off to run it.  `Custody` says so in four equations between an
observer's notes: above all, the callbacks an operation has taken on are those
that have left it, in this order, followed by the one it carries.

Passings are numbered, so a callback that is found in one of these places is
found in no other.

## Main results

* `Family.Reached.custody` — no callback is lost or doubled by a step.
* `Family.Custody.departure_inj`, `Family.Custody.departed_ne` — a callback
  leaves once, and is then on no operation.
* `Family.Reached.runsOf_eq`, `Family.Reached.runsOf_eq_nil` — what has been run
  of a callback.
-/

namespace PeerLink

variable {κ : Type}

/-- The callback that the use of a completer has taken off. -/
def Use.departure? (u : Use κ) : Option (Departure κ) :=
  u.callback.map fun x => ⟨u.operation, x, some u.result⟩

/-- The run of a callback that the use of a completer has begun. -/
def Use.invocation? (u : Use κ) : Option (Invocation κ) :=
  if u.stage = .calling then none else u.callback.map fun x => ⟨u.operation, x, u.result⟩

namespace Family

variable {w w' : Family κ} {e : FamilyEvent κ}

/-- The callbacks that an operation has taken on, in order. -/
def takenOnAt (w : Family κ) (n : Nat) : List (Passed κ) :=
  (w.passings.filter fun p => p.takenOn && p.operation == n).map Passing.passed

/-- The callbacks that have left an operation, in order. -/
def departedAt (w : Family κ) (n : Nat) : List (Passed κ) :=
  (w.departures.filter fun d => d.operation == n).map Departure.passed

/-- What an operation has run. -/
def invocationsAt (w : Family κ) (n : Nat) : List (Invocation κ) :=
  w.invocations.filter fun y => y.operation == n

/-- All runs of one callback. -/
def runsOf (w : Family κ) (x : Passed κ) : List (Invocation κ) :=
  w.invocations.filter fun y => y.passed.number == x.number

/-- Where the callbacks are. -/
structure Custody (w : Family κ) : Prop where
  /-- Passings are numbered in order. -/
  numbered : ∀ (i : Nat) (p : Passing κ), w.passings[i]? = some p → p.passed.number = i
  /-- What was taken on has left, or is there. -/
  kept : ∀ n, w.takenOnAt n = w.departedAt n ++ (w.board.callback? n).toList
  /-- What has left to be run was taken off by the use of a completer. -/
  owed : w.departures.filter (fun d => d.result.isSome) = w.uses.filterMap Use.departure?
  /-- An operation has run what the use of its completer has begun to run. -/
  paid : ∀ u ∈ w.uses, w.invocationsAt u.operation = u.invocation?.toList

/-! ## Every step keeps custody -/

private theorem Effect.numbered (he : Effect w w') (h : Custody w) :
    ∀ (i : Nat) (p : Passing κ), w'.passings[i]? = some p → p.passed.number = i := by
  have hnew : ∀ (q : Passing κ), q.passed.number = w.passings.length →
      ∀ (i : Nat) (p : Passing κ), (w.passings ++ [q])[i]? = some p → p.passed.number = i := by
    intro q hq i p hi
    rcases getElem?_concat_cases hi with hold | ⟨hlast, hp⟩
    · exact h.numbered i p hold
    · rw [hp, hq, hlast]
  cases he with
  | takesOn hb => exact hnew _ rfl
  | refuses n callback => exact hnew _ rfl
  | _ => exact h.numbered

private theorem departedAt_append (ds : List (Departure κ)) (callback : Option (Passed κ))
    (r : Option SendResult) (n m : Nat) :
    ((ds ++ (callback.map fun x => (⟨n, x, r⟩ : Departure κ)).toList).filter
        fun d => d.operation == m).map Departure.passed =
      (ds.filter fun d => d.operation == m).map Departure.passed ++
        if m = n then callback.toList else [] := by
  rw [List.filter_append, List.map_append]
  congr 1
  cases callback with
  | none => simp
  | some x =>
      by_cases hm : m = n
      · simp [hm]
      · simp [hm, Ne.symm hm]

/-- A callback that leaves its operation is in custody as before. -/
private theorem Custody.kept_departing (h : Custody w) {n : Nat} {r : Option SendResult}
    {ds : List (Departure κ)} {b : Board (Passed κ)}
    (hds : ds = w.departures ++
      ((w.board.callback? n).map fun x => (⟨n, x, r⟩ : Departure κ)).toList)
    (hb : ∀ m, b.callback? m = if m = n then none else w.board.callback? m) (m : Nat) :
    w.takenOnAt m = (ds.filter fun d => d.operation == m).map Departure.passed ++
      (b.callback? m).toList := by
  rw [h.kept m, hds, departedAt_append, hb, List.append_assoc]
  unfold departedAt
  congr 1
  by_cases hm : m = n
  · rw [if_pos hm, if_pos hm, hm]
    simp
  · rw [if_neg hm, if_neg hm, List.nil_append]

private theorem Effect.kept (he : Effect w w') (h : Custody w) (m : Nat) :
    w'.takenOnAt m = w'.departedAt m ++ (w'.board.callback? m).toList := by
  cases he with
  | aside | calls | finishes => exact h.kept m
  | creates =>
      have hkept := h.kept m
      rw [← Board.callback?_push_of_none w.board (o := .pending) rfl m] at hkept
      exact hkept
  | createsEnded r =>
      have hkept := h.kept m
      rw [← Board.callback?_push_of_none w.board (o := .resolved r) rfl m] at hkept
      exact hkept
  | refuses n callback =>
      have hkept := h.kept m
      unfold takenOnAt departedAt at hkept ⊢
      rw [List.filter_append, List.map_append, hkept]
      exact List.append_nil _
  | takesOn hb =>
      rename_i n callback board
      have hfree := Board.callback?_of_onComplete hb
      have hkept := h.kept m
      unfold takenOnAt departedAt at hkept ⊢
      rw [List.filter_append, List.map_append, hkept, Board.callback?_onComplete hb]
      by_cases hm : m = n
      · simp [hm, hfree]
      · simp [hm, Ne.symm hm]
  | removes n => exact h.kept_departing rfl (Board.callback?_takeCallback w.board n) m
  | records r hp => exact h.kept_departing rfl (Board.callback?_complete_of_pending hp r) m

private theorem filterMap_set_of_eq {α β : Type} {f : α → Option β} {xs : List α} {i : Nat}
    {x y : α} (hi : xs[i]? = some x) (hf : f y = f x) :
    (xs.set i y).filterMap f = xs.filterMap f := by
  induction xs generalizing i with
  | nil => rfl
  | cons z xs ih =>
      cases i with
      | zero =>
          obtain rfl : z = x := Option.some.inj hi
          rw [List.set_cons_zero, List.filterMap_cons, List.filterMap_cons, hf]
      | succ i =>
          rw [List.set_cons_succ, List.filterMap_cons, List.filterMap_cons, ih hi]

private theorem Effect.owed (he : Effect w w') (h : Custody w) :
    w'.departures.filter (fun d => d.result.isSome) = w'.uses.filterMap Use.departure? := by
  cases he with
  | aside | creates | takesOn | refuses => exact h.owed
  | createsEnded r =>
      rw [List.filterMap_append, ← h.owed]
      exact (List.append_nil _).symm
  | removes n =>
      rw [List.filter_append, ← h.owed]
      cases w.board.callback? n with
      | none => exact List.append_nil _
      | some x => exact List.append_nil _
  | records r hp =>
      rw [List.filter_append, List.filterMap_append, ← h.owed]
      congr 1
      cases w.board.callback? _ with
      | none => rfl
      | some x => rfl
  | calls hi =>
      rw [filterMap_set_of_eq hi (by rfl)]
      exact h.owed
  | finishes hi =>
      rw [filterMap_set_of_eq hi (by rfl)]
      exact h.owed

/-- An operation without a result has run nothing. -/
private theorem Reached.invocationsAt_eq_nil (hw : w.Reached) {n : Nat}
    (hr : w.board.result? n = none) : w.invocationsAt n = [] := by
  refine List.filter_eq_nil_iff.2 fun y hy heq => ?_
  have hresult := hw.invocations_eq y hy
  rw [beq_iff_eq.1 heq, hr] at hresult
  cases hresult

/-- A new use has run nothing. -/
private theorem Reached.paid_append (hw : w.Reached) (h : Custody w) {u : Use κ}
    (hr : w.board.result? u.operation = none) (hu : u.invocation? = none) :
    ∀ v ∈ w.uses ++ [u], w.invocationsAt v.operation = v.invocation?.toList := by
  intro v hv
  rcases List.mem_append.1 hv with hold | hlast
  · exact h.paid v hold
  · rw [List.mem_singleton.1 hlast, hu]
    exact hw.invocationsAt_eq_nil hr

private theorem Effect.paid (he : Effect w w') (hw : w.Reached) (h : Custody w) :
    ∀ u ∈ w'.uses, w'.invocationsAt u.operation = u.invocation?.toList := by
  cases he with
  | aside | creates | takesOn | refuses | removes => exact h.paid
  | createsEnded r =>
      have hnew := Board.result?_eq_none_of_size_le (Nat.le_refl w.board.size)
      exact hw.paid_append h hnew rfl
  | records r hp =>
      refine hw.paid_append h hp.result? ?_
      unfold Use.invocation?
      cases w.board.callback? _ with
      | none => rfl
      | some x => rfl
  | calls hi =>
      rename_i i n r x
      have hbefore := h.paid _ (List.mem_of_getElem? hi)
      intro u hu
      obtain ⟨j, hj⟩ := List.getElem?_of_mem hu
      unfold invocationsAt at hbefore ⊢
      rw [List.filter_append]
      rcases getElem?_set_cases hj with ⟨-, rfl⟩ | ⟨hji, hold⟩
      · rw [hbefore]
        simp [Use.invocation?]
      · -- the other uses are of other operations
        have hne : n ≠ u.operation := fun heq =>
          hji (hw.completers.once j i u _ hold hi heq.symm)
        have hsame := h.paid u (List.mem_of_getElem? hold)
        unfold invocationsAt at hsame
        rw [hsame]
        simp [hne]
  | finishes hi =>
      have hbefore := h.paid _ (List.mem_of_getElem? hi)
      intro u hu
      rcases List.mem_or_eq_of_mem_set hu with hold | rfl
      · exact h.paid u hold
      · exact hbefore

theorem Reached.custody (h : w.Reached) : Custody w := by
  refine h.invariant (P := Custody) ?_ ?_
  · rintro _ ⟨⟩
    refine ⟨?_, fun n => rfl, rfl, ?_⟩
    · intro i p hi
      cases hi
    · intro u hu
      cases hu
  · rintro w w' (hw : w.Reached) ⟨e, he⟩ hcustody
    have heffect := hw.effect he
    exact ⟨heffect.numbered hcustody, heffect.kept hcustody, heffect.owed hcustody,
      heffect.paid hw hcustody⟩

/-! ## A callback is in one place -/

namespace Custody

/-- A number stands for one passing. -/
theorem passing_inj (h : Custody w) {p q : Passing κ} (hp : p ∈ w.passings)
    (hq : q ∈ w.passings) (hpq : p.passed.number = q.passed.number) : p = q := by
  obtain ⟨i, hi⟩ := List.getElem?_of_mem hp
  obtain ⟨j, hj⟩ := List.getElem?_of_mem hq
  rw [h.numbered i p hi, h.numbered j q hj] at hpq
  rw [hpq, hj] at hi
  exact (Option.some.inj hi).symm

theorem mem_takenOnAt_iff {n : Nat} {x : Passed κ} :
    x ∈ w.takenOnAt n ↔ ⟨n, x, true⟩ ∈ w.passings := by
  unfold takenOnAt
  constructor
  · intro hx
    obtain ⟨⟨m, y, takenOn⟩, hmem, rfl⟩ := List.mem_map.1 hx
    obtain ⟨hp, hcond⟩ := List.mem_filter.1 hmem
    obtain ⟨rfl, rfl⟩ : takenOn = true ∧ m = n := by simpa using hcond
    exact hp
  · intro hp
    exact List.mem_map.2 ⟨_, List.mem_filter.2 ⟨hp, by simp⟩, rfl⟩

/-- A callback that has left an operation was taken on by it. -/
theorem passing_of_departure (h : Custody w) {d : Departure κ} (hd : d ∈ w.departures) :
    ⟨d.operation, d.passed, true⟩ ∈ w.passings := by
  refine mem_takenOnAt_iff.1 ?_
  rw [h.kept]
  refine List.mem_append_left _ (List.mem_map.2 ⟨d, List.mem_filter.2 ⟨hd, ?_⟩, rfl⟩)
  exact beq_self_eq_true _

theorem passing_of_callback? (h : Custody w) {n : Nat} {x : Passed κ}
    (hx : w.board.callback? n = some x) : ⟨n, x, true⟩ ∈ w.passings := by
  refine mem_takenOnAt_iff.1 ?_
  rw [h.kept, hx]
  exact List.mem_append_right _ (List.mem_singleton.2 rfl)

private theorem nodup (h : Custody w) (n : Nat) : ((w.takenOnAt n).map Passed.number).Nodup := by
  have hall : w.passings.map (fun p => p.passed.number) = List.range w.passings.length := by
    refine List.ext_getElem? fun i => ?_
    rw [List.getElem?_map]
    cases hi : w.passings[i]? with
    | none => simpa using hi
    | some p =>
        have hlt := (List.getElem?_eq_some_iff.1 hi).1
        rw [Option.map_some, h.numbered i p hi, List.getElem?_range hlt]
  have hsub : ((w.takenOnAt n).map Passed.number).Sublist
      (w.passings.map fun p => p.passed.number) := by
    unfold takenOnAt
    rw [List.map_map]
    exact List.filter_sublist.map _
  rw [hall] at hsub
  exact hsub.nodup List.nodup_range

/-- A callback leaves once. -/
theorem departure_inj (h : Custody w) {d d' : Departure κ} (hd : d ∈ w.departures)
    (hd' : d' ∈ w.departures) (heq : d.passed.number = d'.passed.number) : d = d' := by
  have hpassing := h.passing_inj (h.passing_of_departure hd) (h.passing_of_departure hd') heq
  have hop : d.operation = d'.operation := congrArg Passing.operation hpassing
  have hnodup := h.nodup d.operation
  rw [h.kept, List.map_append] at hnodup
  unfold departedAt at hnodup
  rw [List.map_map] at hnodup
  refine List.inj_on_of_nodup_map (List.nodup_append.1 hnodup).1 ?_ ?_ heq
  · exact List.mem_filter.2 ⟨hd, beq_self_eq_true _⟩
  · exact List.mem_filter.2 ⟨hd', beq_iff_eq.2 hop.symm⟩

/-- A callback that has left is on no operation. -/
theorem departed_ne (h : Custody w) {d : Departure κ} (hd : d ∈ w.departures) {n : Nat}
    {x : Passed κ} (hx : w.board.callback? n = some x) : d.passed.number ≠ x.number := by
  intro heq
  have hpassing := h.passing_inj (h.passing_of_departure hd) (h.passing_of_callback? hx) heq
  have hop : d.operation = n := congrArg Passing.operation hpassing
  have hnodup := h.nodup n
  rw [h.kept, hx, List.map_append] at hnodup
  refine (List.nodup_append.1 hnodup).2.2 _ (List.mem_map.2 ⟨d.passed, ?_, rfl⟩) x.number ?_ heq
  · exact List.mem_map.2 ⟨d, List.mem_filter.2 ⟨hd, beq_iff_eq.2 hop⟩, rfl⟩
  · exact List.mem_singleton.2 rfl

theorem departure_of_use (h : Custody w) {u : Use κ} (hu : u ∈ w.uses) {x : Passed κ}
    (hx : u.callback = some x) : ⟨u.operation, x, some u.result⟩ ∈ w.departures := by
  have hmem : ⟨u.operation, x, some u.result⟩ ∈ w.uses.filterMap Use.departure? := by
    refine List.mem_filterMap.2 ⟨u, hu, ?_⟩
    rw [Use.departure?, hx]
    rfl
  rw [← h.owed] at hmem
  exact List.mem_of_mem_filter hmem

theorem use_of_departure (h : Custody w) {n : Nat} {x : Passed κ} {r : SendResult}
    (hd : ⟨n, x, some r⟩ ∈ w.departures) :
    ∃ u ∈ w.uses, u.operation = n ∧ u.callback = some x ∧ u.result = r := by
  have hmem : ⟨n, x, some r⟩ ∈ w.departures.filter fun d => d.result.isSome :=
    List.mem_filter.2 ⟨hd, rfl⟩
  rw [h.owed] at hmem
  obtain ⟨u, hu, heq⟩ := List.mem_filterMap.1 hmem
  obtain ⟨y, hy, heq⟩ := Option.map_eq_some_iff.1 heq
  cases heq
  exact ⟨u, hu, rfl, hy, rfl⟩

end Custody

/-- What has been run had been taken off to be run. -/
theorem Reached.departure_of_invocation (h : w.Reached) {y : Invocation κ}
    (hy : y ∈ w.invocations) : ⟨y.operation, y.passed, some y.result⟩ ∈ w.departures := by
  obtain ⟨u, hu, hop⟩ := h.completers.used _ _ (h.invocations_eq y hy)
  have hmem : y ∈ w.invocationsAt u.operation :=
    List.mem_filter.2 ⟨hy, beq_iff_eq.2 hop.symm⟩
  rw [h.custody.paid u hu, Option.mem_toList, Use.invocation?] at hmem
  split at hmem
  · cases hmem
  · obtain ⟨x, hx, rfl⟩ := Option.map_eq_some_iff.1 hmem
    exact h.custody.departure_of_use hu hx

/-- The completer that has taken a callback off has run it, or is about to. -/
theorem Reached.runsOf_eq (h : w.Reached) {u : Use κ} (hu : u ∈ w.uses) {x : Passed κ}
    (hx : u.callback = some x) : w.runsOf x = u.invocation?.toList := by
  have hdeparted := h.custody.departure_of_use hu hx
  have honly : ∀ y ∈ w.invocations, y.passed.number = x.number → y.operation = u.operation := by
    intro y hy heq
    have hsame := h.custody.departure_inj (h.departure_of_invocation hy) hdeparted heq
    exact congrArg Departure.operation hsame
  have hfilter : w.runsOf x =
      (w.invocationsAt u.operation).filter fun y => y.passed.number == x.number := by
    unfold runsOf invocationsAt
    rw [List.filter_filter]
    refine List.filter_congr fun y hy => ?_
    by_cases heq : y.passed.number = x.number
    · simp [heq, honly y hy heq]
    · simp [heq]
  rw [hfilter, h.custody.paid u hu, Use.invocation?, hx]
  split
  · rfl
  · simp

/-- A callback that has not left to be run has not been run. -/
theorem Reached.runsOf_eq_nil (h : w.Reached) {x : Passed κ}
    (hx : ∀ d ∈ w.departures, d.passed.number = x.number → d.result = none) :
    w.runsOf x = [] := by
  refine List.filter_eq_nil_iff.2 fun y hy heq => ?_
  have hnone := hx _ (h.departure_of_invocation hy) (beq_iff_eq.1 heq)
  cases hnone

end Family

end PeerLink
