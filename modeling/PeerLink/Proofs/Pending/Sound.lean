import PeerLink.Proofs.Pending.Results

/-!
# Sound boards

On a board that is only touched through its own operations, the completer of an
operation is there exactly as long as the operation has no result, and an
operation that has a result carries no callback.  `Board.Sound` says so, and
every operation of a board keeps it.

What a completer does is then known before it is used: as long as it is there,
its use records the result and hands out the callback, and it never comes late.

## Main results

* `Board.Sound.push`, `Board.Sound.onComplete`, `Board.Sound.takeCallback`,
  `Board.Sound.complete` — nothing makes a sound board unsound.
* `Board.Sound.isOpen_iff` — a completer is there exactly while its operation
  has no result.
-/

namespace PeerLink

variable {κ : Type}

/-- The completer is there as long as there is no result, and no callback is
left once there is one. -/
structure Operation.Sound (o : Operation κ) : Prop where
  completer : o.completer = true ↔ o.result = none
  quiet : o.result ≠ none → o.callback = none

theorem Operation.sound_pending : (Operation.pending : Operation κ).Sound :=
  ⟨by simp [pending], fun h => absurd rfl h⟩

theorem Operation.sound_resolved (r : SendResult) :
    (Operation.resolved r : Operation κ).Sound :=
  ⟨by simp [resolved], fun _ => rfl⟩

namespace Board

/-- All operations of the board are sound. -/
def Sound (b : Board κ) : Prop := ∀ n o, b.operation? n = some o → o.Sound

theorem sound_empty : (empty : Board κ).Sound := by
  intro n o ho
  simp [operation?, empty] at ho

variable {b : Board κ} {n : Nat}

theorem Sound.push (h : b.Sound) {o : Operation κ} (ho : o.Sound) : (b.push o).Sound := by
  intro m o' ho'
  rw [operation?_push] at ho'
  split at ho'
  · obtain rfl := Option.some.inj ho'
    exact ho
  · exact h m o' ho'

private theorem Sound.set (h : b.Sound) {o : Operation κ} (ho : o.Sound) :
    (b.set n o).Sound := by
  intro m o' ho'
  rw [operation?_set] at ho'
  split at ho'
  · obtain ⟨_, -, rfl⟩ := Option.map_eq_some_iff.1 ho'
    exact ho
  · exact h m o' ho'

theorem Sound.onComplete (h : b.Sound) (callback : κ) :
    (b.onComplete n callback).2.Sound := by
  unfold Board.onComplete
  split
  · exact h
  · rename_i o ho
    split
    · exact h
    · rename_i hfree
      have hr : o.result = none := by
        cases hr : o.result with
        | none => rfl
        | some r => simp [hr] at hfree
      exact h.set ⟨(h n o ho).completer, fun hne => absurd hr hne⟩

theorem Sound.takeCallback (h : b.Sound) : (b.takeCallback n).2.Sound := by
  unfold Board.takeCallback
  split
  · exact h
  · rename_i o ho
    exact h.set ⟨(h n o ho).completer, fun _ => rfl⟩

theorem Sound.complete (h : b.Sound) (r : SendResult) : (b.complete n r).2.Sound := by
  unfold Board.complete
  split
  · exact h
  · rename_i o ho
    split
    · rename_i hc
      have hr := (h n o ho).completer.1 hc
      rw [hr]
      exact h.set ⟨by simp, fun _ => rfl⟩
    · exact h

/-! ## The completer -/

theorem Sound.isPending_iff (h : b.Sound) : b.IsPending n ↔ b.isOpen n = true := by
  unfold IsPending isOpen
  cases ho : b.operation? n with
  | none => simp
  | some o =>
      have hcompleter := (h n o ho).completer
      simp only [Option.some.injEq, exists_eq_left', Option.map_some, Option.getD_some]
      exact ⟨fun hp => hp.2, fun hc => ⟨hcompleter.1 hc, hc⟩⟩

theorem Sound.isOpen_iff (h : b.Sound) :
    b.isOpen n = true ↔ n < b.size ∧ b.result? n = none := by
  rw [← h.isPending_iff]
  constructor
  · intro hp
    exact ⟨hp.lt_size, hp.result?⟩
  · rintro ⟨hn, hr⟩
    cases ho : b.operation? n with
    | none =>
        have hge := operation?_eq_none_iff.1 ho
        omega
    | some o =>
        have hnone : o.result = none := by simpa [result?, ho] using hr
        exact ⟨o, ho, hnone, (h n o ho).completer.2 hnone⟩

/-- An operation that has ended carries no callback. -/
theorem Sound.callback?_eq_none (h : b.Sound) (hr : b.result? n ≠ none) :
    b.callback? n = none := by
  unfold callback?
  cases ho : b.operation? n with
  | none => rfl
  | some o =>
      have hne : o.result ≠ none := by simpa [result?, ho] using hr
      exact (h n o ho).quiet hne

theorem complete_of_isOpen_eq_false (h : b.isOpen n = false) (r : SendResult) :
    b.complete n r = (.usedUp, b) := by
  unfold isOpen at h
  unfold complete
  cases ho : b.operation? n with
  | none => rfl
  | some o =>
      have hc : o.completer = false := by simpa [ho] using h
      simp [hc]

/-! ## Callbacks that are refused -/

theorem onComplete_of_refused {callback : κ} (h : (b.onComplete n callback).1 = false) :
    (b.onComplete n callback).2 = b := by
  unfold onComplete at h ⊢
  split
  · rfl
  · split
    · rfl
    · rename_i o ho hfree
      simp [ho, hfree] at h

/-- A callback is taken on only by an operation that carries none. -/
theorem callback?_of_onComplete {b' : Board κ} {callback : κ}
    (h : b.onComplete n callback = (true, b')) : b.callback? n = none := by
  have htaken : (b.onComplete n callback).1 = true := by rw [h]
  obtain ⟨o, ho, -, hc⟩ := (onComplete_fst b n callback).1 htaken
  simp [callback?, ho, hc]

end Board

end PeerLink
