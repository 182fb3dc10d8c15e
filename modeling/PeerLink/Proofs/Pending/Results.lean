import Mathlib.Data.List.Basic
import PeerLink.Pending.Board

/-!
# Results stay

A board records a result once.  Whatever is done to it afterwards, the result
of an operation that has ended is the one it ended with: `Board.Extends` says
so of two boards, and every operation of the board is shown to extend it.

A history of endings is what an observer of all boards of a run writes down:
at each change, the operations whose result is not what it was.  Because
results stay, such a history names every operation that has ended once, and
with the result that stands on the board (`Board.Recorded.append`).

## Main results

* `Board.extends_complete`, `Board.extends_push`, `Board.extends_takeCallback` — nothing
  takes a result back.
* `Board.Recorded.append` — the history stays true along an extension.
* `Board.result?_complete_of_pending` — a completer of a pending operation
  ends that operation and no other.
-/

namespace PeerLink

/-- A list with one element replaced has that element, and its other ones. -/
theorem getElem?_set_cases {α : Type} {xs : List α} {i j : Nat} {x y : α}
    (h : (xs.set i x)[j]? = some y) :
    (j = i ∧ y = x) ∨ (j ≠ i ∧ xs[j]? = some y) := by
  rw [List.getElem?_set] at h
  by_cases hij : i = j
  · left
    rw [if_pos hij] at h
    split at h
    · exact ⟨hij.symm, (Option.some.inj h).symm⟩
    · cases h
  · right
    rw [if_neg hij] at h
    exact ⟨Ne.symm hij, h⟩

/-- A list with one more element has its old ones, and the new one at the end. -/
theorem getElem?_concat_cases {α : Type} {xs : List α} {i : Nat} {x y : α}
    (h : (xs ++ [x])[i]? = some y) : xs[i]? = some y ∨ i = xs.length ∧ y = x := by
  rw [List.getElem?_append] at h
  split at h
  · exact .inl h
  · have hlt := (List.getElem?_eq_some_iff.1 h).1
    rw [List.length_singleton] at hlt
    exact .inr ⟨by omega, List.mem_singleton.1 (List.mem_of_getElem? h)⟩

namespace Board

variable {κ : Type}

/-! ## Views of one operation -/

/-- The callback an operation carries. -/
def callback? (b : Board κ) (n : Nat) : Option κ :=
  (b.operation? n).bind Operation.callback

/-- The operation has no result and its completer is still there. -/
def IsPending (b : Board κ) (n : Nat) : Prop :=
  ∃ o, b.operation? n = some o ∧ o.result = none ∧ o.completer = true

theorem operation?_eq_none_iff {b : Board κ} {n : Nat} :
    b.operation? n = none ↔ b.size ≤ n :=
  Array.getElem?_eq_none_iff

theorem lt_size_of_operation? {b : Board κ} {n : Nat} {o : Operation κ}
    (h : b.operation? n = some o) : n < b.size := by
  rcases Nat.lt_or_ge n b.size with hlt | hge
  · exact hlt
  · rw [operation?_eq_none_iff.2 hge] at h
    cases h

theorem lt_size_of_result? {b : Board κ} {n : Nat} {r : SendResult}
    (h : b.result? n = some r) : n < b.size := by
  obtain ⟨o, ho, -⟩ := Option.bind_eq_some_iff.1 h
  exact lt_size_of_operation? ho

theorem result?_eq_none_of_size_le {b : Board κ} {n : Nat} (h : b.size ≤ n) :
    b.result? n = none := by
  rw [result?, operation?_eq_none_iff.2 h]
  rfl

theorem callback?_eq_none_of_size_le {b : Board κ} {n : Nat} (h : b.size ≤ n) :
    b.callback? n = none := by
  rw [callback?, operation?_eq_none_iff.2 h]
  rfl

theorem IsPending.result? {b : Board κ} {n : Nat} (h : b.IsPending n) :
    b.result? n = none := by
  obtain ⟨o, ho, hr, -⟩ := h
  simp [Board.result?, ho, hr]

theorem IsPending.lt_size {b : Board κ} {n : Nat} (h : b.IsPending n) :
    n < b.size := by
  obtain ⟨o, ho, -, -⟩ := h
  exact lt_size_of_operation? ho

/-! ### A new operation -/

@[simp] theorem size_push (b : Board κ) (o : Operation κ) :
    (b.push o).size = b.size + 1 := by
  simp [size, push]

theorem result?_push (b : Board κ) (o : Operation κ) (n : Nat) :
    (b.push o).result? n = if n = b.size then o.result else b.result? n := by
  simp only [Board.result?, operation?_push]
  split <;> rfl

theorem callback?_push (b : Board κ) (o : Operation κ) (n : Nat) :
    (b.push o).callback? n = if n = b.size then o.callback else b.callback? n := by
  simp only [callback?, operation?_push]
  split <;> rfl

/-- A new operation that has not ended leaves the results alone. -/
theorem result?_push_pending (b : Board κ) (n : Nat) :
    (b.push .pending).result? n = b.result? n := by
  rw [result?_push]
  split
  · rename_i hn
    rw [result?_eq_none_of_size_le (Nat.le_of_eq hn.symm)]
    rfl
  · rfl

/-- A new operation without a callback leaves the callbacks alone. -/
theorem callback?_push_of_none (b : Board κ) {o : Operation κ} (ho : o.callback = none)
    (n : Nat) : (b.push o).callback? n = b.callback? n := by
  rw [callback?_push]
  split
  · rename_i hn
    rw [ho, callback?_eq_none_of_size_le (Nat.le_of_eq hn.symm)]
  · rfl

theorem isPending_push_iff (b : Board κ) (o : Operation κ) (n : Nat) :
    (b.push o).IsPending n ↔
      if n = b.size then o.result = none ∧ o.completer = true else b.IsPending n := by
  simp only [IsPending, operation?_push]
  by_cases hn : n = b.size
  · simp [hn]
  · simp [hn]

/-! ### An operation replaced -/

private theorem result?_set {b : Board κ} {n : Nat} {o o' : Operation κ}
    (ho : b.operation? n = some o) (m : Nat) :
    (b.set n o').result? m = if m = n then o'.result else b.result? m := by
  simp only [Board.result?, operation?_set]
  by_cases hm : m = n
  · subst hm
    simp [ho]
  · rw [if_neg (Ne.symm hm), if_neg hm]

private theorem callback?_set {b : Board κ} {n : Nat} {o o' : Operation κ}
    (ho : b.operation? n = some o) (m : Nat) :
    (b.set n o').callback? m = if m = n then o'.callback else b.callback? m := by
  simp only [callback?, operation?_set]
  by_cases hm : m = n
  · subst hm
    simp [ho]
  · rw [if_neg (Ne.symm hm), if_neg hm]

private theorem isPending_set_iff {b : Board κ} {n : Nat} {o o' : Operation κ}
    (ho : b.operation? n = some o) (m : Nat) :
    (b.set n o').IsPending m ↔
      if m = n then o'.result = none ∧ o'.completer = true else b.IsPending m := by
  simp only [IsPending, operation?_set]
  by_cases hm : m = n
  · subst hm
    simp [ho]
  · rw [if_neg (Ne.symm hm), if_neg hm]

/-! ## Using the completer of a pending operation -/

theorem complete_of_pending {b : Board κ} {n : Nat} (h : b.IsPending n) (r : SendResult) :
    b.complete n r = (.recorded (b.callback? n), b.set n ⟨some r, none, false⟩) := by
  obtain ⟨o, ho, hr, hc⟩ := h
  simp [complete, callback?, ho, hr, hc]

theorem result?_complete_of_pending {b : Board κ} {n : Nat} (h : b.IsPending n)
    (r : SendResult) (m : Nat) :
    (b.complete n r).2.result? m = if m = n then some r else b.result? m := by
  obtain ⟨o, ho, -, -⟩ := id h
  rw [complete_of_pending h, result?_set ho]

theorem callback?_complete_of_pending {b : Board κ} {n : Nat} (h : b.IsPending n)
    (r : SendResult) (m : Nat) :
    (b.complete n r).2.callback? m = if m = n then none else b.callback? m := by
  obtain ⟨o, ho, -, -⟩ := id h
  rw [complete_of_pending h, callback?_set ho]

theorem isPending_complete_iff {b : Board κ} {n : Nat} (h : b.IsPending n)
    (r : SendResult) (m : Nat) :
    (b.complete n r).2.IsPending m ↔ m ≠ n ∧ b.IsPending m := by
  obtain ⟨o, ho, -, -⟩ := id h
  rw [complete_of_pending h, isPending_set_iff ho]
  by_cases hm : m = n
  · simp [hm]
  · simp [hm]

@[simp] theorem size_complete (b : Board κ) (n : Nat) (r : SendResult) :
    (b.complete n r).2.size = b.size := by
  unfold complete
  split
  · rfl
  · split
    · split <;> simp
    · rfl

/-! ## Callbacks leave the outcome alone -/

/-- Two boards on which every operation has the same result and completer. -/
structure SameOutcomes (b b' : Board κ) : Prop where
  size : b'.size = b.size
  result : ∀ n, b'.result? n = b.result? n
  pending : ∀ n, b'.IsPending n ↔ b.IsPending n

theorem SameOutcomes.refl (b : Board κ) : SameOutcomes b b :=
  ⟨rfl, fun _ => rfl, fun _ => Iff.rfl⟩

private theorem sameOutcomes_set {b : Board κ} {n : Nat} {o o' : Operation κ}
    (ho : b.operation? n = some o) (hr : o'.result = o.result)
    (hc : o'.completer = o.completer) : SameOutcomes b (b.set n o') where
  size := size_set b n o'
  result m := by
    rw [result?_set ho]
    split
    · rename_i hm
      subst hm
      simp [Board.result?, ho, hr]
    · rfl
  pending m := by
    rw [isPending_set_iff ho]
    split
    · rename_i hm
      subst hm
      simp [IsPending, ho, hr, hc]
    · rfl

theorem sameOutcomes_onComplete (b : Board κ) (n : Nat) (callback : κ) :
    SameOutcomes b (b.onComplete n callback).2 := by
  unfold onComplete
  split
  · exact .refl b
  · rename_i o ho
    split
    · exact .refl b
    · exact sameOutcomes_set ho rfl rfl

theorem sameOutcomes_of_onComplete {b b' : Board κ} {n : Nat} {callback : κ} {answer : Bool}
    (h : b.onComplete n callback = (answer, b')) : SameOutcomes b b' := by
  have hsame := sameOutcomes_onComplete b n callback
  rw [h] at hsame
  exact hsame

theorem sameOutcomes_takeCallback (b : Board κ) (n : Nat) :
    SameOutcomes b (b.takeCallback n).2 := by
  unfold takeCallback
  split
  · exact .refl b
  · rename_i o ho
    exact sameOutcomes_set ho rfl rfl

/-- A callback that is taken on stands where it was asked for, and nowhere else. -/
theorem callback?_onComplete {b b' : Board κ} {n : Nat} {callback : κ}
    (h : b.onComplete n callback = (true, b')) (m : Nat) :
    b'.callback? m = if m = n then some callback else b.callback? m := by
  unfold onComplete at h
  split at h
  · cases h
  · rename_i o ho
    split at h
    · cases h
    · cases h
      rw [callback?_set ho]

/-- A callback that is taken off leaves an operation without one. -/
theorem callback?_takeCallback (b : Board κ) (n m : Nat) :
    (b.takeCallback n).2.callback? m = if m = n then none else b.callback? m := by
  unfold takeCallback
  cases ho : b.operation? n with
  | none =>
      simp only [callback?]
      split
      · rename_i hm
        rw [hm, ho]
        rfl
      · rfl
  | some o => exact callback?_set ho m

@[simp] theorem takeCallback_fst (b : Board κ) (n : Nat) :
    (b.takeCallback n).1 = b.callback? n := by
  unfold takeCallback callback?
  cases b.operation? n <;> rfl

/-- A callback is taken on only by an operation without a result. -/
theorem result?_of_onComplete {b b' : Board κ} {n : Nat} {callback : κ}
    (h : b.onComplete n callback = (true, b')) : b.result? n = none := by
  have htaken : (b.onComplete n callback).1 = true := by rw [h]
  obtain ⟨o, ho, hr, -⟩ := (onComplete_fst b n callback).1 htaken
  simp [Board.result?, ho, hr]

/-- A refusal says that the operation has ended or carries a callback. -/
theorem result?_of_refused {b b' : Board κ} {n : Nat} {callback : κ}
    (h : b.onComplete n callback = (false, b')) (hn : n < b.size)
    (hc : b.callback? n = none) : b.result? n ≠ none := by
  intro hr
  cases ho : b.operation? n with
  | none =>
      have := operation?_eq_none_iff.1 ho
      omega
  | some o =>
      have hres : o.result = none := by simpa [Board.result?, ho] using hr
      have hcall : o.callback = none := by simpa [callback?, ho] using hc
      have htaken := (onComplete_fst b n callback).2 ⟨o, ho, hres, hcall⟩
      rw [h] at htaken
      cases htaken

/-! ## Extensions -/

/-- Every operation that has ended on the first board has ended on the second
with the same result. -/
def Extends (b b' : Board κ) : Prop :=
  ∀ n r, b.result? n = some r → b'.result? n = some r

theorem Extends.refl (b : Board κ) : Extends b b := fun _ _ h => h

theorem Extends.trans {a b c : Board κ} (hab : Extends a b) (hbc : Extends b c) :
    Extends a c :=
  fun n r h => hbc n r (hab n r h)

theorem SameOutcomes.extends {b b' : Board κ} (h : SameOutcomes b b') : Extends b b' := by
  intro n r hr
  rw [h.result]
  exact hr

theorem extends_push (b : Board κ) (o : Operation κ) : Extends b (b.push o) := by
  intro n r hr
  have hn := lt_size_of_result? hr
  rw [result?_push, if_neg (by omega)]
  exact hr

theorem extends_takeCallback (b : Board κ) (n : Nat) : Extends b (b.takeCallback n).2 :=
  (sameOutcomes_takeCallback b n).extends

/-- Even a completer that is used twice takes nothing back. -/
theorem extends_complete (b : Board κ) (n : Nat) (result : SendResult) :
    Extends b (b.complete n result).2 := by
  unfold complete
  split
  · exact .refl b
  · rename_i o ho
    split
    · split
      · intro m r hr
        rw [result?_set ho]
        split
        · rename_i hm
          subst hm
          simpa [Board.result?, ho] using hr
        · exact hr
      · rename_i hnone
        intro m r hr
        rw [result?_set ho, if_neg]
        · exact hr
        · rintro rfl
          simp only [Board.result?, ho, Option.bind_some] at hr
          simp [hr] at hnone
    · exact .refl b

/-! ## Histories -/

/-- The operations whose result is not what it was, with their results. -/
def endings (before after : Board κ) : List (Nat × SendResult) :=
  (List.range after.size).filterMap fun n =>
    if after.result? n = before.result? n then none
    else (after.result? n).map fun r => (n, r)

/-- What a history says about one operation. -/
def endingsOf (history : List (Nat × SendResult)) (n : Nat) : List SendResult :=
  (history.filter fun e => e.1 == n).map Prod.snd

theorem endingsOf_append (h h' : List (Nat × SendResult)) (n : Nat) :
    endingsOf (h ++ h') n = endingsOf h n ++ endingsOf h' n := by
  simp [endingsOf]

/-- Looking for `n` among numbered entries finds the entry made for `n`. -/
private theorem endingsOf_filterMap (f : Nat → Option SendResult) (n m : Nat) :
    endingsOf ((List.range m).filterMap fun i => (f i).map fun r => (i, r)) n =
      if n < m then (f n).toList else [] := by
  induction m with
  | zero => rfl
  | succ m ih =>
      rw [List.range_succ, List.filterMap_append, endingsOf_append, ih]
      have hlast : endingsOf (([m].filterMap fun i => (f i).map fun r => (i, r))) n =
          if n = m then (f n).toList else [] := by
        by_cases hn : n = m
        · subst hn
          cases hf : f n <;> simp [endingsOf, hf]
        · cases hf : f m <;> simp [endingsOf, hf, hn, Ne.symm hn]
      rw [hlast]
      by_cases hlt : n < m
      · rw [if_pos hlt, if_neg (by omega), if_pos (by omega), List.append_nil]
      · rw [if_neg hlt, List.nil_append]
        by_cases heq : n = m
        · rw [if_pos heq, if_pos (by omega)]
        · rw [if_neg heq, if_neg (by omega)]

/-- What the change of a board says about one operation. -/
theorem endingsOf_endings (before after : Board κ) (n : Nat) :
    endingsOf (endings before after) n =
      if after.result? n = before.result? n then [] else (after.result? n).toList := by
  have hform : endings before after = (List.range after.size).filterMap fun i =>
      ((if after.result? i = before.result? i then none else after.result? i).map
        fun r => (i, r)) := by
    unfold endings
    congr 1
    funext i
    split <;> rfl
  rw [hform, endingsOf_filterMap]
  by_cases hn : n < after.size
  · rw [if_pos hn]
    split <;> rfl
  · rw [if_neg hn]
    cases hr : after.result? n with
    | none => simp
    | some r => exact absurd (lt_size_of_result? hr) hn

/-- A board that does not change has no endings. -/
theorem endings_self (b : Board κ) : endings b b = [] := by
  simp [endings]

/-- A history that names every operation that has ended once, with the result
on the board, and no other operation. -/
def Recorded (history : List (Nat × SendResult)) (b : Board κ) : Prop :=
  ∀ n, endingsOf history n = (b.result? n).toList

theorem Recorded.append {history : List (Nat × SendResult)} {b b' : Board κ}
    (h : Recorded history b) (hext : Extends b b') :
    Recorded (history ++ endings b b') b' := by
  intro n
  rw [endingsOf_append, h n, endingsOf_endings]
  cases hr : b.result? n with
  | none =>
      cases hr' : b'.result? n with
      | none => simp
      | some r' => simp
  | some r =>
      rw [hext n r hr]
      simp

end Board

end PeerLink
