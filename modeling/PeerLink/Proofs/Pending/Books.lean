import PeerLink.Proofs.Pending.Results

/-!
# Keeping books on a board

Whoever owns the completers of a board has ended some operations and still has
to end others.  `Board.Books` says that the two lists he keeps are right: what
he has ended stands on the board, what he has not ended is pending, and no
operation without a result is missing from his lists.

Each thing that is done to a board comes with the lemma that keeps the books.

## Main results

* `Board.Books.settle` — ending the next operation moves it from one list to
  the other.
* `Board.Books.enter`, `Board.Books.refuse`, `Board.Books.turnAway` — a new
  operation is pending, has failed already, or fails at once.
-/

namespace PeerLink.Board

variable {κ : Type} {b b' : Board κ} {done : List (Nat × SendResult)} {todo : List Nat}

/-- The operations in `done` have ended with the result written there, and
those in `todo` are the ones that have no result yet. -/
structure Books (b : Board κ) (done : List (Nat × SendResult)) (todo : List Nat) :
    Prop where
  ended : ∀ e ∈ done, b.result? e.1 = some e.2
  pending : ∀ n ∈ todo, b.IsPending n
  complete : ∀ n < b.size, b.result? n = none → n ∈ todo
  /-- Nobody else ends an operation well. -/
  succeeded : ∀ n, b.result? n = some .succeeded → (n, .succeeded) ∈ done
  nodup : todo.Nodup

namespace Books

theorem lt_size (h : b.Books done todo) {n : Nat} (hn : n ∈ todo) : n < b.size :=
  (h.pending n hn).lt_size

/-- The books name no number that is yet to come. -/
private theorem fresh (h : b.Books done todo) : b.size ∉ todo := by
  intro hmem
  exact Nat.lt_irrefl _ (h.lt_size hmem)

/-- When nothing is left to do, every operation has ended. -/
theorem all_ended (h : b.Books done []) {n : Nat} (hn : n < b.size) :
    ∃ r, b.result? n = some r := by
  cases hr : b.result? n with
  | some r => exact ⟨r, rfl⟩
  | none => cases h.complete n hn hr

theorem congr (h : b.Books done todo) (hb : b.SameOutcomes b') : b'.Books done todo where
  ended e he := by rw [hb.result, h.ended e he]
  pending n hn := (hb.pending n).2 (h.pending n hn)
  complete n hn hr := by
    rw [hb.size] at hn
    rw [hb.result] at hr
    exact h.complete n hn hr
  succeeded n hr := by
    rw [hb.result] at hr
    exact h.succeeded n hr
  nodup := h.nodup

/-- The order in which things were ended does not matter. -/
theorem reorder (h : b.Books done todo) {done' : List (Nat × SendResult)}
    (hdone : ∀ e, e ∈ done' ↔ e ∈ done) : b.Books done' todo where
  ended e he := h.ended e ((hdone e).1 he)
  pending := h.pending
  complete := h.complete
  succeeded n hr := (hdone _).2 (h.succeeded n hr)
  nodup := h.nodup

/-- A new operation that has failed already is nobody's business. -/
theorem refuse (h : b.Books done todo) (e : TransportError) :
    (b.push (.resolved (.error e))).Books done todo where
  ended x hx := extends_push _ _ _ _ (h.ended x hx)
  pending n hn := by
    rw [isPending_push_iff, if_neg (Nat.ne_of_lt (h.lt_size hn))]
    exact h.pending n hn
  complete n hn hr := by
    rw [size_push] at hn
    rw [result?_push] at hr
    by_cases hlast : n = b.size
    · rw [if_pos hlast] at hr
      cases hr
    · rw [if_neg hlast] at hr
      exact h.complete n (by omega) hr
  succeeded n hr := by
    rw [result?_push] at hr
    by_cases hlast : n = b.size
    · rw [if_pos hlast] at hr
      cases hr
    · rw [if_neg hlast] at hr
      exact h.succeeded n hr
  nodup := h.nodup

/-- A new operation is the last one to be ended. -/
theorem enter (h : b.Books done todo) : (b.push .pending).Books done (todo ++ [b.size]) where
  ended x hx := extends_push _ _ _ _ (h.ended x hx)
  pending n hn := by
    rw [isPending_push_iff]
    rcases List.mem_append.1 hn with hold | hnew
    · rw [if_neg (Nat.ne_of_lt (h.lt_size hold))]
      exact h.pending n hold
    · rw [if_pos (List.mem_singleton.1 hnew)]
      exact ⟨rfl, rfl⟩
  complete n hn hr := by
    rw [size_push] at hn
    rw [result?_push] at hr
    by_cases hlast : n = b.size
    · exact List.mem_append_right _ (List.mem_singleton.2 hlast)
    · rw [if_neg hlast] at hr
      exact List.mem_append_left _ (h.complete n (by omega) hr)
  succeeded n hr := by
    rw [result?_push] at hr
    by_cases hlast : n = b.size
    · rw [if_pos hlast] at hr
      cases hr
    · rw [if_neg hlast] at hr
      exact h.succeeded n hr
  nodup := by
    refine List.nodup_append.2 ⟨h.nodup, by simp, ?_⟩
    intro n hn m hm heq
    rw [heq, List.mem_singleton.1 hm] at hn
    exact h.fresh hn

/-- Ending one of the operations that are left. -/
theorem settle_of_mem (h : b.Books done todo) {n : Nat} (hn : n ∈ todo) (r : SendResult) :
    (b.complete n r).2.Books (done ++ [(n, r)]) (todo.erase n) where
  ended e he := by
    rw [result?_complete_of_pending (h.pending n hn)]
    rcases List.mem_append.1 he with hold | hnew
    · have hres := h.ended e hold
      have hne : e.1 ≠ n := by
        intro heq
        rw [heq, (h.pending n hn).result?] at hres
        cases hres
      rw [if_neg hne, hres]
    · obtain rfl := List.mem_singleton.1 hnew
      exact if_pos rfl
  pending m hm := by
    rw [isPending_complete_iff (h.pending n hn)]
    have hmem := h.nodup.mem_erase_iff.1 hm
    exact ⟨hmem.1, h.pending m hmem.2⟩
  complete m hm hr := by
    rw [size_complete] at hm
    rw [result?_complete_of_pending (h.pending n hn)] at hr
    by_cases heq : m = n
    · rw [if_pos heq] at hr
      cases hr
    · rw [if_neg heq] at hr
      exact h.nodup.mem_erase_iff.2 ⟨heq, h.complete m hm hr⟩
  succeeded m hr := by
    rw [result?_complete_of_pending (h.pending n hn)] at hr
    by_cases heq : m = n
    · rw [if_pos heq] at hr
      obtain rfl := Option.some.inj hr
      subst heq
      exact List.mem_append_right _ (List.mem_singleton.2 rfl)
    · rw [if_neg heq] at hr
      exact List.mem_append_left _ (h.succeeded m hr)
  nodup := h.nodup.erase n

/-- Ending the operation that is next. -/
theorem settle {n : Nat} (h : b.Books done (n :: todo)) (r : SendResult) :
    (b.complete n r).2.Books (done ++ [(n, r)]) todo := by
  have hbooks := h.settle_of_mem (List.mem_cons_self ..) r
  rw [List.erase_cons_head] at hbooks
  exact hbooks

/-- A new operation that fails as soon as it is there. -/
theorem turnAway (h : b.Books done todo) (r : SendResult) :
    ((b.push .pending).complete b.size r).2.Books (done ++ [(b.size, r)]) todo := by
  have hbooks := h.enter.settle_of_mem (List.mem_append_right _ (List.mem_singleton.2 rfl)) r
  rw [List.erase_append_right _ h.fresh, List.erase_cons_head, List.append_nil] at hbooks
  exact hbooks

end Books

end PeerLink.Board
