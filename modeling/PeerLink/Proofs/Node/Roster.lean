import PeerLink.Node.Listener
import PeerLink.Proofs.Client.World

/-!
# Who is in the table of a listening node

Of all that a listening node keeps, its `Roster` is what decides whose client is in the
table: how many sessions there are, which of them is being accepted, the table, and the
gates of the clients.

A session is settled when its accepting iteration is over.  Until then its client is not
in the table, and the end of the session, if it is handled by then, passes it by.  From
then on the client is in the table exactly as long as its gate is open, and the end of
the session takes it out; it never comes back.

## Main results

* `ClientGroup.shut?_close`, `ClientGroup.shut?_forceClose` — closing a client shuts its
  gate and no other.
* `Listener.effect_of_step` — what a step of a node does to the roster.
* `Logbook.settled_clients_are_open_until_released` — the client of a settled session is
  usable if and only if it is in the table, and what takes it out.
-/

namespace PeerLink

/-! ## Closing shuts one gate -/

namespace ClientGroup

variable {σ : Type} [SessionHost σ] (g : ClientGroup σ) (n m : Nat)

/-- Whether the gate of a client is shut; nothing if there is no such client. -/
def shut? : Option Bool := (g.client? n).map fun c => c.gate.isClosed

omit [SessionHost σ] in
private theorem shut?_modify {f : Client → Client} {t : Bool → Bool}
    (hf : ∀ c, (f c).gate.isClosed = t c.gate.isClosed) :
    (g.modify n f).shut? m = if m = n then (g.shut? m).map t else g.shut? m := by
  unfold shut?
  rw [client?_modify]
  split
  · cases g.client? m with
    | none => rfl
    | some c => exact congrArg some (hf c)
  · rfl

/-- Only the first step of a close changes clients. -/
private theorem clients_runClose {stage : CloseStage} (hstage : ∀ forced, stage ≠ .gate forced) :
    (g.runClose n stage).2.clients = g.clients := by
  have hclosing (g : ClientGroup σ) : (g.runClose n .closing).2.clients = g.clients := by
    rw [runClose_of_done rfl]
  have hremoving : (g.runClose n .removing).2.clients = g.clients := by
    rw [runClose_of_next rfl]
    exact hclosing _
  cases stage with
  | gate forced => exact absurd rfl (hstage forced)
  | closing => exact hclosing g
  | removing => exact hremoving
  | reading =>
      cases hread : g.closeStep n .reading with
      | done answer g' =>
          simp only [closeStep] at hread
          split at hread <;> cases hread
      | next stage g' =>
          rw [runClose_of_next hread]
          simp only [closeStep] at hread
          split at hread <;> cases hread
          · exact hremoving
          · exact hclosing g

private theorem shut?_runClose {g' : ClientGroup σ} {forced : Bool}
    (hstep : g.closeStep n (.gate forced) = .next .reading g') :
    (g.runClose n (.gate forced)).2.shut? m = g'.shut? m := by
  unfold shut? client?
  rw [runClose_of_next hstep, clients_runClose g' n fun forced h => by cases h]

theorem shut?_forceClose :
    (g.forceClose n).shut? m = if m = n then (g.shut? m).map fun _ => true else g.shut? m := by
  rw [forceClose, shut?_runClose g n m rfl]
  exact shut?_modify g n m fun _ => rfl

theorem shut?_close :
    (g.close n).2.shut? m = if m = n then (g.shut? m).map fun _ => true else g.shut? m := by
  have hkept (hdone : g.closeStep n (.gate false) = .done false g)
      (hshut : g.shut? n = none ∨ g.shut? n = some true) :
      (g.close n).2.shut? m =
        if m = n then (g.shut? m).map fun _ => true else g.shut? m := by
    rw [close, runClose_of_done hdone]
    by_cases hm : m = n
    · subst hm
      rcases hshut with hshut | hshut <;> simp [hshut]
    · rw [if_neg hm]
  cases hn : g.client? n with
  | none => exact hkept (by simp only [closeStep, hn]) (.inl (by rw [shut?, hn]; rfl))
  | some c =>
      cases hshut : c.gate.isClosed with
      | true =>
          refine hkept ?_ (.inr ?_)
          · simp [closeStep, hn, Gate.close, hshut]
          · rw [shut?, hn, Option.map_some, hshut]
      | false =>
          have hstep : g.closeStep n (.gate false) =
              .next .reading (g.modify n fun c => { c with gate := ⟨true⟩ }) := by
            simp [closeStep, hn, Gate.close, hshut]
          rw [close, shut?_runClose g n m hstep]
          exact shut?_modify g n m fun _ => rfl

/-- Binding a client gives an open gate, to the first client if there was none. -/
theorem shut?_bind : g.bind.2.shut? 0 = some ((g.shut? 0).getD false) := by
  unfold shut?
  rw [bind, client?_bindAs]
  by_cases hsize : g.clients.size = 0
  · have hnone : g.client? 0 = none := Array.getElem?_eq_none (Nat.le_of_eq hsize)
    rw [if_pos hsize.symm, hnone]
    rfl
  · obtain ⟨c, hc⟩ : ∃ c, g.client? 0 = some c :=
      ⟨_, Array.getElem?_eq_getElem (Nat.pos_of_ne_zero hsize)⟩
    rw [if_neg (Ne.symm hsize), hc]
    rfl

end ClientGroup

/-! ## The roster -/

/-- The session whose client is not entered yet. -/
def AcceptStage.session? : AcceptStage → Option Nat
  | .waiting => none
  | .binding n | .entering n => some n

/-- What decides whose client is in the table. -/
structure Roster where
  /-- How many sessions have been accepted. -/
  size : Nat
  accepting : AcceptStage
  table : List Nat
  /-- Whether the gate of the client of a session is shut. -/
  shut? : Nat → Option Bool

namespace Roster

/-- The session has been accepted, and its client has been entered into the table. -/
def Settled (r : Roster) (n : Nat) : Prop := n < r.size ∧ r.accepting.session? ≠ some n

instance (r : Roster) (n : Nat) : Decidable (r.Settled n) := inferInstanceAs (Decidable (_ ∧ _))

/-- The gates when those of some clients have been shut. -/
def shutting (r : Roster) (out : Nat → Bool) : Nat → Option Bool := fun m =>
  if out m then (r.shut? m).map fun _ => true else r.shut? m

/-- What a step can do to the roster; `out` says whose clients it takes out of the table. -/
inductive Effect (out : Nat → Prop) (r r' : Roster) : Prop
  | aside (h : r' = r)
  | accepts (ha : r.accepting = .waiting)
      (h : r' = { r with size := r.size + 1, accepting := .binding r.size })
  | binds {n : Nat} (ha : r.accepting = .binding n)
      (h : r' = { r with
        accepting := .entering n
        shut? := fun m => if m = n then some ((r.shut? m).getD false) else r.shut? m })
  | enters {n : Nat} (ha : r.accepting = .entering n)
      (h : r' = { r with accepting := .waiting, table := n :: r.table })
  | releases {n : Nat} (hout : out n) (hn : n ∈ r.table)
      (h : r' = { r with table := r.table.erase n, shut? := r.shutting (· == n) })
  | empties (hout : ∀ n, out n)
      (h : r' = { r with table := [], shut? := r.shutting (r.table.contains ·) })

/-- The client of a session has a gate when it has been bound, and the gate is open if and
only if the client is in the table or is about to be. -/
structure Sound (r : Roster) : Prop where
  nodup : r.table.Nodup
  listed : ∀ n ∈ r.table, r.Settled n
  accepted : ∀ n, r.accepting.session? = some n → n < r.size
  unbound : ∀ n, r.size ≤ n ∨ r.accepting = .binding n → r.shut? n = none
  entering : ∀ n, r.accepting = .entering n → r.shut? n = some false
  settled : ∀ n, r.Settled n → r.shut? n = some (decide (n ∉ r.table))

variable {out : Nat → Prop} {r r' : Roster} {n : Nat}

theorem Settled.ne (hn : r.Settled n) {m : Nat} (hm : r.accepting.session? = some m) :
    n ≠ m := by
  rintro rfl
  exact hn.2 hm

/-- A session that is settled stays settled. -/
theorem Settled.later (hn : r.Settled n) (he : Effect out r r') : r'.Settled n := by
  obtain ⟨hlt, hother⟩ := hn
  cases he with
  | aside h | releases _ _ h | empties _ h =>
      rw [h]
      exact ⟨hlt, hother⟩
  | accepts ha h =>
      rw [h]
      refine ⟨Nat.lt_succ_of_lt hlt, fun heq => ?_⟩
      exact Nat.ne_of_gt hlt (Option.some.inj heq)
  | binds ha h =>
      rw [ha] at hother
      rw [h]
      exact ⟨hlt, hother⟩
  | enters ha h =>
      rw [h]
      exact ⟨hlt, fun heq => by cases heq⟩

/-- What is not in the table of settled sessions does not come there any more. -/
theorem Settled.stays_out (hn : r.Settled n) (hout : n ∉ r.table) (he : Effect out r r') :
    n ∉ r'.table := by
  cases he with
  | aside h | accepts ha h | binds ha h =>
      rw [h]
      exact hout
  | enters ha h =>
      rw [h]
      exact List.not_mem_cons_of_ne_of_not_mem (hn.ne (by rw [ha]; rfl)) hout
  | releases _ _ h =>
      rw [h]
      exact fun hmem => hout (List.mem_of_mem_erase hmem)
  | empties _ h =>
      rw [h]
      exact List.not_mem_nil

/-- A client leaves the table only in a step that takes it out. -/
theorem Effect.takes_out (he : Effect out r r') (hin : n ∈ r.table) (hout : n ∉ r'.table) :
    out n := by
  cases he with
  | aside h | accepts ha h | binds ha h =>
      rw [h] at hout
      exact absurd hin hout
  | enters ha h =>
      rw [h] at hout
      exact absurd (List.mem_cons_of_mem _ hin) hout
  | releases hm _ h =>
      rename_i m _
      rw [h] at hout
      by_cases hne : n = m
      · rw [hne]
        exact hm
      · exact absurd ((List.mem_erase_of_ne hne).2 hin) hout
  | empties hall h => exact hall n

/-- A client that is not entered yet is not in the table. -/
private theorem Sound.not_listed (h : r.Sound) (hn : r.accepting.session? = some n) :
    n ∉ r.table :=
  fun hmem => (h.listed n hmem).ne hn rfl

private theorem Sound.accepts (h : r.Sound) (ha : r.accepting = .waiting) :
    Sound { r with size := r.size + 1, accepting := .binding r.size } where
  nodup := h.nodup
  listed m hm := (h.listed m hm).later (show Effect (fun _ => False) r _ from .accepts ha rfl)
  accepted m hm := by
    obtain rfl := Option.some.inj hm
    exact Nat.lt_succ_self _
  unbound m hm := by
    refine h.unbound m (.inl ?_)
    rcases hm with hm | hm
    · exact Nat.le_of_lt hm
    · cases hm
      exact Nat.le_refl _
  entering m hm := by cases hm
  settled m hm := by
    refine h.settled m ⟨?_, ?_⟩
    · exact Nat.lt_of_le_of_ne (Nat.lt_succ_iff.1 hm.1) (hm.ne rfl)
    · rw [ha]
      intro heq
      cases heq

private theorem Sound.binds (h : r.Sound) (ha : r.accepting = .binding n) :
    Sound { r with
      accepting := .entering n
      shut? := fun m => if m = n then some ((r.shut? m).getD false) else r.shut? m } where
  nodup := h.nodup
  listed m hm := (h.listed m hm).later (show Effect (fun _ => False) r _ from .binds ha rfl)
  accepted m hm := h.accepted m (by rw [ha]; exact hm)
  unbound m hm := by
    have hlt := h.accepted n (by rw [ha]; rfl)
    rcases hm with hm | hm
    · have hne : m ≠ n := fun heq => Nat.not_lt.2 hm (heq ▸ hlt)
      exact (if_neg hne).trans (h.unbound m (.inl hm))
    · cases hm
  entering m hm := by
    cases hm
    simp only [h.unbound n (.inr ha)]
    rfl
  settled m hm := by
    refine (if_neg (hm.ne rfl)).trans (h.settled m ⟨hm.1, ?_⟩)
    rw [ha]
    exact hm.2

private theorem Sound.enters (h : r.Sound) (ha : r.accepting = .entering n) :
    Sound { r with accepting := .waiting, table := n :: r.table } where
  nodup := List.nodup_cons.2 ⟨h.not_listed (by rw [ha]; rfl), h.nodup⟩
  listed m hm := by
    refine ⟨?_, fun heq => by cases heq⟩
    rcases List.mem_cons.1 hm with rfl | hm
    · exact h.accepted m (by rw [ha]; rfl)
    · exact (h.listed m hm).1
  accepted m hm := by cases hm
  unbound m hm := by
    rcases hm with hm | hm
    · exact h.unbound m (.inl hm)
    · cases hm
  entering m hm := by cases hm
  settled m hm := by
    by_cases hne : m = n
    · subst hne
      simp only [List.mem_cons_self, not_true, decide_false]
      exact h.entering m ha
    · have hbefore : r.Settled m := by
        refine ⟨hm.1, ?_⟩
        rw [ha]
        exact fun heq => hne (Option.some.inj heq).symm
      simp only [List.mem_cons, hne, false_or]
      exact h.settled m hbefore

/-- Taking clients out of the table and shutting their gates goes together. -/
private theorem Sound.takes (h : r.Sound) {table : List Nat} {out : Nat → Bool}
    (htable : table.Sublist r.table)
    (hout : ∀ m, m ∈ table ↔ m ∈ r.table ∧ out m = false)
    (hlisted : ∀ m, out m = true → m ∈ r.table) :
    Sound { r with table := table, shut? := r.shutting out } where
  nodup := h.nodup.sublist htable
  listed m hm := h.listed m (htable.subset hm)
  accepted := h.accepted
  unbound m hm := by
    simp only [shutting, h.unbound m hm]
    split <;> rfl
  entering m hm := by
    have hkept : ¬ out m = true := fun hm' => h.not_listed (by rw [hm]; rfl) (hlisted m hm')
    simp only [shutting, if_neg hkept]
    exact h.entering m hm
  settled m hm := by
    have hrow := h.settled m hm
    by_cases hm' : out m = true
    · have hgone : m ∉ table := by simp [hout, hm']
      simp only [shutting, if_pos hm', hrow, Option.map_some, hgone, not_false_eq_true,
        decide_true]
    · have hsame : m ∈ table ↔ m ∈ r.table := by simp [hout, hm']
      simp only [shutting, if_neg hm', hrow, hsame]

theorem Sound.step (h : r.Sound) (he : Effect out r r') : r'.Sound := by
  cases he with
  | aside he =>
      rw [he]
      exact h
  | accepts ha he =>
      rw [he]
      exact h.accepts ha
  | binds ha he =>
      rw [he]
      exact h.binds ha
  | enters ha he =>
      rw [he]
      exact h.enters ha
  | releases _ hn he =>
      rename_i n
      rw [he]
      refine h.takes List.erase_sublist (fun m => ?_) (fun m hm => ?_)
      · rw [h.nodup.mem_erase_iff, and_comm]
        simp
      · rw [eq_of_beq hm]
        exact hn
  | empties _ he =>
      rw [he]
      refine h.takes (List.nil_sublist _) (fun m => ?_) (fun m hm => ?_)
      · simp
      · simpa using hm

end Roster

/-! ## The roster of a node -/

namespace Listener

variable {σ : Type}

/-- Whether the gate of the client of a session is shut. -/
def shut? (l : Listener σ) (n : Nat) : Option Bool :=
  l.connections[n]?.bind fun c => c.group.shut? 0

/-- The part of the node that decides whose client is in the table. -/
def roster (l : Listener σ) : Roster where
  size := l.connections.size
  accepting := l.accepting
  table := l.table
  shut? := l.shut?

/-- The move takes the client of a session out of the table, if it is there. -/
inductive TakesOut (l : Listener σ) : ListenerMove σ → Nat → Prop
  /-- The session has ended. -/
  | ended {n : Nat} {reason : Option String} {rest : List (Nat × SessionEvent)}
      (h : l.channel = (n, .closed reason) :: rest) : TakesOut l .handle n
  /-- The client has been idle for too long. -/
  | evicted {n : Nat} {rest : List Nat} (h : l.sweeping = .taking (n :: rest)) :
      TakesOut l .evict n
  /-- The node ends. -/
  | interrupted (n : Nat) : TakesOut l .interrupt n

variable {l l' : Listener σ} {n : Nat}

theorem isClosed_iff : l.isClosed n = true ↔ l.shut? n = some true := by
  unfold isClosed shut? ClientGroup.shut?
  cases l.connections[n]? with
  | none => simp
  | some c =>
      cases hc : c.group.client? 0 with
      | none => simp [hc]
      | some client => simp [hc]

/-- The gates when one connection has changed. -/
private theorem roster_modify {f : ClientGroup σ → ClientGroup σ}
    {t : Option Bool → Option Bool} (hnone : t none = none)
    (hf : ∀ c, l.connections[n]? = some c → (f c.group).shut? 0 = t (c.group.shut? 0)) :
    (l.modify n f).roster = { l.roster with
      shut? := fun m => if m = n then t (l.shut? m) else l.shut? m } := by
  have hshut (m : Nat) :
      (l.modify n f).shut? m = if m = n then t (l.shut? m) else l.shut? m := by
    unfold shut? modify
    rw [Array.getElem?_modify]
    by_cases hm : m = n
    · subst hm
      rw [if_pos rfl, if_pos rfl]
      cases hc : l.connections[m]? with
      | none => exact hnone.symm
      | some c => exact hf c hc
    · rw [if_neg (Ne.symm hm), if_neg hm]
  unfold roster
  simp only [show (l.modify n f).shut? = _ from funext hshut]
  simp only [modify, Array.size_modify]

/-- A connection may change without its clients. -/
private theorem roster_modify_session {f : ClientGroup σ → ClientGroup σ}
    (hf : ∀ g, (f g).clients = g.clients) : (l.modify n f).roster = l.roster := by
  rw [roster_modify (t := id) rfl fun c _ => by
    unfold ClientGroup.shut? ClientGroup.client?
    rw [hf]
    rfl]
  simp only [id_eq, ite_self]
  rfl

private theorem roster_modify_shut {f : ClientGroup σ → ClientGroup σ}
    (hf : ∀ c, l.connections[n]? = some c →
      (f c.group).shut? 0 = (c.group.shut? 0).map fun _ => true) :
    (l.modify n f).roster = { l.roster with shut? := l.roster.shutting (· == n) } := by
  rw [roster_modify (t := Option.map fun _ => true) rfl hf, Roster.mk.injEq]
  refine ⟨rfl, rfl, rfl, funext fun m => ?_⟩
  simp only [Roster.shutting, beq_iff_eq]
  rfl

private theorem effect_accept {out : Nat → Prop} {peer : Address} {session : σ}
    (h : l.accept peer session = some l') : Roster.Effect out l.roster l'.roster := by
  unfold accept at h
  split at h
  · rename_i ha
    obtain rfl := Option.some.inj h
    refine .accepts ha ?_
    have hshut (m : Nat) : (l.connections.push ⟨peer, { session := session }⟩)[m]?.bind
        (fun c => c.group.shut? 0) = l.shut? m := by
      rw [Array.getElem?_push, shut?]
      split
      · rename_i hm
        rw [Array.getElem?_eq_none (Nat.le_of_eq hm.symm)]
        rfl
      · rfl
    unfold roster
    simp only [Array.size_push]
    rw [Roster.mk.injEq]
    exact ⟨rfl, rfl, rfl, funext hshut⟩
  · cases h

private theorem effect_insert {out : Nat → Prop} (h : l.insert = some l') :
    Roster.Effect out l.roster l'.roster := by
  unfold insert at h
  split at h
  · rename_i n ha
    split at h
    · obtain rfl := Option.some.inj h
      exact .enters ha rfl
    · cases h
  · cases h

variable [SessionHost σ]

private theorem effect_bind {out : Nat → Prop} (h : l.bind = some l') :
    Roster.Effect out l.roster l'.roster := by
  unfold bind at h
  split at h
  · rename_i n ha
    split at h
    · cases h
    · rename_i c hc
      obtain rfl := Option.some.inj h
      refine .binds ha ?_
      have hshut (m : Nat) : (l.modify n fun g => g.bind.2).shut? m =
          if m = n then some ((l.shut? m).getD false) else l.shut? m := by
        unfold shut? modify
        rw [Array.getElem?_modify]
        by_cases hm : m = n
        · subst hm
          rw [if_pos rfl, if_pos rfl, hc]
          exact ClientGroup.shut?_bind c.group
        · rw [if_neg (Ne.symm hm), if_neg hm]
      unfold roster
      rw [Roster.mk.injEq]
      exact ⟨Array.size_modify, rfl, rfl, funext hshut⟩
  · cases h

private theorem effect_handle (h : l.handle = some l') :
    Roster.Effect (l.TakesOut .handle) l.roster l'.roster := by
  unfold handle at h
  split at h
  · cases h
  · obtain rfl := Option.some.inj h
    exact .aside rfl
  · rename_i n reason rest hchannel
    split at h
    · obtain rfl := Option.some.inj h
      unfold dropClient
      dsimp only
      split
      · rename_i hn
        refine .releases (.ended hchannel) (List.elem_iff.1 hn) ?_
        exact roster_modify_shut (l := { l with channel := rest }.erase n) (n := n)
          (f := fun g => g.forceClose 0) fun c _ => ClientGroup.shut?_forceClose c.group 0 0
      · exact .aside rfl
    · cases h

private theorem effect_evict (h : l.evict = some l') :
    Roster.Effect (l.TakesOut .evict) l.roster l'.roster := by
  unfold evict at h
  split at h
  · obtain rfl := Option.some.inj h
    exact .aside rfl
  · rename_i n rest hsweeping
    obtain rfl := Option.some.inj h
    unfold evictClient
    dsimp only
    split
    · exact .aside rfl
    · rename_i c hc
      split
      · rename_i hn
        refine .releases (.evicted hsweeping) (List.elem_iff.1 hn) ?_
        have hclosed := roster_modify_shut (l := { l with sweeping := .taking rest }.erase n)
          (n := n) (f := fun _ => (c.group.close 0).2) fun c' hc' => by
            obtain rfl := Option.some.inj (hc.symm.trans hc')
            exact ClientGroup.shut?_close c.group 0 0
        split
        · exact hclosed
        · exact hclosed
      · exact .aside rfl
  · cases h

/-- Closing some clients one after the other shuts their gates. -/
private theorem roster_foldl (ns : List Nat) (l : Listener σ) :
    (ns.foldl (fun l n => l.modify n fun g => (g.close 0).2) l).roster =
      { l.roster with shut? := l.roster.shutting (ns.contains ·) } := by
  induction ns generalizing l with
  | nil => rfl
  | cons n ns ih =>
      rw [List.foldl_cons, ih,
        roster_modify_shut fun c _ => ClientGroup.shut?_close c.group 0 0]
      simp only [Roster.mk.injEq, true_and]
      funext m
      simp only [Roster.shutting, List.contains_cons]
      by_cases hm : (m == n) = true
      · simp [hm, Function.comp_def]
      · simp [hm]

private theorem effect_shutDown (hout : ∀ n, l.TakesOut .interrupt n) :
    Roster.Effect (l.TakesOut .interrupt) l.roster l.shutDown.roster := by
  refine .empties hout ?_
  have hfold := roster_foldl l.table (l.log .info none "Shutting down")
  unfold shutDown
  exact congrArg (fun r : Roster => { r with table := [] }) hfold

theorem effect_of_step {move : ListenerMove σ} (h : l.step move = some l') :
    Roster.Effect (l.TakesOut move) l.roster l'.roster := by
  cases move with
  | accept peer session => exact effect_accept h
  | bind => exact effect_bind h
  | insert => exact effect_insert h
  | session n session events =>
      obtain rfl := Option.some.inj h
      exact .aside (roster_modify_session (l := l) (n := n)
        (f := fun g => { g with session := session }) fun g => rfl)
  | handle => exact effect_handle h
  | wait d =>
      obtain rfl := Option.some.inj h
      exact .aside rfl
  | note =>
      simp only [step, note] at h
      split at h
      · obtain rfl := Option.some.inj h
        exact .aside rfl
      · cases h
  | lock =>
      simp only [step, lock] at h
      split at h
      · obtain rfl := Option.some.inj h
        exact .aside rfl
      · cases h
  | evict => exact effect_evict h
  | interrupt =>
      simp only [step] at h
      split at h
      · obtain rfl := Option.some.inj h
        exact effect_shutDown .interrupted
      · cases h

end Listener

/-! ## The ends of sessions -/

/-- A listening node, with the observer's notes. -/
structure Logbook (σ : Type) where
  node : Listener σ
  /-- The sessions whose end was handled, and whether they were settled then. -/
  ends : List (Nat × Bool) := []

/-- The end of a session that is handled in a step. -/
def Listener.ending {σ : Type} (l : Listener σ) : ListenerMove σ → List (Nat × Bool)
  | .handle =>
    match l.channel with
    | (n, .closed _) :: _ => [(n, decide (l.roster.Settled n))]
    | _ => []
  | _ => []

namespace Logbook

variable {σ : Type} [SessionHost σ]

/-- Does one step, and notes the end of a session; nothing if the step is not possible. -/
def step? (b : Logbook σ) (move : ListenerMove σ) : Option (Logbook σ) :=
  (b.node.step move).map fun node => ⟨node, b.ends ++ b.node.ending move⟩

/-- From one moment to a later one. -/
abbrev Steps : Logbook σ → Logbook σ → Prop := Relation.ReflTransGen (Leads step?)

/-- The node after a sequence of steps; it stays as it is if one of them is not possible. -/
abbrev after (b : Logbook σ) (moves : List (ListenerMove σ)) : Logbook σ :=
  stateAfter step? b moves

/-- A node begins without sessions. -/
inductive Begins : Logbook σ → Prop
  | start (idleTimeout clock : Duration) :
      Begins { node := { idleTimeout := idleTimeout, clock := clock } }

/-- The node is at a moment of its life. -/
abbrev Reached (b : Logbook σ) : Prop := Reachable Begins (Leads step?) b

variable {b b' : Logbook σ} {n : Nat} {move : ListenerMove σ}

theorem effect_of_step (he : b.step? move = some b') :
    Roster.Effect (b.node.TakesOut move) b.node.roster b'.node.roster := by
  obtain ⟨node, hnode, rfl⟩ := Option.map_eq_some_iff.1 he
  exact Listener.effect_of_step hnode

theorem Reached.sound (h : b.Reached) : b.node.roster.Sound := by
  obtain ⟨_, ⟨idleTimeout, clock⟩, hs⟩ := h
  induction hs with
  | refl =>
      refine ⟨List.nodup_nil, fun n hn => ?_, fun n hn => ?_, fun n hn => rfl, fun n hn => ?_,
        fun n hn => ?_⟩
      · cases hn
      · cases hn
      · cases hn
      · exact absurd hn.1 (Nat.not_lt_zero n)
  | tail _ he ih =>
      obtain ⟨move, he⟩ := he
      exact ih.step (effect_of_step he)

/-- What left the table once its session was settled stays out. -/
theorem Steps.stays_out (hs : Steps b b') (hn : b.node.roster.Settled n)
    (hout : n ∉ b.node.table) : b'.node.roster.Settled n ∧ n ∉ b'.node.table := by
  induction hs with
  | refl => exact ⟨hn, hout⟩
  | tail _ he ih =>
      obtain ⟨move, he⟩ := he
      have heffect := effect_of_step he
      exact ⟨ih.1.later heffect, ih.1.stays_out ih.2 heffect⟩

/-- The end of a session that is settled takes its client out of the table. -/
private theorem out_of_ending (h : b.node.roster.Sound) (he : b.step? move = some b')
    (hend : (n, true) ∈ b.node.ending move) :
    b'.node.roster.Settled n ∧ n ∉ b'.node.table := by
  have heffect := effect_of_step he
  obtain ⟨node, hnode, rfl⟩ := Option.map_eq_some_iff.1 he
  cases move with
  | handle =>
      simp only [Listener.ending] at hend
      split at hend
      · rename_i m reason rest hchannel
        rw [List.mem_singleton, Prod.mk.injEq, eq_comm (a := true), decide_eq_true_iff] at hend
        obtain ⟨rfl, hsettled⟩ := hend
        refine ⟨hsettled.later heffect, ?_⟩
        simp only [Listener.step, Listener.handle, hchannel] at hnode
        split at hnode
        · obtain rfl := Option.some.inj hnode
          unfold Listener.dropClient
          dsimp only
          split
          · exact h.nodup.not_mem_erase
          · rename_i hn
            exact fun hmem => hn (List.elem_iff.2 hmem)
        · cases hnode
      · cases hend
  | _ => cases hend

theorem Reached.out_of_end (h : b.Reached) (hend : (n, true) ∈ b.ends) :
    b.node.roster.Settled n ∧ n ∉ b.node.table := by
  obtain ⟨_, ⟨idleTimeout, clock⟩, hs⟩ := h
  induction hs with
  | refl => cases hend
  | tail hs he ih =>
      obtain ⟨move, he⟩ := he
      rename_i b₁ b₂
      have hends : b₂.ends = b₁.ends ++ b₁.node.ending move := by
        obtain ⟨node, -, rfl⟩ := Option.map_eq_some_iff.1 he
        rfl
      rw [hends] at hend
      rcases List.mem_append.1 hend with hbefore | hnow
      · obtain ⟨hsettled, hout⟩ := ih hbefore
        exact Steps.stays_out (.single ⟨move, he⟩) hsettled hout
      · exact out_of_ending (Reached.sound ⟨_, .start idleTimeout clock, hs⟩) he hnow

/-- The client of a settled session is in the table or closed. -/
theorem Reached.mem_table_iff (h : b.Reached) (hn : b.node.roster.Settled n) :
    n ∈ b.node.table ↔ b.node.isClosed n = false := by
  have hrow : b.node.shut? n = some (decide (n ∉ b.node.table)) := h.sound.settled n hn
  rw [← Bool.not_eq_true, Listener.isClosed_iff, hrow]
  simp

/-- Once the accepting iteration of a session is over, its client is in the table as long
as it is open, and no longer.  If the end of the session is handled from then on, the
client is neither in the table nor open, and stays so; an end that was handled before
leaves it there.  Only the end of the session, the sweep and the end of the node take it
out. -/
theorem settled_clients_are_open_until_released (h : b.Reached)
    (hn : b.node.roster.Settled n) :
    (n ∈ b.node.table ↔ b.node.isClosed n = false) ∧
      ((n, true) ∈ b.ends → n ∉ b.node.table ∧ b.node.isClosed n = true) ∧
      (n ∉ b.node.table → ∀ b', Steps b b' →
        n ∉ b'.node.table ∧ b'.node.isClosed n = true) ∧
      ∀ move b', b.step? move = some b' → n ∈ b.node.table → n ∉ b'.node.table →
        b.node.TakesOut move n := by
  have hclosed {b' : Logbook σ} (h' : b'.Reached) (hn' : b'.node.roster.Settled n)
      (hout : n ∉ b'.node.table) : n ∉ b'.node.table ∧ b'.node.isClosed n = true := by
    refine ⟨hout, ?_⟩
    rw [h'.mem_table_iff hn', Bool.not_eq_false] at hout
    exact hout
  refine ⟨h.mem_table_iff hn, ?_, ?_, ?_⟩
  · intro hend
    exact hclosed h hn (h.out_of_end hend).2
  · intro hout b' hs
    obtain ⟨hn', hout'⟩ := hs.stays_out hn hout
    exact hclosed (h.steps hs) hn' hout'
  · intro move b' he hin hout
    exact (effect_of_step he).takes_out hin hout

/-! ## A peer that leaves -/

/-- A session whose peer has gone at once. -/
def hungUp : Run :=
  (Run.start "1" none {} default).after
    [.read, .read, .atEnd, .read, .read, .read, .read, .read]

/-- The session of that peer has been accepted by a new node. -/
def visited : Logbook Run :=
  after { node := { idleTimeout := default, clock := default } }
    [.accept default (.start "1" none {} default)]

/-- The peer leaves when its session is settled. -/
def seenOff : Logbook Run :=
  visited.after
    [.bind, .insert, .session 0 hungUp [.closed (some "connection closed by peer")], .handle]

theorem seenOff_is_dropped :
    seenOff.Reached ∧ (0, true) ∈ seenOff.ends ∧ seenOff.node.roster.Settled 0 ∧
      0 ∉ seenOff.node.table ∧ seenOff.node.isClosed 0 = true := by
  have hreached : seenOff.Reached :=
    ⟨_, .start _ _, (steps_after _ _).trans (steps_after visited _)⟩
  have hsettled : seenOff.node.roster.Settled 0 := by decide
  have hend : (0, true) ∈ seenOff.ends := by
    rw [show seenOff.ends = [(0, true)] from rfl]
    exact List.mem_singleton_self _
  obtain ⟨-, hdropped, -⟩ := settled_clients_are_open_until_released hreached hsettled
  exact ⟨hreached, hend, hsettled, hdropped hend⟩

/-- The peer leaves before its client is in the table. -/
def overtaken : Logbook Run :=
  visited.after
    [.session 0 hungUp [.closed (some "connection closed by peer")], .handle, .bind, .insert]

/-- The end of the session has been handled, nothing more will come from it, and its
client is in the table, open. -/
theorem early_end_leaves_client :
    overtaken.Reached ∧ Run.Steps (.start "1" none {} default) hungUp ∧
      hungUp.session.events = [.closed (some "connection closed by peer")] ∧
      hungUp.session.reader = .ended ∧ overtaken.ends = [(0, false)] ∧
      overtaken.node.channel = [] ∧ overtaken.node.roster.Settled 0 ∧
      0 ∈ overtaken.node.table ∧ overtaken.node.isClosed 0 = false := by
  refine ⟨⟨_, .start _ _, (steps_after _ _).trans (steps_after visited _)⟩, steps_after _ _, rfl,
    rfl, rfl, rfl, by decide, ?_, rfl⟩
  rw [show overtaken.node.table = [0] from rfl]
  exact List.mem_singleton_self _

end Logbook

end PeerLink
