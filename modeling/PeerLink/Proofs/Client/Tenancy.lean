import PeerLink.Proofs.Client.SlotEvents

/-!
# Who holds the client slot

One call after the other, clients are bound to a session, send, close and are let go of,
while others attach values to the client slot and remove them, and acks run as the
operations end.  A `Tenancy` keeps the history of what bore on the slot.

An ack does at most one thing.  A callback that does several is the end of an operation
with the things it does after it, one after the other.

## Main results

* `Tenancy.step?_session` — what a running session does by itself is a move.
* `Tenancy.Reached.slot_eq` — the slot holds what the history leaves there.
* `Tenancy.slot_follows_ownership` — what the slot holds, by what was attached last and
  what came since.
-/

namespace PeerLink

/-! ## Moves -/

/-- A session with its clients, and what bore on its client slot, in order. -/
structure Tenancy (σ : Type) where
  group : ClientGroup σ
  history : List SlotEvent
  /-- The clients that their callers have let go of. -/
  dropped : List Nat := []

/-- What happens to a session and its clients, one thing after the other. -/
inductive TenancyMove (σ : Type)
  /-- A client is bound to the session, with an identity that nobody has had. -/
  | bind (id : ClientId)
  | client (n : Nat) (command : ClientCommand)
  /-- The caller lets go of a client. -/
  | drop (n : Nat)
  /-- The completer of an operation is used. -/
  | complete (operation : Nat) (result : SendResult)
  /-- The completer of an operation is dropped. -/
  | cancel (operation : Nat)
  /-- An ack runs, of an operation that the session has ended by itself. -/
  | tell (ack : Ack) (result : SendResult)
  | attach (key : SlotKey) (value : SlotValue)
  | remove (key : SlotKey)
  /-- The session goes on by itself. -/
  | session (s : σ)

namespace Tenancy

variable {σ : Type} [SessionHost σ]

/-- The caller still holds a client. -/
def Holds (v : Tenancy σ) (n : Nat) : Prop := n < v.group.clients.size ∧ n ∉ v.dropped

instance (v : Tenancy σ) (n : Nat) : Decidable (v.Holds n) := inferInstanceAs (Decidable (_ ∧ _))

/-- The session and its clients after a move; nothing if the move is not possible. -/
def group? (v : Tenancy σ) : TenancyMove σ → Option (ClientGroup σ)
  | .bind id => if v.group.isFresh id then some (v.group.bindAs id).2 else none
  | .client n command => if v.Holds n then (v.group.perform n command).map (·.2) else none
  | .drop n => if v.Holds n then some v.group else none
  | .complete operation result => (v.group.complete operation result).map (·.2)
  | .cancel operation => (v.group.cancel operation).map (·.2)
  | .tell ack result => v.group.tell ack result
  | .attach key value => some (v.group.modifySlots (·.attach key value))
  | .remove key => some (v.group.modifySlots (·.remove key))
  | .session s =>
    if (SessionHost.slots s).client = v.group.slot then some { v.group with session := s }
    else none

/-- What of a move bears on the slot. -/
def events (v : Tenancy σ) : TenancyMove σ → List SlotEvent
  | .bind id => [.attached (.owner id)]
  | .client n command => v.group.commandEvents n command
  | .complete operation result => v.group.endEvents operation result
  | .cancel operation => v.group.cancelEvents operation
  | .tell ack _ => v.group.ackEvents ack
  | .attach .client value => [.attached value]
  | .remove .client => [.removed]
  | .drop _ | .attach .lastError _ | .remove .lastError | .session _ => []

/-- The clients that are let go of in a move. -/
def dropsIn : TenancyMove σ → List Nat
  | .drop n => [n]
  | _ => []

/-- Does one move; nothing if it is not possible. -/
def step? (v : Tenancy σ) (move : TenancyMove σ) : Option (Tenancy σ) :=
  (v.group? move).map fun g =>
    { group := g, history := v.history ++ v.events move, dropped := v.dropped ++ dropsIn move }

/-- A session without clients.  What its slot may hold has been attached before. -/
def start (s : σ) : Tenancy σ where
  group := { session := s }
  history := ((SessionHost.slots s).client.map SlotEvent.attached).toList

/-- From one moment to a later one. -/
abbrev Steps : Tenancy σ → Tenancy σ → Prop := Relation.ReflTransGen (Leads step?)

/-- The session and its clients after a sequence of moves; they stay as they are if one of
them is not possible. -/
abbrev after (v : Tenancy σ) (moves : List (TenancyMove σ)) : Tenancy σ :=
  stateAfter step? v moves

/-- A session has no clients yet. -/
inductive Begins : Tenancy σ → Prop
  | start (s : σ) : Begins (.start s)

/-- The session and its clients are at a moment of their life. -/
abbrev Reached (v : Tenancy σ) : Prop := Reachable Begins (Leads step?) v

/-- A running session goes on by itself. -/
theorem step?_session {v : Tenancy Run} {w : Run} {e : RunEvent}
    (h : v.group.session.step? e = some w) (he : ∀ call, e ≠ .outside call) :
    v.step? (.session w) = some { v with group := { v.group with session := w } } := by
  have hkept : (SessionHost.slots w).client = v.group.slot := Run.client_of_step h he
  have hgroup : v.group? (.session w) = some { v.group with session := w } := if_pos hkept
  simp [step?, hgroup, events, dropsIn]

variable [TenantHost σ] {v v' : Tenancy σ} {move : TenancyMove σ}

/-- A move does to the slot what its part of the history says, and makes a new client
only to bind it. -/
theorem bears_of_group? {g : ClientGroup σ} (h : v.group? move = some g) :
    v.group.Bears (v.events move) g ∨
      ∃ id, move = .bind id ∧ v.group.isFresh id = true ∧ g = (v.group.bindAs id).2 := by
  cases move with
  | bind id =>
      simp only [group?] at h
      split at h
      · rename_i hfresh
        exact .inr ⟨id, rfl, hfresh, (Option.some.inj h).symm⟩
      · cases h
  | client n command =>
      simp only [group?] at h
      split at h
      · obtain ⟨⟨reply, g'⟩, hperform, rfl⟩ := Option.map_eq_some_iff.1 h
        exact .inl (ClientGroup.bears_perform hperform)
      · cases h
  | drop n =>
      simp only [group?] at h
      split at h <;> cases h
      exact .inl (.of_clients rfl rfl)
  | complete operation result =>
      obtain ⟨⟨answer, g'⟩, hcomplete, rfl⟩ := Option.map_eq_some_iff.1 h
      exact .inl (ClientGroup.bears_complete hcomplete)
  | cancel operation =>
      obtain ⟨⟨answer, g'⟩, hcancel, rfl⟩ := Option.map_eq_some_iff.1 h
      exact .inl (ClientGroup.bears_cancel hcancel)
  | tell ack result => exact .inl (ClientGroup.bears_tell h)
  | attach key value =>
      cases h
      cases key <;> exact .inl ⟨v.group.slot_modifySlots _, fun n => rfl⟩
  | remove key =>
      cases h
      cases key <;> exact .inl ⟨v.group.slot_modifySlots _, fun n => rfl⟩
  | session s =>
      simp only [group?] at h
      split at h
      · rename_i hkept
        cases h
        exact .inl (.of_clients hkept rfl)
      · cases h

theorem slot_of_step (h : v.step? move = some v') :
    v'.history = v.history ++ v.events move ∧
      v'.group.slot = (v.events move).foldl SlotEvent.apply v.group.slot := by
  obtain ⟨g, hg, rfl⟩ := Option.map_eq_some_iff.1 h
  refine ⟨rfl, ?_⟩
  rcases bears_of_group? hg with hbears | ⟨id, rfl, -, rfl⟩
  · exact hbears.slot
  · exact v.group.slot_bindAs id

/-- The slot holds what the history leaves there. -/
theorem Reached.slot_eq (h : v.Reached) :
    v.group.slot = v.history.foldl SlotEvent.apply none := by
  obtain ⟨_, ⟨s⟩, hs⟩ := h
  induction hs with
  | refl =>
      unfold start ClientGroup.slot
      cases (SessionHost.slots s).client <;> rfl
  | tail _ he ih =>
      obtain ⟨move, he⟩ := he
      obtain ⟨hhistory, hslot⟩ := slot_of_step he
      rw [hslot, hhistory, List.foldl_append, ih]

/-- No two clients have the same identity. -/
theorem Reached.id_injective (h : v.Reached) {n m : Nat} {c d : Client}
    (hc : v.group.client? n = some c) (hd : v.group.client? m = some d) (hid : c.id = d.id) :
    n = m := by
  suffices hall : ∀ n m id, (v.group.client? n).map Client.id = some id →
      (v.group.client? m).map Client.id = some id → n = m from
    hall n m c.id (by rw [hc]; rfl) (by rw [hd, hid]; rfl)
  clear hc hd
  refine h.invariant (P := fun v => ∀ n m id, (v.group.client? n).map Client.id = some id →
    (v.group.client? m).map Client.id = some id → n = m) ?_ ?_
  · rintro _ ⟨s⟩ n m id hn
    cases hn
  · rintro v v' - ⟨move, he⟩ ih n m id hn hm
    obtain ⟨g, hg, rfl⟩ := Option.map_eq_some_iff.1 he
    rcases bears_of_group? hg with hbears | ⟨new, rfl, hfresh, rfl⟩
    · rw [hbears.id?] at hn hm
      exact ih n m id hn hm
    · have hold {k : Nat} (hk : (v.group.client? k).map Client.id = some new) : False := by
        obtain ⟨c, hc, hid⟩ := Option.map_eq_some_iff.1 hk
        exact ClientGroup.isFresh_iff.1 hfresh k c hc hid
      rw [ClientGroup.client?_bindAs] at hn hm
      split at hn
      · rename_i hlast
        split at hm
        · rename_i hlast'
          rw [hlast, hlast']
        · obtain rfl := Option.some.inj hn
          exact (hold hm).elim
      · split at hm
        · obtain rfl := Option.some.inj hm
          exact (hold hn).elim
        · exact ih n m id hn hm

end Tenancy

/-! ## Who holds the slot -/

namespace Tenancy

variable {σ : Type} [SessionHost σ]

/-- The move leaves the slot to whoever holds it. -/
inductive Spares (v : Tenancy σ) : TenancyMove σ → Prop
  /-- The client had been closed before. -/
  | loses {n : Nat} (h : (v.group.close n).1 = false) : Spares v (.client n .close)
  /-- Another client is in the slot, or a value that is no client. -/
  | other {n : Nat} {command : ClientCommand}
      (hcommand : command = .close ∨ command = .forceClose)
      (h : ∀ c, v.group.client? n = some c → v.group.slot ≠ some (.owner c.id)) :
      Spares v (.client n command)
  | works {n : Nat} {command : ClientCommand} (hclose : command ≠ .close)
      (hforce : command ≠ .forceClose) : Spares v (.client n command)
  | drops (n : Nat) : Spares v (.drop n)
  /-- An ack that runs in it may close a client, but does no more than that. -/
  | ends {move : TenancyMove σ} (h : ∀ e ∈ v.events move, e.Spares v.group.slot) : Spares v move

variable [TenantHost σ] {v v' : Tenancy σ} {move : TenancyMove σ}

omit [TenantHost σ] in
theorem Spares.events (h : v.Spares move) :
    ∀ e ∈ v.events move, e.Spares v.group.slot := by
  cases h with
  | ends h => exact h
  | drops n => exact fun e he => absurd he List.not_mem_nil
  | works hclose hforce =>
      rename_i n command
      intro e he
      cases command with
      | close => exact absurd rfl hclose
      | forceClose => exact absurd rfl hforce
      | _ => cases he
  | loses h =>
      intro e he
      obtain ⟨c, hc, rfl⟩ := Option.map_eq_some_iff.1 (Option.mem_toList.1 he)
      rw [h]
      exact .loses c.id
  | other hcommand h =>
      intro e he
      rcases hcommand with rfl | rfl
      · obtain ⟨c, hc, rfl⟩ := Option.map_eq_some_iff.1 (Option.mem_toList.1 he)
        cases (v.group.close _).1 with
        | true => exact .closed (h c hc)
        | false => exact .loses _
      · obtain ⟨c, hc, rfl⟩ := Option.map_eq_some_iff.1 (Option.mem_toList.1 he)
        exact .forced (h c hc)

/-- The slot holds the value that was attached last, be it a client that was bound or
something that others attached, unless since then somebody removed it, or it is a client
that was closed by force, or by a close that it answered with "yes"; then the slot is
empty.  A close that is answered "no", a close of another client, sends and everything
else that a client can be asked for, and letting go of a client leave it as it is.  No
two clients have the same identity.  A session that goes on by itself may take any step of
its run. -/
theorem slot_follows_ownership (h : v.Reached) :
    ((∀ value, .attached value ∉ v.history) → v.group.slot = none) ∧
    (∀ before value since, v.history = before ++ .attached value :: since →
      (∀ other, .attached other ∉ since) →
      ((∃ e ∈ since, e.Ends value) → v.group.slot = none) ∧
      ((∀ e ∈ since, ¬ e.Ends value) → v.group.slot = some value)) ∧
    (∀ move v', v.step? move = some v' → v.Spares move → v'.group.slot = v.group.slot) ∧
    (∀ n m c d, v.group.client? n = some c → v.group.client? m = some d → c.id = d.id → n = m) ∧
    ∀ (u : Tenancy Run) (e : RunEvent) (w : Run), u.group.session.step? e = some w →
      (∀ call, e ≠ .outside call) →
      u.step? (.session w) = some { u with group := { u.group with session := w } } := by
  refine ⟨fun hnone => ?_, fun before value since hhistory hlast => ?_, ?_,
    fun n m c d hc hd => h.id_injective hc hd, fun u e w => step?_session⟩
  · rw [h.slot_eq]
    exact SlotEvent.foldl_apply_none hnone
  · rw [h.slot_eq, hhistory, List.foldl_append, List.foldl_cons]
    exact SlotEvent.foldl_apply_some hlast
  · intro move v' hstep hspares
    rw [(slot_of_step hstep).2]
    exact SlotEvent.foldl_apply_of_spares hspares.events

/-! ### A client that has lost its slot and got it back -/

/-- Two clients are bound to a session.  The first closes after the second has come, is
attached again by somebody else, and closes once more.  A send of the second is pending,
with an ack that closes the first by force, and its caller has let go of it. -/
def reinstated : Tenancy ScriptedSession :=
  (start { id := 0, remote := none, script := [.pending], otherwise := .auto }).after
    [.bind ⟨7⟩, .bind ⟨3⟩, .client 0 .close, .attach .client (.owner ⟨7⟩), .client 0 .close,
      .client 1 (.sendMessage none (.ofBody 1 []) (some (.tell "ack" 0 (some .forceClose)))),
      .drop 1]

/-- The send has ended. -/
def vacated : Tenancy ScriptedSession := reinstated.after [.complete 0 .succeeded]

theorem reinstated_then_vacated :
    reinstated.Reached ∧ vacated.Reached ∧ reinstated.dropped = [1] ∧
      reinstated.group.slot = some (.owner ⟨7⟩) ∧ vacated.group.slot = none := by
  have hreached : reinstated.Reached := ⟨_, .start _, steps_after _ _⟩
  have hthen : vacated.Reached := hreached.after _
  have hhistory : reinstated.history =
      [.attached (.owner ⟨7⟩), .attached (.owner ⟨3⟩), .closed ⟨7⟩ true] ++
        .attached (.owner ⟨7⟩) :: [.closed ⟨7⟩ false] := by decide +kernel
  have hforced : vacated.history =
      [.attached (.owner ⟨7⟩), .attached (.owner ⟨3⟩), .closed ⟨7⟩ true] ++
        .attached (.owner ⟨7⟩) :: [.closed ⟨7⟩ false, .forced ⟨7⟩] := by decide +kernel
  obtain ⟨-, hslot, -⟩ := slot_follows_ownership hreached
  obtain ⟨-, hgone, -⟩ := slot_follows_ownership hthen
  refine ⟨hreached, hthen, by decide +kernel,
    (hslot _ _ _ hhistory (by simp)).2 ?_, (hgone _ _ _ hforced (by simp)).1 ?_⟩
  · intro e he hends
    rw [List.mem_singleton.1 he] at hends
    cases hends
  · exact ⟨.forced ⟨7⟩, by simp, .forced rfl⟩

end Tenancy

end PeerLink
