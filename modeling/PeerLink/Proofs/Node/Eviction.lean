import PeerLink.Proofs.Node.Roster
import PeerLink.Proofs.Node.Sweep
import PeerLink.Proofs.Session.Idleness

/-!
# Whom the sweep takes out

The sweeping task takes out whom it has noted and who is still there, without asking
again how long the client has been idle.  Between the note and that moment the sessions
go on, and one that was idle may not be so any more.

So a client that is taken out had been idle for too long when it was noted, earlier in
the same sweep, and was in the table all the time.  If it has not been idle for so long
when it is taken out, something has happened on its session meanwhile.

## Main results

* `Logbook.Reached.suspect` — whoever is still to be taken out was idle when the sweep
  began.
* `Logbook.evicted_clients_were_idle_when_noted` — whom the sweep takes out.
* `Logbook.busy_client_is_evicted` — a client that has just been heard of.
-/

namespace PeerLink

/-! ## Idle times -/

namespace Listener

variable {σ : Type} [SessionHost σ]

/-- When something last happened on a session, as its stamps have it. -/
def lastActive (l : Listener σ) (n : Nat) : Duration :=
  match l.connections[n]? with
  | none => ⟨0⟩
  | some c => (SessionHost.stamps c.group.session).latest

/-- A session has been idle since its latest stamp. -/
theorem idleTime_eq {l : Listener σ} {n : Nat} (hn : n < l.connections.size) :
    l.idleTime n = l.clock - l.lastActive n := by
  unfold idleTime lastActive
  rw [Array.getElem?_eq_getElem hn]
  exact Stamps.idleAt_eq _ _

end Listener

/-! ## From the note to the end of the sweep -/

namespace Logbook

variable {σ : Type} [SessionHost σ]

/-- From one moment to a later one, while something holds all the time. -/
def StepsWhile (P : Listener σ → Prop) (b b' : Logbook σ) : Prop :=
  P b.node ∧ Relation.ReflTransGen (fun b b' => Leads step? b b' ∧ P b'.node) b b'

variable {b b' b₀ b₁ : Logbook σ} {P : Listener σ → Prop} {n : Nat} {move : ListenerMove σ}

theorem StepsWhile.refl (hb : P b.node) : StepsWhile P b b := ⟨hb, .refl⟩

theorem StepsWhile.tail (h : StepsWhile P b₀ b) (he : b.step? move = some b')
    (hb' : P b'.node) : StepsWhile P b₀ b' :=
  ⟨h.1, h.2.tail ⟨⟨move, he⟩, hb'⟩⟩

theorem StepsWhile.steps (h : StepsWhile P b b') : Steps b b' := h.2.lift id fun _ _ hs => hs.1

theorem sweepEffect_of_step? (he : b.step? move = some b') :
    b.node.SweepEffect move b'.node.sweep := by
  obtain ⟨node, hnode, rfl⟩ := Option.map_eq_some_iff.1 he
  exact Listener.sweepEffect_of_step hnode

/-- The clock of a node goes on, and its idle timeout stays. -/
theorem Steps.later (h : Steps b b') :
    b'.node.idleTimeout = b.node.idleTimeout ∧ b.node.clock ≤ b'.node.clock := by
  induction h with
  | refl => exact ⟨rfl, Nat.le_refl _⟩
  | tail _ he ih =>
      obtain ⟨move, he⟩ := he
      obtain ⟨htimeout, hclock⟩ := (sweepEffect_of_step? he).later
      exact ⟨htimeout.trans ih.1, Nat.le_trans ih.2 hclock⟩

/-- A client is in the table while a sweep is under way. -/
def IsExposed (n : Nat) (l : Listener σ) : Prop := n ∈ l.table ∧ l.sweeping.IsUnderWay

/-- The client was noted in the sweep that is under way, having been idle for too long,
and has been in the table since then. -/
def Suspect (b : Logbook σ) (n : Nat) : Prop :=
  ∃ b₀ b₁ : Logbook σ, b₀.Reached ∧ b₀.step? .note = some b₁ ∧
    StepsWhile (IsExposed n) b₁ b ∧ n ∈ b₀.node.table ∧ b₀.node.idleTimeout < b₀.node.idleTime n

theorem Reached.settled_of_mem (h : b.Reached) (hn : n ∈ b.node.table) :
    b.node.roster.Settled n :=
  h.sound.listed n hn

/-- Whoever is still to be taken out is no newcomer, and was noted in the present sweep,
if it is in the table at all. -/
theorem Reached.suspect (h : b.Reached) (hn : n ∈ b.node.sweeping.pending) :
    b.node.roster.Settled n ∧ (n ∈ b.node.table → b.Suspect n) := by
  obtain ⟨_, ⟨idleTimeout, clock⟩, hs⟩ := h
  induction hs with
  | refl => cases hn
  | tail hs he ih =>
      obtain ⟨move, he⟩ := he
      rename_i b b'
      have hreached : b.Reached := ⟨_, .start idleTimeout clock, hs⟩
      have heffect := effect_of_step he
      have hunder : b'.node.sweeping.IsUnderWay := SweepStage.isUnderWay_of_pending hn
      rcases (sweepEffect_of_step? he).pending hn with hbefore | ⟨rfl, hidle⟩
      · obtain ⟨hsettled, hsuspect⟩ := ih hbefore
        refine ⟨hsettled.later heffect, fun hin => ?_⟩
        -- What had left the table would not be back.
        have hstill : n ∈ b.node.table := by
          by_contra hout
          exact hsettled.stays_out hout heffect hin
        obtain ⟨b₀, b₁, hb₀, hnote, hwhile, hlong⟩ := hsuspect hstill
        exact ⟨b₀, b₁, hb₀, hnote, hwhile.tail he ⟨hin, hunder⟩, hlong⟩
      · obtain ⟨hmem, hlong⟩ := List.mem_filter.1 hidle
        refine ⟨(hreached.settled_of_mem hmem).later heffect, fun hin => ?_⟩
        exact ⟨b, b', hreached, he, .refl ⟨hin, hunder⟩, hmem, of_decide_eq_true hlong⟩

/-- Whoever has been idle for too long, and is not so any more, has been active. -/
theorem lastActive_lt (hs : Steps b₀ b) (hn₀ : n < b₀.node.connections.size)
    (hn : n < b.node.connections.size) (hlong : b₀.node.idleTimeout < b₀.node.idleTime n)
    (hshort : b.node.idleTime n ≤ b.node.idleTimeout) :
    b₀.node.lastActive n < b.node.lastActive n := by
  obtain ⟨htimeout, hclock⟩ := hs.later
  rw [Listener.idleTime_eq hn₀] at hlong
  rw [Listener.idleTime_eq hn, htimeout] at hshort
  have hlong' : _ < b₀.node.clock.nanos - (b₀.node.lastActive n).nanos := hlong
  have hshort' : b.node.clock.nanos - (b.node.lastActive n).nanos ≤ _ := hshort
  have hclock' : b₀.node.clock.nanos ≤ b.node.clock.nanos := hclock
  show (b₀.node.lastActive n).nanos < (b.node.lastActive n).nanos
  omega

/-- A client that the sweep takes out of the table is closed.  Earlier in the same sweep
it was noted, and then it had been idle for longer than the idle timeout; from then on
it was in the table.  If that is no longer so at the moment when it is taken out,
something has happened on its session since it was noted. -/
theorem evicted_clients_were_idle_when_noted (h : b.Reached) (he : b.step? .evict = some b')
    (hin : n ∈ b.node.table) (hout : n ∉ b'.node.table) :
    b'.node.isClosed n = true ∧
      ∃ b₀ b₁ : Logbook σ, b₀.Reached ∧ b₀.step? .note = some b₁ ∧
        StepsWhile (IsExposed n) b₁ b ∧
        n ∈ b₀.node.table ∧ b₀.node.idleTimeout < b₀.node.idleTime n ∧
        (b.node.idleTimeout < b.node.idleTime n ∨
          b₀.node.lastActive n < b.node.lastActive n) := by
  have heffect := effect_of_step he
  have hsettled := h.settled_of_mem hin
  have h' : b'.Reached := h.steps (.single ⟨.evict, he⟩)
  have hclosed : b'.node.isClosed n = true := by
    rw [h'.mem_table_iff (hsettled.later heffect), Bool.not_eq_false] at hout
    exact hout
  have hpending : n ∈ b.node.sweeping.pending := by
    cases heffect.takes_out hin hout with
    | evicted hs =>
        rw [hs]
        exact List.mem_cons_self
  obtain ⟨-, hsuspect⟩ := h.suspect hpending
  obtain ⟨b₀, b₁, hb₀, hnote, hwhile, hmem, hlong⟩ := hsuspect hin
  refine ⟨hclosed, b₀, b₁, hb₀, hnote, hwhile, hmem, hlong, ?_⟩
  rcases Nat.lt_or_ge b.node.idleTimeout.nanos (b.node.idleTime n).nanos with hstill | hshort
  · exact .inl hstill
  · have hsteps : Steps b₀ b := .head ⟨.note, hnote⟩ hwhile.steps
    exact .inr (lastActive_lt hsteps (hb₀.settled_of_mem hmem).1 hsettled.1 hlong hshort)

/-! ### A sweep, and a frame that comes in the middle of it -/

/-- A client has been idle for 31 seconds, a second more than it may be, and a sweep has
noted it. -/
def forgotten : Logbook Run :=
  after { node := { idleTimeout := ⟨30_000_000_000⟩, clock := ⟨0⟩ } }
    [.accept default (.start "1" none {} default), .bind, .insert, .wait ⟨31_000_000_000⟩, .note]

theorem reached_forgotten : forgotten.Reached := ⟨_, .start _ _, steps_after _ _⟩

/-- Nothing comes from the peer. -/
def evicting : Logbook Run := forgotten.after [.lock]

theorem evicting_takes_out_idle_client :
    ∃ b', evicting.step? .evict = some b' ∧ 0 ∈ evicting.node.table ∧ 0 ∉ b'.node.table ∧
      b'.node.isClosed 0 = true ∧ evicting.node.idleTimeout < evicting.node.idleTime 0 := by
  have hreached : evicting.Reached := reached_forgotten.steps (steps_after _ _)
  have hin : 0 ∈ evicting.node.table := by decide
  obtain ⟨b', he, hout⟩ : ∃ b', evicting.step? .evict = some b' ∧ 0 ∉ b'.node.table :=
    ⟨_, rfl, by decide +kernel⟩
  obtain ⟨hclosed, -⟩ := evicted_clients_were_idle_when_noted hreached he hin hout
  exact ⟨b', he, hin, hout, hclosed, by decide⟩

/-- The session of that client. -/
def awaited : Run :=
  ((forgotten.node.connections[0]?).map fun c => c.group.session).getD (.start "1" none {} default)

/-- At last the peer sends a frame. -/
def heard : Run :=
  awaited.after
    [.tick ⟨31_000_000_000⟩, .read, .read, .got [0, 0, 0, 2, 0, 1], .read, .read]

/-- The frame has come when the sweep gets the table. -/
def revived : Logbook Run := forgotten.after [.session 0 heard heard.session.events, .lock]

/-- The client has just been heard of, and the sweep takes it out and closes it. -/
theorem busy_client_is_evicted :
    revived.Reached ∧ Run.Steps awaited heard ∧ heard.session.events.length = 1 ∧
      ∃ b', revived.step? .evict = some b' ∧ 0 ∈ revived.node.table ∧ 0 ∉ b'.node.table ∧
        b'.node.isClosed 0 = true ∧ revived.node.idleTime 0 = ⟨0⟩ ∧
        ¬ revived.node.idleTimeout < revived.node.idleTime 0 := by
  exact ⟨reached_forgotten.steps (steps_after _ _), steps_after _ _, by decide +kernel, _, rfl,
    by decide, by decide +kernel, by decide +kernel, by decide +kernel, by decide +kernel⟩

end Logbook

end PeerLink
