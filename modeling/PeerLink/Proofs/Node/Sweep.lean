import PeerLink.Node.Listener

/-!
# The sweep of a listening node

The sweeping task looks at the table twice.  First it notes who has been idle for too
long, then it takes the table for itself and takes these clients out, one after the
other.  Of all the steps of a node few touch the sweep: its own ones, and the clock goes
on.

## Main results

* `Listener.sweepEffect_of_step` — what a step does to the sweep.
* `Listener.SweepEffect.pending` — who is still to be taken out was so before, or has
  just been noted.
-/

namespace PeerLink

/-- The part of a node that decides whom the sweep takes out. -/
structure Sweep where
  idleTimeout : Duration
  clock : Duration
  stage : SweepStage

namespace SweepStage

/-- The clients that have been noted and are still to be taken out. -/
def pending : SweepStage → List Nat
  | noted idle | taking idle => idle
  | waiting | ended => []

/-- A sweep has begun and is not over. -/
def IsUnderWay (stage : SweepStage) : Prop := stage ≠ waiting ∧ stage ≠ ended

theorem isUnderWay_of_pending {stage : SweepStage} {n : Nat} (hn : n ∈ stage.pending) :
    stage.IsUnderWay := by
  cases stage with
  | waiting | ended => cases hn
  | noted idle | taking idle => exact ⟨nofun, nofun⟩

end SweepStage

namespace Listener

variable {σ : Type} {l l' : Listener σ} {n : Nat}

def sweep (l : Listener σ) : Sweep := ⟨l.idleTimeout, l.clock, l.sweeping⟩

variable [SessionHost σ]

@[simp] theorem sweep_dropClient (reason : Option String) :
    (l.dropClient n reason).sweep = l.sweep := by
  unfold dropClient
  split <;> rfl

@[simp] theorem sweep_evictClient : (l.evictClient n).sweep = l.sweep := by
  unfold evictClient
  split
  · rfl
  · dsimp only
    split
    · split <;> rfl
    · rfl

private theorem sweep_foldl (ns : List Nat) (l : Listener σ) :
    (ns.foldl (fun l n => l.modify n fun g => (g.close 0).2) l).sweep = l.sweep := by
  induction ns generalizing l with
  | nil => rfl
  | cons n ns ih => exact ih _

@[simp] theorem sweep_shutDown : l.shutDown.sweep = l.sweep := by
  have hfold := sweep_foldl l.table (l.log .info none "Shutting down")
  unfold shutDown
  exact hfold

/-- What a step can do to the sweep. -/
inductive SweepEffect (l : Listener σ) : ListenerMove σ → Sweep → Prop
  | aside {move : ListenerMove σ} {s : Sweep} (h : s = l.sweep) : SweepEffect l move s
  | waits (d : Duration) :
      SweepEffect l (.wait d) { l.sweep with clock := ⟨l.clock.nanos + d.nanos⟩ }
  | notes (hs : l.sweeping = .waiting) :
      SweepEffect l .note { l.sweep with
        stage := if l.idleClients.isEmpty then .waiting else .noted l.idleClients }
  | locks {idle : List Nat} (hs : l.sweeping = .noted idle) :
      SweepEffect l .lock { l.sweep with stage := .taking idle }
  | takes {n : Nat} {rest : List Nat} {s : Sweep} (hs : l.sweeping = .taking (n :: rest))
      (h : s = { l.sweep with stage := .taking rest }) : SweepEffect l .evict s
  | ends (hs : l.sweeping = .taking []) :
      SweepEffect l .evict { l.sweep with stage := .waiting }

theorem sweepEffect_of_step {move : ListenerMove σ} (h : l.step move = some l') :
    l.SweepEffect move l'.sweep := by
  cases move with
  | accept peer session =>
      simp only [step, accept] at h
      split at h <;> cases h
      exact .aside rfl
  | bind =>
      simp only [step, bind] at h
      split at h
      · split at h <;> cases h
        exact .aside rfl
      · cases h
  | insert =>
      simp only [step, insert] at h
      split at h
      · split at h <;> cases h
        exact .aside rfl
      · cases h
  | session n session events =>
      cases h
      exact .aside rfl
  | handle =>
      simp only [step, handle] at h
      split at h
      · cases h
      · cases h
        exact .aside rfl
      · split at h <;> cases h
        exact .aside (sweep_dropClient _)
  | wait d =>
      cases h
      exact .waits d
  | note =>
      simp only [step, note] at h
      split at h
      · rename_i hs
        cases h
        exact .notes hs
      · cases h
  | lock =>
      simp only [step, lock] at h
      split at h
      · rename_i idle hs
        cases h
        exact .locks hs
      · cases h
  | evict =>
      simp only [step, evict] at h
      split at h
      · rename_i hs
        cases h
        exact .ends hs
      · rename_i n rest hs
        cases h
        exact .takes hs sweep_evictClient
      · cases h
  | interrupt =>
      simp only [step] at h
      split at h <;> cases h
      exact .aside sweep_shutDown

theorem SweepEffect.later {move : ListenerMove σ} {s : Sweep} (h : l.SweepEffect move s) :
    s.idleTimeout = l.idleTimeout ∧ l.clock ≤ s.clock := by
  have hsame : l.clock ≤ l.clock := Nat.le_refl _
  cases h with
  | aside h | takes hs h =>
      subst h
      exact ⟨rfl, hsame⟩
  | waits d => exact ⟨rfl, Nat.le_add_right _ _⟩
  | notes hs | locks hs | ends hs => exact ⟨rfl, hsame⟩

/-- Whoever is still to be taken out was so before the step, or has been noted in it. -/
theorem SweepEffect.pending {move : ListenerMove σ} {s : Sweep} (h : l.SweepEffect move s)
    (hn : n ∈ s.stage.pending) :
    n ∈ l.sweeping.pending ∨ move = .note ∧ n ∈ l.idleClients := by
  cases h with
  | aside h =>
      subst h
      exact .inl hn
  | waits d => exact .inl hn
  | notes hs =>
      refine .inr ⟨rfl, ?_⟩
      dsimp only at hn
      split at hn
      · cases hn
      · exact hn
  | locks hs =>
      rw [hs]
      exact .inl hn
  | takes hs h =>
      subst h
      rw [hs]
      exact .inl (List.mem_cons_of_mem _ hn)
  | ends hs => cases hn

/-- No step ends the sweeping task, and none brings it back. -/
theorem SweepEffect.ended_iff {move : ListenerMove σ} {s : Sweep} (h : l.SweepEffect move s) :
    s.stage = .ended ↔ l.sweeping = .ended := by
  cases h with
  | aside h =>
      subst h
      exact Iff.rfl
  | waits d => exact Iff.rfl
  | notes hs =>
      rw [hs]
      dsimp only
      split <;> exact iff_of_false nofun nofun
  | locks hs | ends hs =>
      rw [hs]
      exact iff_of_false nofun nofun
  | takes hs h =>
      subst h
      rw [hs]
      exact iff_of_false nofun nofun

end Listener

end PeerLink
