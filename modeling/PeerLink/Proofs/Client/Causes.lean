import PeerLink.Proofs.Client.Tally
import PeerLink.Proofs.Fault.Walk

/-!
# What the errors of clients were raised for

A client does not raise an error for a fault of the connection: it answers that the caller
should connect anew.  What it does raise an error for is a cause that is no stream failure
and was not raised for one.  So whoever walks through the report of such an error comes
to the same verdict as the client.

## Main results

* `ClientGroup.hasIoSource_of_sendStep` — an error that a send ends with has no stream
  failure behind it.
* `Dealings.Reached.isFaultless` — nor has any error of any send, whatever was done in
  between.
* `Failure.stream_failures_are_found_behind_plain_links` — how far the walk reaches, which
  errors are faults of the connection, and that clients raise none of these.
-/

namespace PeerLink

namespace ClientGroup

variable {σ : Type} [SessionHost σ] {g g' : ClientGroup σ} {n : Nat} {e : ClientError}

theorem hasIoSource_of_classify {result : Option SendResult}
    (h : g.classify n result = .error e) : e.hasIoSource = false := by
  rw [← Bool.not_eq_true, ClientError.hasIoSource_iff]
  rintro ⟨client, fault, rfl⟩
  unfold classify at h
  split at h
  · cases h
  · cases h
  · split at h
    · cases h
    · rename_i cause hfault
      obtain ⟨-, rfl⟩ := ClientError.sendFailed.inj (Except.error.inj h)
      exact hfault rfl

/-- A call that is turned away was not raised for anything, and the others are classified. -/
theorem hasIoSource_of_sendStep {call : SendCall} {stage : SendStage}
    (h : g.sendStep call stage = .done (.error e) g') : e.hasIoSource = false := by
  cases stage with
  | opening =>
      simp only [sendStep] at h
      split at h
      · cases h
        rfl
      · split at h
        · cases h
        · cases h
          rfl
  | counting | looking operation => cases h
  | handing | refused operation =>
      simp only [sendStep] at h
      split at h <;> cases h
  | registering operation =>
      simp only [sendStep] at h
      split at h
      · cases h
      · split at h <;> cases h
  | settling result =>
      simp only [sendStep, SendProgress.done.injEq] at h
      exact hasIoSource_of_classify h.1

end ClientGroup

namespace Dealings

variable {σ : Type} [SessionHost σ] {v v' : Dealings σ}

/-- If the send has ended with an error, no stream failure is behind it. -/
def Send.IsFaultless (c : Send) : Prop :=
  ∀ e, c.stage = .returned (.error e) → e.hasIoSource = false

omit [SessionHost σ] in
private theorem isFaultless_set {k : Nat} {c : Send}
    (h : ∀ c ∈ v.sends, c.IsFaultless) (hc : c.IsFaultless) :
    ∀ c' ∈ v.sends.set k c, c'.IsFaultless := by
  intro c' hmem
  rcases List.mem_or_eq_of_mem_set hmem with hmem | rfl
  · exact h c' hmem
  · exact hc

private theorem isFaultless_sendOn {k : Nat} (h : ∀ c ∈ v.sends, c.IsFaultless)
    (hstep : v.sendOn k = some v') : ∀ c ∈ v'.sends, c.IsFaultless := by
  unfold sendOn at hstep
  split at hstep
  · cases hstep
  · split at hstep
    · obtain rfl := Option.some.inj hstep
      exact isFaultless_set h fun e he => by cases he
    · split at hstep
      · obtain rfl := Option.some.inj hstep
        exact isFaultless_set h fun e he => by cases he
      · rename_i answer g hdone
        obtain rfl := Option.some.inj hstep
        refine isFaultless_set h fun e he => ?_
        obtain rfl := CallStage.returned.inj he
        exact ClientGroup.hasIoSource_of_sendStep hdone
      · obtain rfl := Option.some.inj hstep
        exact isFaultless_set h fun e he => by cases he
    · cases hstep
    · cases hstep
    · cases hstep

private theorem isFaultless_step (h : ∀ c ∈ v.sends, c.IsFaultless) (hs : v.Step v') :
    ∀ c ∈ v'.sends, c.IsFaultless := by
  cases hs with
  | session | binds | closes => exact h
  | sends call hn =>
      intro c hc
      rcases List.mem_append.1 hc with hc | hc
      · exact h c hc
      · rw [List.mem_singleton.1 hc]
        exact fun e he => by cases he
  | sendGoes hstep => exact isFaultless_sendOn h hstep
  | sendReturns n hk hs => exact isFaultless_set h fun e he => by cases he
  | sendAborts hk hs => exact isFaultless_set h fun e he => by cases he
  | closeGoes hstep =>
      unfold closeOn at hstep
      split at hstep
      · cases hstep
      · split at hstep
        · obtain rfl := Option.some.inj hstep
          exact h
        · dsimp only at hstep
          split at hstep <;> obtain rfl := Option.some.inj hstep <;> exact h
        · cases hstep
        · cases hstep
  | closeReturns hj hs => exact h

theorem Reached.isFaultless (h : v.Reached) : ∀ c ∈ v.sends, c.IsFaultless := by
  refine h.invariant (P := fun v => ∀ c ∈ v.sends, c.IsFaultless) ?_
    fun _ _ _ hs hv => isFaultless_step hv hs
  rintro _ ⟨s⟩ c hc
  cases hc

end Dealings

namespace Failure

/-- The search for a stream failure comes to an end with one answer.  It finds one if and
only if a plain link is followed by one, or the report ends in a transport error that
carries one.  What stands behind stream failures only is stepped over.  Of all transport
errors, whatever is nested in them, those that carry a stream failure and the closed
session are faults of the connection, and no error that a send through a client ends with
has a stream failure behind it. -/
theorem stream_failures_are_found_behind_plain_links (f : Failure) :
    (∀ answer, Search f.source? answer ↔ answer = f.hasIoSource) ∧
      (f.hasIoSource = true ↔
        (∃ a b, [a, b] <:+: f.links ∧ a.isPlain = true ∧ b.isIo = true) ∨
          ∃ fault, f.links.getLast? = some (transport (.io fault))) ∧
      (∀ before g, f.links = before ++ g.links → (∀ l ∈ before, l.isIo = true) →
        f.sources = g.sources ∧ g ∉ f.sources) ∧
      (∀ e : TransportError, (transport e).hasIoSource = e.hasIoSource ∧
        (e.isIoFault = true ↔ (∃ fault, e = .io fault) ∨ e = .sessionClosed)) ∧
      ∀ (σ : Type) [SessionHost σ] (v : Dealings σ), v.Reached → ∀ c ∈ v.sends, ∀ e,
        c.stage = .returned (.error e) → e.hasIoSource = false := by
  refine ⟨f.search_iff, f.hasIoSource_iff_links, ?_, ?_, ?_⟩
  · intro before g hlinks hbefore
    exact sources_of_links hlinks hbefore
  · intro e
    exact ⟨hasIoSource_transport e, e.isIoFault_iff⟩
  · intro σ _ v hv c hc e he
    exact hv.isFaultless c hc e he

/-- A stream failure around another one, around a plain one that was raised for a third. -/
def layered : Failure :=
  around (around (caused "lost" (around (transport .malformed))))

end Failure

namespace Dealings

/-- A client whose one send has begun, over a session that will refuse it. -/
def doomed : Dealings ScriptedSession where
  group := (ClientGroup.bind
    { session := { id := 0, remote := none, script := [.resolved (.error .malformed)],
                   otherwise := .auto } }).2
  sends := [{ call := { client := 0, payload := .buffer [] } }]

/-- The session has refused it. -/
def refusedOne : Dealings ScriptedSession := ((doomed.sendFor 0 3).sendTaken 0).sendFor 0 2

theorem reached_refusedOne : refusedOne.Reached := by
  have hbound : Steps (σ := ScriptedSession) { group := { session :=
    { id := 0, remote := none, script := [.resolved (.error .malformed)],
      otherwise := .auto } } } _ := .single (.binds ⟨0⟩)
  have hbegun : Steps _ doomed := hbound.tail (.sends _ (by decide))
  have hsent : Steps doomed refusedOne :=
    ((steps_sendFor _ 0 3).trans (steps_sendTaken _ 0)).trans (steps_sendFor _ 0 2)
  exact ⟨_, .start _, hbegun.trans hsent⟩

end Dealings

namespace Failure

/-- The third stream failure is found, and the second is not looked at.  The error of the
client that was refused has none behind it. -/
theorem layered_is_searched :
    Search layered.source? true ∧
      (∃ g, layered.links = [layered] ++ g.links ∧ g.isIo = true ∧ g ∉ layered.sources) ∧
      ∃ client, Dealings.refusedOne.sends.map (·.stage) =
          [.returned (.error (.sendFailed client .malformed))] ∧
        (ClientError.sendFailed client .malformed).hasIoSource = false := by
  obtain ⟨hsearch, hfound, hskipped, -, hclients⟩ :=
    stream_failures_are_found_behind_plain_links layered
  have hlayered : layered.hasIoSource = true := by
    refine hfound.2 (.inl ⟨caused "lost" (around (transport .malformed)),
      around (transport .malformed), ?_, rfl, rfl⟩)
    exact ⟨[layered, around (caused "lost" (around (transport .malformed)))],
      [transport .malformed], rfl⟩
  refine ⟨(hsearch true).2 hlayered.symm, ?_, ?_⟩
  · refine ⟨around (caused "lost" (around (transport .malformed))), rfl, rfl, ?_⟩
    refine (hskipped [layered] _ rfl ?_).2
    intro l hl
    rw [List.mem_singleton.1 hl]
    rfl
  · obtain ⟨client, hstages⟩ : ∃ client, Dealings.refusedOne.sends.map (·.stage) =
        [.returned (.error (.sendFailed client .malformed))] := ⟨_, rfl⟩
    have hmem := List.mem_singleton_self
      (CallStage.returned (.error (.sendFailed client .malformed)))
    rw [← hstages] at hmem
    obtain ⟨c, hc, hstage⟩ := List.mem_map.1 hmem
    exact ⟨client, hstages, hclients _ _ Dealings.reached_refusedOne c hc _ hstage⟩

end Failure

end PeerLink
