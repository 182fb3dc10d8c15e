import PeerLink.Proofs.Client.Clientele

/-!
# Two channels for one outcome

A caller who gives an ack can hear of the end of a send in two ways: the call
answers, or the ack runs.  Over any session, and whatever the session does
between the steps of a call, it is never both.  An ack runs at most once, and
only if the call answers that the send is in flight; an answer that says more
tells how the operation ended, and the ack is then silent for good.

It may be neither.  An operation that carries a callback of the session's own
refuses the ack, and if it is still pending when the call looks, the answer is
in flight all the same.  Apart from that, an ack whose call has answered so runs
when the operation ends.

## Main results

* `Clientele.acks_use_one_channel` — the answer of a call, or its ack, and each
  with the recorded result.
* `Clientele.acks_in_flight` — what becomes of an ack whose call answered that the
  send is in flight.
* `Clientele.busy_session_silences_ack` — a session with callbacks of its own.
-/

namespace PeerLink

/-! ## The runs of an ack -/

namespace ClientCall

variable {w : Family Ack} {c : ClientCall} {n : Nat}

/-- All runs of the ack of a call. -/
def runs (w : Family Ack) (c : ClientCall) : List (Invocation Ack) :=
  match c.passing with
  | none => []
  | some i => w.invocations.filter fun y => y.passed.number == i

theorem runs_of_passing_eq_none (h : c.passing = none) : c.runs w = [] := by
  unfold runs
  rw [h]

theorem runs_eq_runsOf {i : Nat} (h : c.passing = some i) (ack : Ack) :
    c.runs w = w.runsOf ⟨i, ack⟩ := by
  unfold runs
  rw [h]
  rfl

/-- An ack that no operation has does not run. -/
theorem Unheard.runs (h : c.Unheard w n) (hw : w.Reached) : c.runs w = [] := by
  rcases h with ⟨-, hnone⟩ | ⟨ack, i, -, hpassing, hmem⟩
  · exact runs_of_passing_eq_none hnone
  · rw [runs_eq_runsOf hpassing ack]
    exact (hw.stands_refused hmem rfl).2

/-- An ack that was taken on has not run, or has run once. -/
theorem Asked.runs (h : c.Asked w n true) (hw : w.Reached) : c.runs w = [] ∨
    ∃ ack i r, c.call.ack = some ack ∧ c.runs w = [⟨n, ⟨i, ack⟩, r⟩] ∧
      w.board.result? n = some r := by
  obtain ⟨ack, i, hack, hpassing, hmem⟩ := h
  rw [runs_eq_runsOf hpassing ack]
  obtain ⟨s, hs⟩ := hw.exists_stands hmem
  cases s with
  | refused => cases hs.1
  | removed => exact .inl hs.2
  | registered => exact .inl hs.2.2
  | due => exact .inl hs.2
  | run =>
      obtain ⟨r, hr, hruns⟩ := hs
      exact .inr ⟨ack, i, r, hack, hruns, hr⟩

/-- An ack runs only if its operation took it on, and then the call answers that
the send is in flight. -/
theorem Holds.silent_or_asked (h : c.Holds w) (hw : w.Reached) : c.runs w = [] ∨
    ∃ n, c.operation = some n ∧ c.Asked w n true ∧
      (c.stage = .returned (.ok .inFlight) ∨ c.stage = .going (.settling none)) := by
  have hlearned : ∀ {n : Nat} {result : Option SendResult}, c.Learned w n result →
      c.runs w = [] ∨ c.Asked w n true ∧ result = none := by
    intro n result hl
    cases result with
    | none =>
        rcases hl with hasked | ⟨hunheard, -⟩
        · exact .inr ⟨hasked, rfl⟩
        · exact .inl (hunheard.runs hw)
    | some r => exact .inl (hl.2.runs hw)
  cases hstage : c.stage with
  | handed | aborted =>
      unfold Holds at h
      rw [hstage] at h
      exact .inl (runs_of_passing_eq_none h.2)
  | going stage =>
      unfold Holds at h
      rw [hstage] at h
      cases stage with
      | opening | counting | handing => exact .inl (runs_of_passing_eq_none h.2)
      | registering n => exact .inl (runs_of_passing_eq_none h.2.1)
      | refused n | looking n => exact .inl (h.2.runs hw)
      | settling result =>
          obtain ⟨n, ho, hl⟩ := h
          rcases hlearned hl with hnone | ⟨hasked, rfl⟩
          · exact .inl hnone
          · exact .inr ⟨n, ho, hasked, .inr rfl⟩
  | returned answer =>
      unfold Holds at h
      rw [hstage] at h
      rcases h with ⟨-, hnone, -⟩ | ⟨n, result, ho, ha, hl⟩
      · exact .inl (runs_of_passing_eq_none hnone)
      · rcases hlearned hl with hsilent | ⟨hasked, rfl⟩
        · exact .inl hsilent
        · have hflight : answer = .ok .inFlight := ha
          rw [hflight]
          exact .inr ⟨n, ho, hasked, .inl rfl⟩

end ClientCall

namespace Clientele

variable {σ : Type} [SessionHost σ] {v v' : Clientele σ} {c : ClientCall} {k : Nat}

/-- A call that has learned that its operation is pending answers so next. -/
theorem goOn_of_settling (hk : v.calls[k]? = some c) (hs : c.stage = .going (.settling none)) :
    ∃ v', v.goOn k = some v' ∧
      v'.calls[k]? = some { c with stage := .returned (.ok .inFlight) } := by
  have hlt := (List.getElem?_eq_some_iff.1 hk).1
  unfold goOn
  rw [hk]
  simp only [hs, ClientGroup.sendStep]
  exact ⟨_, rfl, List.getElem?_set_self hlt⟩

variable [LawfulHost σ]

/-- An ack that no operation has will never run. -/
theorem Reached.silent (h : v.Reached) {n : Nat} (hu : c.Unheard v.family n)
    (hs : Steps v v') : c.runs v'.family = [] := by
  have hsteps := h.family_steps hs
  have hpassings := (hsteps.grows h.sound.family).1
  exact (hu.later hpassings).runs (Reached.sound (h.steps hs)).family

theorem Reached.result?_eq (h : v.Reached) (n : Nat) :
    (SessionHost.board v.group.session).result? n = v.family.board.result? n := by
  rw [h.sound.board, Board.result?_map]

/-! ## Never both -/

/-- An outcome is told in one way only, and truly.  At every moment the ack of a
call has not run, or it has run once, with the result of the operation that the
session handed out, and the call has answered that the send is in flight or does
so next.  If a call, with an ack or without, has answered anything else, its ack
never runs, and either the call was turned away before the session was asked, or
the answer is the one for the result of the operation. -/
theorem acks_use_one_channel (h : v.Reached) (hk : v.calls[k]? = some c) :
    (c.runs v.family = [] ∨
      ∃ n ack i r, c.operation = some n ∧ c.call.ack = some ack ∧
        c.runs v.family = [⟨n, ⟨i, ack⟩, r⟩] ∧
        (SessionHost.board v.group.session).result? n = some r ∧
        (c.stage = .returned (.ok .inFlight) ∨
          ∃ v', v.goOn k = some v' ∧
            v'.calls[k]? = some { c with stage := .returned (.ok .inFlight) })) ∧
    ∀ answer, c.stage = .returned answer → answer ≠ .ok .inFlight →
      (∀ v', Steps v v' → c.runs v'.family = []) ∧
        (c.operation = none ∧ answer.TurnsAway c.call ∨
          ∃ n r, c.operation = some n ∧
            (SessionHost.board v.group.session).result? n = some r ∧
            answer.Reports (some r)) := by
  have hsound := h.sound
  have hholds := hsound.calls c (List.mem_of_getElem? hk)
  constructor
  · rcases hholds.silent_or_asked hsound.family with hsilent | ⟨n, ho, hasked, hstage⟩
    · exact .inl hsilent
    · rcases hasked.runs hsound.family with hsilent | ⟨ack, i, r, hack, hruns, hr⟩
      · exact .inl hsilent
      · have hresult := (h.result?_eq n).trans hr
        refine .inr ⟨n, ack, i, r, ho, hack, hruns, hresult, ?_⟩
        rcases hstage with hreturned | hsettling
        · exact .inl hreturned
        · exact .inr (goOn_of_settling hk hsettling)
  · intro answer hanswer hother
    unfold ClientCall.Holds at hholds
    rw [hanswer] at hholds
    rcases hholds with ⟨ho, hnone, haway⟩ | ⟨n, result, ho, ha, hlearned⟩
    · exact ⟨fun v' _ => ClientCall.runs_of_passing_eq_none hnone, .inl ⟨ho, haway⟩⟩
    · cases result with
      | none => exact absurd ha hother
      | some r =>
          obtain ⟨hr, hunheard⟩ := hlearned
          have hresult := (h.result?_eq n).trans hr
          exact ⟨fun v' hs => h.silent hunheard hs, .inr ⟨n, r, ho, hresult, ha⟩⟩

/-! ## A scripted session -/

/-- A call that begins to send a message, and is to note how the send ended. -/
def watching (number : Nat) : ClientCall where
  call := { client := 0, payload := .message (.ofBody 1 []), ack := some (.watch number) }

/-- A send goes as far as handing its payload over. -/
def begun (v : Clientele ScriptedSession) (call : SendCall) : Clientele ScriptedSession :=
  Clientele.goFor { v with calls := v.calls ++ [{ call := call }] } v.calls.length 2

/-- The session takes the payload of call `k`, and moves its operations so. -/
def handedOver (v : Clientele ScriptedSession) (k : Nat) (events : List (FamilyEvent Ack)) :
    Clientele ScriptedSession :=
  match v.calls[k]? with
  | none => v
  | some c =>
    let (n, s) := v.group.session.send c.call.payload
    ⟨{ v.group with session := s }, v.family.after events, v.calls.set k
      { c with operation := some n, stage := .going (c.call.afterHanding n) }⟩

/-- A send runs from its beginning to its end. -/
def sent (v : Clientele ScriptedSession) (call : SendCall) (events : List (FamilyEvent Ack)) :
    Clientele ScriptedSession :=
  ((v.begun call).handedOver v.calls.length events).goFor v.calls.length 4

/-- Whoever runs the session ends an operation well, and its callback runs. -/
def ended (v : Clientele ScriptedSession) (n : Nat) (events : List (FamilyEvent Ack)) :
    Clientele ScriptedSession :=
  { v with
    group := ((v.group.complete n .succeeded).map Prod.snd).getD v.group
    family := v.family.after events }

section Scripted

variable {v : Clientele ScriptedSession}

theorem Reached.sent (h : v.Reached) {call : SendCall} {events : List (FamilyEvent Ack)}
    {c : ClientCall} (hk : (v.begun call).calls[v.calls.length]? = some c)
    (hs : c.stage = .going .handing)
    (hb : ((v.begun call).group.session.send c.call.payload).2.board =
      ((v.begun call).family.after events).board.map Passed.callback)
    (hn : ((v.begun call).group.session.send c.call.payload).1 ∈
      ((v.begun call).family.after events).handles) :
    (v.sent call events).Reached := by
  have hbegun : Steps v (v.begun call) := .head (.begins call) (steps_goFor _ _ _)
  have hhanded := (steps_handing hk hs rfl (steps_after _ events) hb hn).2
  unfold Clientele.sent handedOver
  rw [hk]
  exact h.steps ((hbegun.trans hhanded).trans (steps_goFor _ _ _))

theorem Reached.ended (h : v.Reached) {n : Nat} {events : List (FamilyEvent Ack)}
    (hb : (((v.group.complete n .succeeded).map Prod.snd).getD v.group).session.board =
      (v.family.after events).board.map Passed.callback) :
    (v.ended n events).Reached :=
  h.steps (.single (.session _ _ (steps_after _ events) hb))

end Scripted

/-- A scripted session with one client.  It leaves its first send pending, its
second too, but with a callback of its own, and ends the others at once. -/
def scripted : Clientele ScriptedSession where
  group :=
    { session := { id := 0, remote := none, script := [.pending, .busy], otherwise := .auto }
      clients := #[{ id := ⟨0⟩ }] }
  family := {}

/-- Two sends have been answered. -/
def flying : Clientele ScriptedSession :=
  (scripted.sent (watching 0).call [.create]).sent (watching 1).call
    [.create, .pass 1 .silent]

/-- Both have ended since, and a third has been answered. -/
def landed : Clientele ScriptedSession :=
  ((flying.ended 0 [.use 0 .succeeded, .call 0, .finish 0]).ended 1
    [.use 1 .succeeded, .call 1, .finish 1]).sent (watching 2).call [.createEnded .succeeded]

theorem reached_flying : flying.Reached := by
  have hstart : scripted.Reached := .start (.start (.start .empty) rfl)
  have hfirst : (scripted.sent (watching 0).call [.create]).Reached :=
    hstart.sent rfl rfl rfl (List.mem_singleton.2 rfl)
  exact hfirst.sent rfl rfl rfl (List.mem_cons_of_mem _ (List.mem_singleton.2 rfl))

/-- Both sends end. -/
private theorem reached_ended :
    ((flying.ended 0 [.use 0 .succeeded, .call 0, .finish 0]).ended 1
      [.use 1 .succeeded, .call 1, .finish 1]).Reached := by
  have hfirst : (flying.ended 0 [.use 0 .succeeded, .call 0, .finish 0]).Reached :=
    reached_flying.ended rfl
  exact hfirst.ended rfl

theorem reached_landed : landed.Reached :=
  reached_ended.sent rfl rfl rfl (List.mem_cons_of_mem _ (List.mem_cons_of_mem _
    (List.mem_singleton.2 rfl)))

theorem landed_uses_one_channel :
    ∃ c₀ c₂, landed.calls[0]? = some c₀ ∧ landed.calls[2]? = some c₂ ∧
      c₀.runs landed.family = [⟨0, ⟨0, .watch 0⟩, .succeeded⟩] ∧
      c₀.stage = .returned (.ok .inFlight) ∧ c₂.stage = .returned (.ok .accepted) ∧
      ∀ v', Steps landed v' → c₂.runs v'.family = [] := by
  refine ⟨_, _, rfl, rfl, rfl, rfl, rfl, ?_⟩
  obtain ⟨-, hanswered⟩ := acks_use_one_channel reached_landed (k := 2) rfl
  exact (hanswered (.ok .accepted) rfl (by simp)).1

/-! ## Acks in flight -/

/-- What becomes of an ack when the call has answered that the send is in flight.
If the operation has taken it on, it runs when the operation ends, once and with
the result: it has run, or the use of the completer runs it next, unless somebody
has taken it off.  Otherwise the operation had taken on another callback before,
and the ack never runs. -/
theorem acks_in_flight (h : v.Reached) (hc : c ∈ v.calls)
    (hs : c.stage = .returned (.ok .inFlight)) {ack : Ack} (hack : c.call.ack = some ack) :
    ∃ n i, c.operation = some n ∧ c.passing = some i ∧
      (⟨n, ⟨i, ack⟩, true⟩ ∈ v.family.passings ∧
          (∀ v', Steps v v' → ∀ r,
            (SessionHost.board v'.group.session).result? n = some r →
            (∀ d ∈ v'.family.departures, d.passed.number = i → d.result ≠ none) →
            c.runs v'.family = [⟨n, ⟨i, ack⟩, r⟩] ∨
              c.runs v'.family = [] ∧ ∃ j w, v'.family.step? (.call j) = some w ∧
                c.runs w = [⟨n, ⟨i, ack⟩, r⟩]) ∨
        ⟨n, ⟨i, ack⟩, false⟩ ∈ v.family.passings ∧
          (∃ x, ⟨n, x, true⟩ ∈ v.family.passings) ∧
          ∀ v', Steps v v' → c.runs v'.family = []) := by
  have hholds := h.sound.calls c hc
  unfold ClientCall.Holds at hholds
  rw [hs] at hholds
  rcases hholds with ⟨-, -, haway⟩ | ⟨n, result, ho, ha, hlearned⟩
  · exact absurd haway SendAnswer.not_turnsAway_inFlight
  · obtain rfl := SendAnswer.Reports.eq_none ha
    rcases hlearned with ⟨ack', i, hack', hpassing, hmem⟩ | ⟨hunheard, hother⟩
    · obtain rfl : ack = ack' := Option.some.inj (hack.symm.trans hack')
      refine ⟨n, i, ho, hpassing, .inl ⟨hmem, fun v' hsteps r hr hkept => ?_⟩⟩
      have hv' : v'.Reached := h.steps hsteps
      have hpassings := ((h.family_steps hsteps).grows h.sound.family).1
      rw [hv'.result?_eq] at hr
      rw [ClientCall.runs_eq_runsOf hpassing ack]
      rcases hv'.sound.family.runsOf_at_end (hpassings hmem) rfl hr hkept with
        hrun | ⟨hnone, j, w, he, hrun⟩
      · exact .inl hrun
      · refine .inr ⟨hnone, j, w, he, ?_⟩
        rw [ClientCall.runs_eq_runsOf hpassing ack]
        exact hrun
    · rcases id hunheard with ⟨hnone, -⟩ | ⟨ack', i, hack', hpassing, hmem⟩
      · rw [hnone] at hack
        cases hack
      · obtain rfl : ack = ack' := Option.some.inj (hack.symm.trans hack')
        have hcarried := hother (by rw [hpassing]; simp)
        exact ⟨n, i, ho, hpassing, .inr ⟨hmem, hcarried, fun v' => h.silent hunheard⟩⟩

theorem flying_ack_runs_at_end :
    ∃ c ∈ flying.calls, c.call.ack = some (.watch 0) ∧
      c.stage = .returned (.ok .inFlight) ∧
      ∀ v', Steps flying v' → ∀ r,
        (SessionHost.board v'.group.session).result? 0 = some r →
        (∀ d ∈ v'.family.departures, d.passed.number = 0 → d.result ≠ none) →
        c.runs v'.family = [⟨0, ⟨0, .watch 0⟩, r⟩] ∨
          c.runs v'.family = [] ∧ ∃ j w, v'.family.step? (.call j) = some w ∧
            c.runs w = [⟨0, ⟨0, .watch 0⟩, r⟩] := by
  have hc : _ ∈ flying.calls := List.mem_of_getElem? (i := 0) rfl
  refine ⟨_, hc, rfl, rfl, ?_⟩
  obtain ⟨n, i, ho, hi, htaken | hrefused⟩ := acks_in_flight reached_flying hc rfl rfl
  · cases ho
    cases hi
    exact htaken.2
  · cases ho
    cases hi
    have htaken : ⟨0, ⟨0, .watch 0⟩, true⟩ ∈ flying.family.passings :=
      List.mem_of_getElem? (i := 0) rfl
    have hsame := reached_flying.sound.family.custody.passing_inj hrefused.1 htaken rfl
    cases hsame

/-- A session that leaves callbacks of its own silences acks.  The second call was
answered in flight, its operation has ended and nobody took a callback off, but
only the ack of the first call has left a note, and that of the second never runs. -/
theorem busy_session_silences_ack :
    landed.Reached ∧ ∃ c ∈ landed.calls, c.call.ack = some (.watch 1) ∧
      c.stage = .returned (.ok .inFlight) ∧ c.operation = some 1 ∧
      (SessionHost.board landed.group.session).result? 1 = some .succeeded ∧
      (∀ d ∈ landed.family.departures, d.result = some .succeeded) ∧
      landed.group.notes = [.watched 0 .succeeded] ∧
      ∀ v', Steps landed v' → c.runs v'.family = [] := by
  have hc : _ ∈ landed.calls := List.mem_of_getElem? (i := 1) rfl
  have hrefused : ⟨1, ⟨2, .watch 1⟩, false⟩ ∈ landed.family.passings :=
    List.mem_of_getElem? (i := 2) rfl
  have hdepartures : landed.family.departures.map (·.result) =
      [some .succeeded, some .succeeded] := rfl
  refine ⟨reached_landed, _, hc, rfl, rfl, rfl, rfl, fun d hd => ?_, rfl, fun v' hsteps => ?_⟩
  · have hresult := List.mem_map_of_mem (f := fun d : Departure Ack => d.result) hd
    rw [hdepartures] at hresult
    simpa using hresult
  · exact reached_landed.silent (.inr ⟨_, _, rfl, rfl, hrefused⟩) hsteps

end Clientele

end PeerLink
