import Mathlib.Logic.Relation

/-!
# From one state to a later one

Whatever goes on step by step is described in the same way: in which states it may
begin, and what an event makes of a state, if it is possible there.  `Leads` is one
such step, by whatever event.  A state is later than another if
`Relation.ReflTransGen` of the steps relates them, and it is reachable if it is later
than one of the beginnings.

## Main results

* `steps_of_foldlM`, `steps_after` — a list of events leads to a later state.
* `Reachable.invariant` — what holds at the beginning and survives each step holds at
  every moment.
-/

namespace PeerLink

open Relation (ReflTransGen)

/-! ## Steps -/

section Steps

variable {α ε : Type*} {step : α → ε → Option α} {allowed : ε → Bool} {a b : α} {e : ε}

/-- Some event makes one state of the other. -/
def Leads (step : α → ε → Option α) (a b : α) : Prop := ∃ e, step a e = some b

/-- What events make of a state if only some of them happen. -/
def sparing (allowed : ε → Bool) (step : α → ε → Option α) (a : α) (e : ε) : Option α :=
  if allowed e then step a e else none

theorem leads_sparing :
    Leads (sparing allowed step) a b ↔ ∃ e, allowed e = true ∧ step a e = some b := by
  simp [Leads, sparing]

/-- Whoever goes on by some of the events goes on. -/
theorem steps_of_sparing (h : ReflTransGen (Leads (sparing allowed step)) a b) :
    ReflTransGen (Leads step) a b := by
  refine h.lift id fun _ _ hs => ?_
  obtain ⟨e, -, he⟩ := leads_sparing.1 hs
  exact ⟨e, he⟩

/-- The state after a sequence of events; the first one if some event is not possible
when its turn comes. -/
def stateAfter (step : α → ε → Option α) (a : α) (events : List ε) : α :=
  (events.foldlM step a).getD a

theorem foldlM_of_step (he : step a e = some b) (rest : List ε) :
    (e :: rest).foldlM step a = rest.foldlM step b := by
  rw [List.foldlM_cons, he]
  rfl

theorem steps_of_foldlM {events : List ε} (h : events.foldlM step a = some b) :
    ReflTransGen (Leads step) a b := by
  induction events generalizing a with
  | nil =>
      obtain rfl : a = b := Option.some.inj h
      exact .refl
  | cons e rest ih =>
      rw [List.foldlM_cons] at h
      obtain ⟨c, he, hrest⟩ := Option.bind_eq_some_iff.1 h
      exact .head ⟨e, he⟩ (ih hrest)

theorem steps_after (a : α) (events : List ε) :
    ReflTransGen (Leads step) a (stateAfter step a events) := by
  unfold stateAfter
  cases h : events.foldlM step a with
  | none => exact .refl
  | some b => exact steps_of_foldlM h

theorem stateAfter_of_foldlM {events : List ε} (h : events.foldlM step a = some b) :
    stateAfter step a events = b := by
  rw [stateAfter, h]
  rfl

theorem stateAfter_of_step (he : step a e = some b) : stateAfter step a [e] = b :=
  stateAfter_of_foldlM (foldlM_of_step he [])

/-- An event that is not possible changes nothing. -/
theorem stateAfter_of_none (he : step a e = none) : stateAfter step a [e] = a := by
  rw [stateAfter, List.foldlM_cons, he]
  rfl

theorem foldlM_sparing {events : List ε} (h : ∀ e ∈ events, allowed e = true) (a : α) :
    events.foldlM (sparing allowed step) a = events.foldlM step a := by
  induction events generalizing a with
  | nil => rfl
  | cons e rest ih =>
      obtain ⟨hfirst, hrest⟩ := List.forall_mem_cons.1 h
      simp only [List.foldlM_cons, sparing, hfirst, if_true, ih hrest]

theorem steps_sparing_after {events : List ε} (h : ∀ e ∈ events, allowed e = true) (a : α) :
    ReflTransGen (Leads (sparing allowed step)) a (stateAfter step a events) := by
  rw [stateAfter, ← foldlM_sparing h]
  exact steps_after a events

/-- What somebody can do time and again, done so many times, or until it is not possible
any more. -/
def repeated (go : α → Option α) (a : α) : Nat → α
  | 0 => a
  | m + 1 =>
    match go a with
    | none => a
    | some a => repeated go a m

theorem steps_repeated {go : α → Option α} {r : α → α → Prop}
    (hgo : ∀ a b, go a = some b → r a b) (a : α) (m : Nat) :
    ReflTransGen r a (repeated go a m) := by
  induction m generalizing a with
  | zero => exact .refl
  | succ m ih =>
      unfold repeated
      cases h : go a with
      | none => exact .refl
      | some b => exact .head (hgo a b h) (ih b)

end Steps

/-! ## Moments -/

section Moments

variable {α : Type*} {Begins : α → Prop} {r : α → α → Prop} {a b : α}

/-- A state that is come to from one of the beginnings. -/
def Reachable (Begins : α → Prop) (r : α → α → Prop) (a : α) : Prop :=
  ∃ s, Begins s ∧ ReflTransGen r s a

namespace Reachable

theorem start (h : Begins a) : Reachable Begins r a := ⟨a, h, .refl⟩

theorem steps (h : Reachable Begins r a) (hs : ReflTransGen r a b) : Reachable Begins r b := by
  obtain ⟨s, hbegins, h₀⟩ := h
  exact ⟨s, hbegins, h₀.trans hs⟩

theorem step {ε : Type*} {step : α → ε → Option α} {e : ε} (h : Reachable Begins (Leads step) a)
    (he : step a e = some b) : Reachable Begins (Leads step) b :=
  h.steps (.single ⟨e, he⟩)

theorem after {ε : Type*} {step : α → ε → Option α} (h : Reachable Begins (Leads step) a)
    (events : List ε) : Reachable Begins (Leads step) (stateAfter step a events) :=
  h.steps (steps_after a events)

theorem invariant {P : α → Prop} (h : Reachable Begins r a) (hstart : ∀ a, Begins a → P a)
    (hstep : ∀ a b, Reachable Begins r a → r a b → P a → P b) : P a := by
  obtain ⟨s, hbegins, hs⟩ := h
  induction hs with
  | refl => exact hstart s hbegins
  | tail hs hr ih => exact hstep _ _ ⟨s, hbegins, hs⟩ hr ih

/-- What holds at a moment, and survives each step from there, holds at every later one. -/
theorem along {P : α → Prop} (h : Reachable Begins r a) (hs : ReflTransGen r a b) (ha : P a)
    (hstep : ∀ c d, Reachable Begins r c → ReflTransGen r a c → r c d → P c → P d) : P b := by
  induction hs with
  | refl => exact ha
  | tail hs hr ih => exact hstep _ _ (h.steps hs) hs hr ih

end Reachable

end Moments

end PeerLink
