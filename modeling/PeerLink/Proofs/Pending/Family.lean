import PeerLink.Proofs.Pending.Sound
import PeerLink.Proofs.Steps

/-!
# Families of pending operations

Any number of threads work with the operations of a board: they make new ones,
hand each other clones of them, pass callbacks to them, take callbacks off,
use up completers or drop them, and look.  A `Family` is a board in the middle
of all that, with what an observer has written down so far.  One `FamilyEvent`
is one step that nobody can see the inside of, and `Family.step?` says what it
does to the board, in the words of `Board`.

Three points decide what these steps are.

* Using a completer has two parts.  The first records the result and takes the
  callback off under the lock (`use`); the second runs that callback with the
  lock released (`call`), and then answers (`finish`).  Anything may come
  between the parts.
* A callback that runs may do whatever a thread may do.  Its steps are not told
  apart from those of others, so a family may do them at any moment, in
  particular between `call` and `finish` of the use that runs it.
* A completer belongs to one holder and is gone once it is used or dropped.  A
  second use is no event at all.

The observer gives each callback the number of its passing.  `Passed` carries
that number, so two passings of equal callbacks stay apart.

## Main results

* `Family.effect_of_step` — all that a step can do, given a sound board.
* `Family.Reached.sound` — the board of a family is sound.
-/

namespace PeerLink

/-! ## Looking at an operation -/

/-- A way to look at an operation. -/
inductive Look
  | isDone
  | hasCallback
  | tryResult
  /-- Blocks the thread until there is a result. -/
  | get
  /-- Suspends the task until there is a result. -/
  | wait
  deriving DecidableEq, Repr

/-- What somebody saw. -/
inductive Sight
  | flag (b : Bool)
  | result (r : Option SendResult)

/-- What a look shows; nothing as long as it has to wait. -/
def Board.look {κ : Type} (b : Board κ) (n : Nat) : Look → Option Sight
  | .isDone => some (.flag (b.isDone n))
  | .hasCallback => some (.flag (b.hasCallback n))
  | .tryResult => some (.result (b.result? n))
  | .get | .wait => (b.result? n).map fun r => .result (some r)

/-- What a look shows of an operation that has ended. -/
def Look.atEnd (r : SendResult) : Look → Sight
  | .isDone => .flag true
  | .hasCallback => .flag false
  | .tryResult | .get | .wait => .result (some r)

theorem Board.Sound.look_eq {κ : Type} {b : Board κ} (h : b.Sound) {n : Nat} {r : SendResult}
    (hr : b.result? n = some r) (l : Look) : b.look n l = some (l.atEnd r) := by
  have hnone : b.callback? n = none := h.callback?_eq_none (by rw [hr]; nofun)
  have hflag : b.hasCallback n = false := by
    unfold Board.callback? at hnone
    rw [Board.hasCallback, hnone]
    rfl
  cases l <;> simp [Board.look, Look.atEnd, Board.isDone, hr, hflag]

/-! ## What the observer writes down -/

/-- A callback with the number of its passing. -/
structure Passed (κ : Type) where
  number : Nat
  callback : κ

/-- A callback was passed to an operation, which took it on or handed it back. -/
structure Passing (κ : Type) where
  operation : Nat
  passed : Passed κ
  takenOn : Bool

/-- A callback has left its operation. -/
structure Departure (κ : Type) where
  operation : Nat
  passed : Passed κ
  /-- The result it is to be run with; none if it was taken off. -/
  result : Option SendResult

/-- An operation has run a callback. -/
structure Invocation (κ : Type) where
  operation : Nat
  passed : Passed κ
  result : SendResult

/-- How far the use of a completer has come. -/
inductive UseStage
  /-- The result is recorded; the callback is to be run next. -/
  | calling
  /-- The callback runs, or there was none. -/
  | running
  | returned (answer : Bool)
  deriving DecidableEq

/-- A completer was used, or dropped. -/
structure Use (κ : Type) where
  operation : Nat
  result : SendResult
  /-- The callback it took off. -/
  callback : Option (Passed κ)
  stage : UseStage

/-- Somebody looked at an operation. -/
structure Sighting where
  operation : Nat
  look : Look
  sight : Sight

/-- A board that is in use, with the observer's notes. -/
structure Family (κ : Type) where
  board : Board (Passed κ) := .empty
  /-- The operation behind each handle, clones included. -/
  handles : List Nat := []
  /-- Every callback that was passed to an operation. -/
  passings : List (Passing κ) := []
  /-- Every callback that has left its operation. -/
  departures : List (Departure κ) := []
  /-- Every use of a completer. -/
  uses : List (Use κ) := []
  /-- Every run of a callback by its operation. -/
  invocations : List (Invocation κ) := []
  sightings : List Sighting := []

/-! ## Steps -/

/-- One step of a thread, or of a callback that runs on it. -/
inductive FamilyEvent (κ : Type)
  | create
  /-- A new operation that has ended. -/
  | createEnded (result : SendResult)
  | clone (handle : Nat)
  | pass (handle : Nat) (callback : κ)
  /-- Takes the callback off an operation. -/
  | remove (handle : Nat)
  /-- Uses the completer of an operation. -/
  | use (operation : Nat) (result : SendResult)
  /-- Drops the completer of an operation unused. -/
  | drop (operation : Nat)
  /-- A use runs the callback it took off. -/
  | call (i : Nat)
  /-- A use answers. -/
  | finish (i : Nat)
  | look (handle : Nat) (look : Look)

namespace Family

variable {κ : Type}

/-- A new operation, with a handle on it. -/
def create (w : Family κ) (o : Operation (Passed κ)) : Family κ :=
  { w with board := w.board.push o, handles := w.handles ++ [w.board.size] }

/-- Passes a callback to an operation. -/
def pass (w : Family κ) (n : Nat) (callback : κ) : Family κ :=
  let x : Passed κ := ⟨w.passings.length, callback⟩
  let answer := w.board.onComplete n x
  { w with board := answer.2, passings := w.passings ++ [⟨n, x, answer.1⟩] }

/-- Takes the callback off an operation. -/
def remove (w : Family κ) (n : Nat) : Family κ :=
  let answer := w.board.takeCallback n
  { w with
    board := answer.2
    departures := w.departures ++ (answer.1.map fun x => ⟨n, x, none⟩).toList }

/-- Uses the completer of an operation, if it is still there. -/
def use (w : Family κ) (n : Nat) (r : SendResult) : Option (Family κ) :=
  match w.board.complete n r with
  | (.usedUp, _) => none
  | (.late, board) =>
    some { w with board := board, uses := w.uses ++ [⟨n, r, none, .returned false⟩] }
  | (.recorded callback, board) =>
    some { w with
      board := board
      departures := w.departures ++ (callback.map fun x => ⟨n, x, some r⟩).toList
      uses := w.uses ++ [⟨n, r, callback, if callback.isSome then .calling else .running⟩] }

/-- A use runs the callback it took off. -/
def call (w : Family κ) (i : Nat) : Option (Family κ) :=
  match w.uses[i]? with
  | some ⟨n, r, some x, .calling⟩ =>
    some { w with
      uses := w.uses.set i ⟨n, r, some x, .running⟩
      invocations := w.invocations ++ [⟨n, x, r⟩] }
  | _ => none

/-- A use answers that it recorded the result. -/
def finish (w : Family κ) (i : Nat) : Option (Family κ) :=
  match w.uses[i]? with
  | some ⟨n, r, callback, .running⟩ =>
    some { w with uses := w.uses.set i ⟨n, r, callback, .returned true⟩ }
  | _ => none

/-- Somebody looks at an operation. -/
def see (w : Family κ) (n : Nat) (l : Look) : Option (Family κ) :=
  (w.board.look n l).map fun sight => { w with sightings := w.sightings ++ [⟨n, l, sight⟩] }

/-- One step; nothing if the event is not possible now. -/
def step? (w : Family κ) : FamilyEvent κ → Option (Family κ)
  | .create => some (w.create .pending)
  | .createEnded r =>
    -- its completer was used while nobody else could hold the operation
    some { w.create (.resolved r) with
      uses := w.uses ++ [⟨w.board.size, r, none, .returned true⟩] }
  | .clone h => (w.handles[h]?).map fun n => { w with handles := w.handles ++ [n] }
  | .pass h callback => (w.handles[h]?).map fun n => w.pass n callback
  | .remove h => (w.handles[h]?).map w.remove
  | .use n r => w.use n r
  | .drop n => w.use n (.error .canceled)
  | .call i => w.call i
  | .finish i => w.finish i
  | .look h l => (w.handles[h]?).bind fun n => w.see n l

/-- The family after a sequence of steps; it stays as it is if one of them is not
possible. -/
abbrev after (w : Family κ) (events : List (FamilyEvent κ)) : Family κ :=
  stateAfter step? w events

/-- From one moment to a later one. -/
abbrev Steps : Family κ → Family κ → Prop := Relation.ReflTransGen (Leads step?)

/-- A family begins without operations. -/
inductive Begins : Family κ → Prop
  | empty : Begins {}

/-- The family is at some moment of its life. -/
abbrev Reached (w : Family κ) : Prop := Reachable Begins (Leads step?) w

/-! ## All that a step can do -/

/-- What a step does to the board and to the notes that speak of callbacks and
completers; sightings are left open, and so is how often a handle was cloned. -/
inductive Effect (w : Family κ) : Family κ → Prop
  | aside {handles : List Nat} (sightings : List Sighting)
      (hh : ∀ n, n ∈ handles ↔ n ∈ w.handles) :
      Effect w { w with handles := handles, sightings := sightings }
  | creates : Effect w (w.create .pending)
  | createsEnded (r : SendResult) :
      Effect w { w.create (.resolved r) with
        uses := w.uses ++ [⟨w.board.size, r, none, .returned true⟩] }
  | takesOn {n : Nat} {callback : κ} {board : Board (Passed κ)}
      (hb : w.board.onComplete n ⟨w.passings.length, callback⟩ = (true, board)) :
      Effect w { w with
        board := board
        passings := w.passings ++ [⟨n, ⟨w.passings.length, callback⟩, true⟩] }
  | refuses (n : Nat) (callback : κ) (hn : n ∈ w.handles)
      (hb : (w.board.onComplete n ⟨w.passings.length, callback⟩).1 = false) :
      Effect w { w with
        passings := w.passings ++ [⟨n, ⟨w.passings.length, callback⟩, false⟩] }
  | removes (n : Nat) :
      Effect w { w with
        board := (w.board.takeCallback n).2
        departures :=
          w.departures ++ ((w.board.callback? n).map fun x => ⟨n, x, none⟩).toList }
  | records {n : Nat} (r : SendResult) (hp : w.board.IsPending n) :
      Effect w { w with
        board := (w.board.complete n r).2
        departures :=
          w.departures ++ ((w.board.callback? n).map fun x => ⟨n, x, some r⟩).toList
        uses := w.uses ++ [⟨n, r, w.board.callback? n,
          if (w.board.callback? n).isSome then .calling else .running⟩] }
  | calls {i n : Nat} {r : SendResult} {x : Passed κ}
      (hi : w.uses[i]? = some ⟨n, r, some x, .calling⟩) :
      Effect w { w with
        uses := w.uses.set i ⟨n, r, some x, .running⟩
        invocations := w.invocations ++ [⟨n, x, r⟩] }
  | finishes {i n : Nat} {r : SendResult} {callback : Option (Passed κ)}
      (hi : w.uses[i]? = some ⟨n, r, callback, .running⟩) :
      Effect w { w with uses := w.uses.set i ⟨n, r, callback, .returned true⟩ }

variable {w w' : Family κ} {e : FamilyEvent κ}

private theorem effect_pass {n : Nat} (hn : n ∈ w.handles) (callback : κ) :
    Effect w (w.pass n callback) := by
  unfold pass
  cases hb : w.board.onComplete n ⟨w.passings.length, callback⟩ with
  | mk takenOn board =>
      simp only [hb]
      cases takenOn with
      | true => exact .takesOn hb
      | false =>
          have hanswer : (w.board.onComplete n ⟨w.passings.length, callback⟩).1 = false := by
            rw [hb]
          have hsame := Board.onComplete_of_refused hanswer
          rw [hb] at hsame
          obtain rfl : board = w.board := hsame
          exact .refuses n callback hn hanswer

/-- A completer that is there is used on a pending operation, so it never comes late. -/
private theorem effect_use (hs : w.board.Sound) {n : Nat} {r : SendResult}
    (h : w.use n r = some w') : Effect w w' := by
  unfold use at h
  cases ho : w.board.isOpen n with
  | false =>
      rw [Board.complete_of_isOpen_eq_false ho] at h
      cases h
  | true =>
      have hp := hs.isPending_iff.2 ho
      have heffect := Effect.records (w := w) r hp
      rw [Board.complete_of_pending hp] at h heffect
      obtain rfl := Option.some.inj h
      exact heffect

theorem effect_of_step (hs : w.board.Sound) (he : w.step? e = some w') : Effect w w' := by
  cases e with
  | create =>
      obtain rfl := Option.some.inj he
      exact .creates
  | createEnded r =>
      obtain rfl := Option.some.inj he
      exact .createsEnded r
  | clone h =>
      obtain ⟨n, hn, rfl⟩ := Option.map_eq_some_iff.1 he
      refine .aside _ fun m => ?_
      rw [List.mem_append, List.mem_singleton]
      constructor
      · rintro (hold | rfl)
        · exact hold
        · exact List.mem_of_getElem? hn
      · exact .inl
  | pass h callback =>
      obtain ⟨n, hn, rfl⟩ := Option.map_eq_some_iff.1 he
      exact effect_pass (List.mem_of_getElem? hn) callback
  | remove h =>
      obtain ⟨n, -, rfl⟩ := Option.map_eq_some_iff.1 he
      have heffect := Effect.removes (w := w) n
      rw [← Board.takeCallback_fst] at heffect
      exact heffect
  | use n r => exact effect_use hs he
  | drop n => exact effect_use hs he
  | call i =>
      simp only [step?, call] at he
      split at he
      · rename_i hi
        obtain rfl := Option.some.inj he
        exact .calls hi
      · cases he
  | finish i =>
      simp only [step?, finish] at he
      split at he
      · rename_i hi
        obtain rfl := Option.some.inj he
        exact .finishes hi
      · cases he
  | look h l =>
      obtain ⟨n, -, hsee⟩ := Option.bind_eq_some_iff.1 he
      obtain ⟨sight, -, rfl⟩ := Option.map_eq_some_iff.1 hsee
      exact .aside _ fun _ => Iff.rfl

/-! ## The board of a family -/

private theorem Effect.sound (he : Effect w w') (hs : w.board.Sound) : w'.board.Sound := by
  cases he with
  | creates => exact hs.push Operation.sound_pending
  | createsEnded r => exact hs.push (Operation.sound_resolved r)
  | takesOn hb =>
      rename_i n callback board
      have hsound := hs.onComplete (n := n) ⟨w.passings.length, callback⟩
      rw [hb] at hsound
      exact hsound
  | removes n => exact hs.takeCallback
  | records r hp => exact hs.complete r
  | aside | refuses | calls | finishes => exact hs

theorem Reached.sound (h : w.Reached) : w.board.Sound := by
  refine h.invariant (P := fun w => w.board.Sound) ?_ ?_
  · rintro _ ⟨⟩
    exact Board.sound_empty
  · rintro w w' _ ⟨e, he⟩ hs
    exact (effect_of_step hs he).sound hs

/-- What a step of a family can do. -/
theorem Reached.effect (h : w.Reached) (he : w.step? e = some w') : Effect w w' :=
  effect_of_step h.sound he

/-- No step takes a result back. -/
theorem Effect.extends (he : Effect w w') : w.board.Extends w'.board := by
  cases he with
  | creates => exact Board.extends_push _ _
  | createsEnded r => exact Board.extends_push _ _
  | takesOn hb => exact (Board.sameOutcomes_of_onComplete hb).extends
  | removes n => exact Board.extends_takeCallback _ _
  | records r hp => exact Board.extends_complete _ _ _
  | aside | refuses | calls | finishes => exact .refl _

theorem Steps.extends (h : w.Reached) (hs : Steps w w') : w.board.Extends w'.board := by
  refine h.along (P := fun v => w.board.Extends v.board) hs (.refl _) ?_
  rintro v v' (hv : v.Reached) _ ⟨e, he⟩ hext
  exact hext.trans (hv.effect he).extends

/-! ## Handles -/

/-- A step adds handles on operations that are there. -/
private theorem Effect.handles (he : Effect w w') : w.handles ⊆ w'.handles ∧
    w.board.size ≤ w'.board.size ∧ ∀ n ∈ w'.handles, n ∈ w.handles ∨ n < w'.board.size := by
  have hcreate : ∀ (o : Operation (Passed κ)), w.handles ⊆ (w.create o).handles ∧
      w.board.size ≤ (w.create o).board.size ∧
      ∀ n ∈ (w.create o).handles, n ∈ w.handles ∨ n < (w.create o).board.size := by
    intro o
    have hsize : (w.create o).board.size = w.board.size + 1 := Board.size_push _ _
    refine ⟨List.subset_append_left _ _, by omega, fun n hn => ?_⟩
    rcases List.mem_append.1 hn with hold | hlast
    · exact .inl hold
    · rw [List.mem_singleton.1 hlast]
      exact .inr (by omega)
  cases he with
  | aside sightings hh =>
      exact ⟨fun n => (hh n).2, Nat.le_refl _, fun n hn => .inl ((hh n).1 hn)⟩
  | creates => exact hcreate _
  | createsEnded r => exact hcreate _
  | takesOn hb =>
      have hsize := (Board.sameOutcomes_of_onComplete hb).size
      exact ⟨List.Subset.refl _, Nat.le_of_eq hsize.symm, fun n => .inl⟩
  | removes n =>
      have hsize := (Board.sameOutcomes_takeCallback w.board n).size
      exact ⟨List.Subset.refl _, Nat.le_of_eq hsize.symm, fun n => .inl⟩
  | records r hp =>
      exact ⟨List.Subset.refl _, Nat.le_of_eq (Board.size_complete _ _ _).symm, fun n => .inl⟩
  | refuses | calls | finishes =>
      exact ⟨List.Subset.refl _, Nat.le_refl _, fun n => .inl⟩

theorem Reached.lt_size_of_handle (h : w.Reached) : ∀ n ∈ w.handles, n < w.board.size := by
  refine h.invariant (P := fun w => ∀ n ∈ w.handles, n < w.board.size) ?_ ?_
  · rintro _ ⟨⟩ n hn
    cases hn
  · rintro w w' (hw : w.Reached) ⟨e, he⟩ ih n hn
    obtain ⟨-, hsize, hthere⟩ := (hw.effect he).handles
    rcases hthere n hn with hold | hlt
    · have hbefore := ih n hold
      omega
    · exact hlt

/-- A handle stays a handle. -/
theorem Steps.handles_subset (hs : Steps w w') (h : w.Reached) : w.handles ⊆ w'.handles := by
  refine h.along (P := fun v => w.handles ⊆ v.handles) hs (List.Subset.refl _) ?_
  rintro v v' (hv : v.Reached) _ ⟨e, he⟩ hsub
  exact List.Subset.trans hsub (hv.effect he).handles.1

/-- Passing a callback to an operation that somebody has a handle on is a step. -/
theorem steps_pass {n : Nat} (hn : n ∈ w.handles) (callback : κ) :
    Steps w (w.pass n callback) := by
  obtain ⟨h, hh⟩ := List.getElem?_of_mem hn
  have he : w.step? (.pass h callback) = some (w.pass n callback) := by
    simp only [step?, hh, Option.map_some]
  exact .single ⟨_, he⟩

end Family

end PeerLink
