import PeerLink.Pending.Vigil
import PeerLink.Proofs.Pending.Sound
import PeerLink.Proofs.Steps

/-!
# No wake-up is lost

A thread that waits looks and falls asleep under the lock under which the result is stored, so it
is asleep by the time the threads are woken, or it looks again and sees the result. A task enables
its notification before it looks, so a notification that comes after the look finds it enabled.

`Vigil.Sound` says where everybody may be: who looks has the lock, a thread that is about to fall
asleep has seen that there is no result and still has the lock, a thread sleeps without a wake-up
only before the threads are woken, and a task is suspended without a notification only before the
tasks are notified. Every step keeps it.

## Main results

* `Vigil.Sound.step`, `Vigil.Reached.sound`: every vigil that can be reached is sound.
* `Vigil.Reached.no_wake_up_is_lost`: once the tasks have been notified nobody sleeps without a
  wake-up, and whoever returns a result returns the recorded one.
* `Vigil.Reached.threadStep_of_hasWoken`, `Vigil.Reached.taskStep_of_hasNotified`: from then on
  whoever waits can go on, or waits for the lock.
-/

namespace PeerLink

variable {κ : Type} {v v' v'' : Vigil κ} {i : Nat}

/-! ## What a step leaves to the others -/

/-- What a step leaves to somebody who does not do it: the lock, and what he sees while he has it,
and the result. -/
structure Vigil.Spares (v v' : Vigil κ) (who : LockHolder) : Prop where
  lock : v.lock = some who → v'.lock = some who ∧ v'.result? = v.result?
  result : ∀ r, v.result? = some r → v'.result? = some r

/-- A step that leaves the result alone spares everybody whose lock it does not take away. -/
theorem Vigil.spares_of_lock {who : LockHolder} (hresult : v'.result? = v.result?)
    (hlock : v.lock = some who → v'.lock = some who) : v.Spares v' who :=
  ⟨fun hl => ⟨hlock hl, hresult⟩, fun _ hr => hresult.trans hr⟩

/-- The lock has one holder. -/
theorem Vigil.eq_of_lock {who who' : LockHolder} (h : v.lock = some who)
    (h' : v.lock = some who') : who' = who :=
  Option.some.inj (h'.symm.trans h)

/-! ## Where everybody may be -/

/-- Where a thread may be. -/
def ThreadStage.Fits (v : Vigil κ) (i : Nat) : ThreadStage → Prop
  | locking => True
  | looking => v.lock = some (.thread i)
  | parking => v.lock = some (.thread i) ∧ v.result? = none
  | parked woken => woken = true ∨ v.resolver.hasWoken = false
  | returned r => v.result? = some r

theorem ThreadStage.Fits.spared {s : ThreadStage} (h : s.Fits v i)
    (hs : v.Spares v' (.thread i))
    (hw : v.resolver.hasWoken = false → v'.resolver.hasWoken = false) : s.Fits v' i := by
  cases s with
  | locking => trivial
  | looking => exact (hs.lock h).1
  | parking =>
    obtain ⟨hlock, hresult⟩ := hs.lock h.1
    exact ⟨hlock, hresult.trans h.2⟩
  | parked woken => exact h.imp_right hw
  | returned r => exact hs.result r h

/-- What a task saw under the lock still tells whether it has to wait: it saw the result, or it
will be notified. -/
def TaskStage.SawRight (v : Vigil κ) (notified : Bool) : Option SendResult → Prop
  | some r => v.result? = some r
  | none => notified = true ∨ v.resolver.hasNotified = false

/-- Where a task may be. -/
def TaskStage.Fits (v : Vigil κ) (i : Nat) : TaskStage → Prop
  | starting => True
  | enabling _ => True
  | locking _ => True
  | looking _ => v.lock = some (.task i)
  | deciding seen notified => SawRight v notified seen
  | suspended notified => notified = true ∨ v.resolver.hasNotified = false
  | returned r => v.result? = some r
  | dropped => True

theorem TaskStage.Fits.spared {s : TaskStage} (h : s.Fits v i) (hs : v.Spares v' (.task i))
    (hn : v.resolver.hasNotified = false → v'.resolver.hasNotified = false) :
    s.Fits v' i := by
  cases s with
  | starting | enabling notified | locking notified | dropped => trivial
  | looking notified => exact (hs.lock h).1
  | deciding seen notified =>
    cases seen with
    | none => exact h.imp_right hn
    | some r => exact hs.result r h
  | suspended notified => exact h.imp_right hn
  | returned r => exact hs.result r h

/-- Where whoever uses the completer may be. -/
def ResolverStage.Fits (v : Vigil κ) : ResolverStage κ → Prop
  | idle => v.board.IsPending v.operation
  | locking _ => v.board.IsPending v.operation
  | storing _ => v.board.IsPending v.operation ∧ v.lock = some .resolver
  | waking r _ => v.result? = some r
  | notifying r _ => v.result? = some r
  | calling r _ => v.result? = some r
  | answered _ => v.result? ≠ none

theorem ResolverStage.Fits.spared {s : ResolverStage κ} (h : s.Fits v)
    (hs : v.Spares v' .resolver)
    (hpending : v.board.IsPending v.operation → v'.board.IsPending v'.operation) :
    s.Fits v' := by
  cases s with
  | idle | locking r => exact hpending h
  | storing r => exact ⟨hpending h.1, (hs.lock h.2).1⟩
  | waking r callback | notifying r callback | calling r callback => exact hs.result r h
  | answered recorded =>
    obtain ⟨r, hr⟩ := Option.ne_none_iff_exists'.1 h
    exact Option.ne_none_iff_exists'.2 ⟨r, hs.result r hr⟩

/-- Wake-ups are sent only after the result has been stored. -/
theorem ResolverStage.Fits.result_of_hasWoken {s : ResolverStage κ} (h : s.Fits v)
    (hw : s.hasWoken = true) : v.result? ≠ none := by
  cases s with
  | idle | locking r | storing r | waking r callback => cases hw
  | notifying r callback | calling r callback => exact Option.ne_none_iff_exists'.2 ⟨r, h⟩
  | answered recorded => exact h

/-- The tasks are notified after the threads are woken. -/
theorem ResolverStage.hasWoken_of_hasNotified {s : ResolverStage κ}
    (h : s.hasNotified = true) : s.hasWoken = true := by
  cases s with
  | calling r callback | answered recorded => rfl
  | _ => cases h

namespace Vigil

/-- Everybody is where he may be. -/
structure Sound (v : Vigil κ) : Prop where
  threads : ∀ i (s : ThreadStage), v.threads[i]? = some s → s.Fits v i
  tasks : ∀ i (s : TaskStage), v.tasks[i]? = some s → s.Fits v i
  resolver : v.resolver.Fits v

/-- As long as there is no result, nobody has been woken. -/
theorem Sound.hasWoken_of_result (h : v.Sound) (hr : v.result? = none) :
    v.resolver.hasWoken = false := by
  cases hw : v.resolver.hasWoken with
  | false => rfl
  | true => exact absurd hr (h.resolver.result_of_hasWoken hw)

theorem Sound.hasNotified_of_result (h : v.Sound) (hr : v.result? = none) :
    v.resolver.hasNotified = false := by
  cases hn : v.resolver.hasNotified with
  | false => rfl
  | true =>
    have hw := ResolverStage.hasWoken_of_hasNotified hn
    rw [h.hasWoken_of_result hr] at hw
    cases hw

theorem sound_start {b : Board κ} {n : Nat} (hb : b.Sound) (hn : n < b.size) :
    (start b n).Sound := by
  refine ⟨fun i s hs => ?_, fun i s hs => ?_, ?_⟩
  · cases hs
  · cases hs
  · by_cases ho : b.isOpen n = true
    · simp only [start, if_pos ho]
      exact hb.isPending_iff.2 ho
    · simp only [start, if_neg ho]
      intro hr
      exact ho (hb.isOpen_iff.2 ⟨hn, hr⟩)

/-! ## A step of a thread -/

/-- What a thread may do. -/
inductive ThreadGoes (v : Vigil κ) (i : Nat) : Vigil κ → Prop
  | locks (hs : v.threads[i]? = some .locking) (hl : v.lock = none) :
      ThreadGoes v i { v.setThread i .looking with lock := some (.thread i) }
  | returns (r : SendResult) (hs : v.threads[i]? = some .looking) (hr : v.result? = some r) :
      ThreadGoes v i { v.setThread i (.returned r) with lock := none }
  | prepares (hs : v.threads[i]? = some .looking) (hr : v.result? = none) :
      ThreadGoes v i (v.setThread i .parking)
  | parks (hs : v.threads[i]? = some .parking) :
      ThreadGoes v i { v.setThread i (.parked false) with lock := none }
  | wakes (hs : v.threads[i]? = some (.parked true)) : ThreadGoes v i (v.setThread i .locking)

theorem threadGoes_of_step (h : v.threadStep i = some v') : v.ThreadGoes i v' := by
  unfold threadStep at h
  cases hs : v.threads[i]? with
  | none =>
    rw [hs] at h
    cases h
  | some s =>
    rw [hs] at h
    cases s with
    | locking =>
      by_cases hl : v.lock = none
      · simp only [takeLock, if_pos hl, Option.map_some] at h
        cases h
        exact .locks hs hl
      · simp only [takeLock, if_neg hl] at h
        cases h
    | looking =>
      simp only at h
      cases hr : v.result? with
      | none =>
        rw [hr] at h
        cases h
        exact .prepares hs hr
      | some r =>
        rw [hr] at h
        cases h
        exact .returns r hs hr
    | parking =>
      cases h
      exact .parks hs
    | parked woken =>
      cases woken with
      | false => cases h
      | true =>
        cases h
        exact .wakes hs
    | returned r => cases h

/-- A thread moves; it touches no lock but its own, and comes to where it may be. -/
theorem Sound.thread_moves (h : v.Sound) {s : ThreadStage} {lock : Option LockHolder}
    (hlock : ∀ who, who ≠ .thread i → v.lock = some who → lock = some who)
    (hs : s.Fits { v.setThread i s with lock := lock } i) :
    Sound { v.setThread i s with lock := lock } := by
  have hspares (who : LockHolder) (hwho : who ≠ .thread i) :
      v.Spares { v.setThread i s with lock := lock } who :=
    spares_of_lock rfl (hlock who hwho)
  refine ⟨fun j t ht => ?_, fun j t ht => ?_, ?_⟩
  · obtain ⟨rfl, rfl⟩ | ⟨hne, ht⟩ := getElem?_set_cases ht
    · exact hs
    · refine (h.threads j t ht).spared (hspares _ fun heq => hne ?_) id
      cases heq
      rfl
  · exact (h.tasks j t ht).spared (hspares _ fun heq => by cases heq) id
  · exact h.resolver.spared (hspares _ fun heq => by cases heq) id

theorem Sound.threadStep (h : v.Sound) (hstep : v.threadStep i = some v') : v'.Sound := by
  cases threadGoes_of_step hstep with
  | locks hs hl =>
    refine h.thread_moves (fun who _ hw => ?_) rfl
    rw [hl] at hw
    cases hw
  | returns r hs hr =>
    have hl : v.lock = some (.thread i) := h.threads i _ hs
    exact h.thread_moves (fun who hne hw => absurd (eq_of_lock hl hw) hne) hr
  | prepares hs hr => exact h.thread_moves (fun _ _ hw => hw) ⟨h.threads i _ hs, hr⟩
  | parks hs =>
    obtain ⟨hl, hr⟩ := h.threads i _ hs
    -- the thread has had the lock since it looked, so nobody has been woken
    exact h.thread_moves (fun who hne hw => absurd (eq_of_lock hl hw) hne)
      (.inr (h.hasWoken_of_result hr))
  | wakes hs => exact h.thread_moves (fun _ _ hw => hw) trivial

/-! ## A step of a task -/

/-- What a task may do. -/
inductive TaskGoes (v : Vigil κ) (i : Nat) : Vigil κ → Prop
  | makes (hs : v.tasks[i]? = some .starting) : TaskGoes v i (v.setTask i (.enabling false))
  | enables (notified : Bool) (hs : v.tasks[i]? = some (.enabling notified)) :
      TaskGoes v i (v.setTask i (.locking notified))
  | locks (notified : Bool) (hs : v.tasks[i]? = some (.locking notified)) (hl : v.lock = none) :
      TaskGoes v i { v.setTask i (.looking notified) with lock := some (.task i) }
  | looks (notified : Bool) (hs : v.tasks[i]? = some (.looking notified)) :
      TaskGoes v i { v.setTask i (.deciding v.result? notified) with lock := none }
  | returns (r : SendResult) (notified : Bool)
      (hs : v.tasks[i]? = some (.deciding (some r) notified)) :
      TaskGoes v i (v.setTask i (.returned r))
  | suspends (notified : Bool) (hs : v.tasks[i]? = some (.deciding none notified)) :
      TaskGoes v i (v.setTask i (.suspended notified))
  | resumes (hs : v.tasks[i]? = some (.suspended true)) : TaskGoes v i (v.setTask i .starting)

theorem taskGoes_of_step (h : v.taskStep i = some v') : v.TaskGoes i v' := by
  unfold taskStep at h
  cases hs : v.tasks[i]? with
  | none =>
    rw [hs] at h
    cases h
  | some s =>
    rw [hs] at h
    cases s with
    | starting =>
      cases h
      exact .makes hs
    | enabling notified =>
      cases h
      exact .enables notified hs
    | locking notified =>
      by_cases hl : v.lock = none
      · simp only [takeLock, if_pos hl, Option.map_some] at h
        cases h
        exact .locks notified hs hl
      · simp only [takeLock, if_neg hl] at h
        cases h
    | looking notified =>
      cases h
      exact .looks notified hs
    | deciding seen notified =>
      cases seen with
      | none =>
        cases h
        exact .suspends notified hs
      | some r =>
        cases h
        exact .returns r notified hs
    | suspended notified =>
      cases notified with
      | false => cases h
      | true =>
        cases h
        exact .resumes hs
    | returned r => cases h
    | dropped => cases h

/-- A task moves; it touches no lock but its own, and comes to where it may be. -/
theorem Sound.task_moves (h : v.Sound) {s : TaskStage} {lock : Option LockHolder}
    (hlock : ∀ who, who ≠ .task i → v.lock = some who → lock = some who)
    (hs : s.Fits { v.setTask i s with lock := lock } i) :
    Sound { v.setTask i s with lock := lock } := by
  have hspares (who : LockHolder) (hwho : who ≠ .task i) :
      v.Spares { v.setTask i s with lock := lock } who :=
    spares_of_lock rfl (hlock who hwho)
  refine ⟨fun j t ht => ?_, fun j t ht => ?_, ?_⟩
  · exact (h.threads j t ht).spared (hspares _ fun heq => by cases heq) id
  · obtain ⟨rfl, rfl⟩ | ⟨hne, ht⟩ := getElem?_set_cases ht
    · exact hs
    · refine (h.tasks j t ht).spared (hspares _ fun heq => hne ?_) id
      cases heq
      rfl
  · exact h.resolver.spared (hspares _ fun heq => by cases heq) id

/-- What a task sees while it has the lock is right, whether it has been notified or not: if there
is no result the tasks have not been notified. -/
theorem Sound.sawRight_result (h : v.Sound) (notified : Bool) :
    TaskStage.SawRight v notified v.result? := by
  cases hr : v.result? with
  | none => exact .inr (h.hasNotified_of_result hr)
  | some r => exact hr

theorem Sound.taskStep (h : v.Sound) (hstep : v.taskStep i = some v') : v'.Sound := by
  cases taskGoes_of_step hstep with
  | makes hs => exact h.task_moves (fun _ _ hw => hw) trivial
  | enables notified hs => exact h.task_moves (fun _ _ hw => hw) trivial
  | locks notified hs hl =>
    refine h.task_moves (fun who _ hw => ?_) rfl
    rw [hl] at hw
    cases hw
  | looks notified hs =>
    have hl : v.lock = some (.task i) := h.tasks i _ hs
    exact h.task_moves (fun who hne hw => absurd (eq_of_lock hl hw) hne)
      (h.sawRight_result notified)
  | returns r notified hs => exact h.task_moves (fun _ _ hw => hw) (h.tasks i _ hs)
  | suspends notified hs => exact h.task_moves (fun _ _ hw => hw) (h.tasks i _ hs)
  | resumes hs => exact h.task_moves (fun _ _ hw => hw) trivial

/-! ## A step of whoever uses the completer -/

/-- What whoever uses the completer may do. -/
inductive ResolverGoes (v : Vigil κ) (early : List Nat) : Vigil κ → Prop
  | locks (r : SendResult) (hs : v.resolver = .locking r) (hl : v.lock = none) :
      ResolverGoes v early { v with lock := some .resolver, resolver := .storing r }
  | stores (r : SendResult) (hs : v.resolver = .storing r) :
      ResolverGoes v early
        { v with
          board := (v.board.complete v.operation r).2
          lock := none
          resolver := .waking r (v.board.callback? v.operation) }
  | wakes (r : SendResult) (callback : Option κ) (hs : v.resolver = .waking r callback) :
      ResolverGoes v early
        { v with
          threads := v.threads.map ThreadStage.wake
          resolver := .notifying r callback }
  | notifies (r : SendResult) (callback : Option κ) (hs : v.resolver = .notifying r callback) :
      ResolverGoes v early
        { v with
          tasks := v.tasks.mapIdx fun i stage => stage.notify (early.contains i)
          resolver := .calling r callback }
  | answers (r : SendResult) (callback : Option κ) (hs : v.resolver = .calling r callback) :
      ResolverGoes v early { v with resolver := .answered true }

/-- A completer that is used comes in time. -/
theorem Sound.resolverGoes_of_step (h : v.Sound) {early : List Nat}
    (hstep : v.resolverStep early = some v') : v.ResolverGoes early v' := by
  have hfits := h.resolver
  unfold resolverStep at hstep
  cases hs : v.resolver with
  | idle =>
    rw [hs] at hstep
    cases hstep
  | locking r =>
    rw [hs] at hstep
    by_cases hl : v.lock = none
    · simp only [takeLock, if_pos hl, Option.map_some] at hstep
      cases hstep
      exact .locks r hs hl
    · simp only [takeLock, if_neg hl] at hstep
      cases hstep
  | storing r =>
    rw [hs] at hstep hfits
    have hcomplete := Board.complete_of_pending hfits.1 r
    have hgoes : v.ResolverGoes early _ := .stores r hs
    simp only [hcomplete] at hstep hgoes
    cases hstep
    exact hgoes
  | waking r callback =>
    rw [hs] at hstep
    cases hstep
    exact .wakes r callback hs
  | notifying r callback =>
    rw [hs] at hstep
    cases hstep
    exact .notifies r callback hs
  | calling r callback =>
    rw [hs] at hstep
    cases hstep
    exact .answers r callback hs
  | answered recorded =>
    rw [hs] at hstep
    cases hstep

/-- A thread that has been woken may be where it is. -/
theorem Sound.wake (h : v.Sound) {s : ThreadStage} (hs : v.threads[i]? = some s)
    (hlock : v'.lock = v.lock) (hresult : v'.result? = v.result?) :
    s.wake.Fits v' i := by
  have hfits := h.threads i s hs
  cases s with
  | locking => trivial
  | looking => exact hlock.trans hfits
  | parking => exact ⟨hlock.trans hfits.1, hresult.trans hfits.2⟩
  | parked woken => exact .inl rfl
  | returned r => exact hresult.trans hfits

/-- A task that has been notified may be where it is. -/
theorem Sound.notify (h : v.Sound) {s : TaskStage} (hs : v.tasks[i]? = some s) (early : Bool)
    (hlock : v'.lock = v.lock) (hresult : v'.result? = v.result?) :
    (s.notify early).Fits v' i := by
  have hfits := h.tasks i s hs
  cases s with
  | starting | enabling notified | locking notified | dropped => trivial
  | looking notified => exact hlock.trans hfits
  | deciding seen notified =>
    cases seen with
    | none => exact .inl rfl
    | some r => exact hresult.trans hfits
  | suspended notified => exact .inl rfl
  | returned r => exact hresult.trans hfits

theorem Sound.resolverStep (h : v.Sound) {early : List Nat}
    (hstep : v.resolverStep early = some v') : v'.Sound := by
  have hfits := h.resolver
  cases h.resolverGoes_of_step hstep with
  | locks r hs hl =>
    rw [hs] at hfits
    have hspares (who : LockHolder) :
        v.Spares { v with lock := some .resolver, resolver := .storing r } who := by
      refine spares_of_lock rfl fun hw => ?_
      rw [hl] at hw
      cases hw
    exact ⟨fun j t ht => (h.threads j t ht).spared (hspares _) fun _ => rfl,
      fun j t ht => (h.tasks j t ht).spared (hspares _) fun _ => rfl, hfits, rfl⟩
  | stores r hs =>
    rw [hs] at hfits
    obtain ⟨hpending, hl⟩ := hfits
    have hresult := Board.result?_complete_of_pending hpending r v.operation
    rw [if_pos rfl] at hresult
    -- nobody else has the lock, and there was no result before
    have hspares (who : LockHolder) (hwho : who ≠ .resolver) :
        v.Spares
          { v with
            board := (v.board.complete v.operation r).2
            lock := none
            resolver := .waking r (v.board.callback? v.operation) } who := by
      refine ⟨fun hw => ?_, fun r' hr => ?_⟩
      · exact absurd (eq_of_lock hl hw) hwho
      · rw [result?, hpending.result?] at hr
        cases hr
    refine ⟨fun j t ht => ?_, fun j t ht => ?_, hresult⟩
    · exact (h.threads j t ht).spared (hspares _ fun heq => by cases heq) fun _ => rfl
    · exact (h.tasks j t ht).spared (hspares _ fun heq => by cases heq) fun _ => rfl
  | wakes r callback hs =>
    rw [hs] at hfits
    refine ⟨fun j t ht => ?_, fun j t ht => ?_, hfits⟩
    · rw [List.getElem?_map] at ht
      obtain ⟨t₀, ht₀, rfl⟩ := Option.map_eq_some_iff.1 ht
      exact h.wake ht₀ rfl rfl
    · exact (h.tasks j t ht).spared (spares_of_lock rfl id) fun _ => rfl
  | notifies r callback hs =>
    rw [hs] at hfits
    refine ⟨fun j t ht => ?_, fun j t ht => ?_, hfits⟩
    · refine (h.threads j t ht).spared (spares_of_lock rfl id) fun hw => ?_
      rw [hs] at hw
      cases hw
    · rw [List.getElem?_mapIdx] at ht
      obtain ⟨t₀, ht₀, rfl⟩ := Option.map_eq_some_iff.1 ht
      exact h.notify ht₀ _ rfl rfl
  | answers r callback hs =>
    rw [hs] at hfits
    refine ⟨fun j t ht => ?_, fun j t ht => ?_, Option.ne_none_iff_exists'.2 ⟨r, hfits⟩⟩
    · refine (h.threads j t ht).spared (spares_of_lock rfl id) fun hw => ?_
      rw [hs] at hw
      cases hw
    · refine (h.tasks j t ht).spared (spares_of_lock rfl id) fun hn => ?_
      rw [hs] at hn
      cases hn

/-! ## A step of anybody -/

/-- What somebody else does under the lock changes neither results nor completers. -/
theorem sameOutcomes_visited (v : Vigil κ) (call : VisitorCall κ) :
    v.board.SameOutcomes (v.visited call) := by
  cases call with
  | look => exact .refl v.board
  | pass callback => exact Board.sameOutcomes_onComplete v.board v.operation callback
  | remove => exact Board.sameOutcomes_takeCallback v.board v.operation

theorem Sound.use (h : v.Sound) (hs : v.resolver = .idle) (r : SendResult) :
    Sound { v with resolver := .locking r } := by
  have hfits := h.resolver
  rw [hs] at hfits
  exact ⟨fun j t ht => (h.threads j t ht).spared (spares_of_lock rfl id) fun _ => rfl,
    fun j t ht => (h.tasks j t ht).spared (spares_of_lock rfl id) fun _ => rfl, hfits⟩

theorem Sound.visit (h : v.Sound) (hl : v.lock = none) :
    Sound { v with lock := some .visitor } := by
  have hspares (who : LockHolder) : v.Spares { v with lock := some .visitor } who := by
    refine spares_of_lock rfl fun hw => ?_
    rw [hl] at hw
    cases hw
  exact ⟨fun j t ht => (h.threads j t ht).spared (hspares _) id,
    fun j t ht => (h.tasks j t ht).spared (hspares _) id, h.resolver.spared (hspares _) id⟩

theorem Sound.leave (h : v.Sound) (hl : v.lock = some .visitor) (call : VisitorCall κ) :
    Sound { v with board := v.visited call, lock := none } := by
  have hsame := v.sameOutcomes_visited call
  have hspares (who : LockHolder) (hwho : who ≠ .visitor) :
      v.Spares { v with board := v.visited call, lock := none } who := by
    exact spares_of_lock (hsame.result v.operation) fun hw => absurd (eq_of_lock hl hw) hwho
  refine ⟨fun j t ht => ?_, fun j t ht => ?_, ?_⟩
  · exact (h.threads j t ht).spared (hspares _ fun heq => by cases heq) id
  · exact (h.tasks j t ht).spared (hspares _ fun heq => by cases heq) id
  · exact h.resolver.spared (hspares _ fun heq => by cases heq) (hsame.pending v.operation).2

theorem Sound.threadComes (h : v.Sound) :
    Sound { v with threads := v.threads ++ [.locking] } := by
  refine ⟨fun j t ht => ?_, fun j t ht => ?_, ?_⟩
  · obtain ht | ⟨-, rfl⟩ := getElem?_concat_cases ht
    · exact (h.threads j t ht).spared (spares_of_lock rfl id) id
    · trivial
  · exact (h.tasks j t ht).spared (spares_of_lock rfl id) id
  · exact h.resolver.spared (spares_of_lock rfl id) id

theorem Sound.taskComes (h : v.Sound) :
    Sound { v with tasks := v.tasks ++ [.starting] } := by
  refine ⟨fun j t ht => ?_, fun j t ht => ?_, ?_⟩
  · exact (h.threads j t ht).spared (spares_of_lock rfl id) id
  · obtain ht | ⟨-, rfl⟩ := getElem?_concat_cases ht
    · exact (h.tasks j t ht).spared (spares_of_lock rfl id) id
    · trivial
  · exact h.resolver.spared (spares_of_lock rfl id) id

/-- Every step keeps everybody where he may be. -/
theorem Sound.step (h : v.Sound) {e : VigilEvent κ} (hstep : v.step? e = some v') :
    v'.Sound := by
  cases e with
  | threadComes =>
    cases hstep
    exact h.threadComes
  | taskComes =>
    cases hstep
    exact h.taskComes
  | thread i => exact h.threadStep hstep
  | task i => exact h.taskStep hstep
  | stir i =>
    simp only [step?] at hstep
    split at hstep
    · cases hstep
      exact h.thread_moves (fun _ _ hw => hw) (.inl rfl)
    · cases hstep
  | poll i =>
    simp only [step?] at hstep
    split at hstep
    · cases hstep
      exact h.task_moves (fun _ _ hw => hw) (.inl rfl)
    · cases hstep
  | drop i =>
    simp only [step?] at hstep
    split at hstep
    · cases hstep
      exact h.task_moves (fun _ _ hw => hw) trivial
    · cases hstep
  | use r =>
    simp only [step?] at hstep
    split at hstep
    · rename_i hs
      cases hstep
      exact h.use hs r
    · cases hstep
  | resolve early => exact h.resolverStep hstep
  | visit =>
    simp only [step?, takeLock] at hstep
    split at hstep
    · rename_i hl
      cases hstep
      exact h.visit hl
    · cases hstep
  | leave call =>
    simp only [step?] at hstep
    split at hstep
    · rename_i hl
      cases hstep
      exact h.leave hl call
    · cases hstep

/-- No step takes a result back. -/
theorem Sound.result_step (h : v.Sound) {e : VigilEvent κ} (hstep : v.step? e = some v')
    {r : SendResult} (hr : v.result? = some r) : v'.result? = some r := by
  cases e with
  | threadComes | taskComes =>
    cases hstep
    exact hr
  | thread i => cases threadGoes_of_step hstep <;> exact hr
  | task i => cases taskGoes_of_step hstep <;> exact hr
  | stir i | poll i | drop i | use r' =>
    simp only [step?] at hstep
    split at hstep <;> cases hstep
    exact hr
  | resolve early =>
    cases h.resolverGoes_of_step hstep with
    | stores r' hs => exact Board.extends_complete v.board v.operation r' v.operation r hr
    | locks r' hs hl | wakes r' callback hs | notifies r' callback hs
    | answers r' callback hs => exact hr
  | visit =>
    simp only [step?, takeLock] at hstep
    split at hstep <;> cases hstep
    exact hr
  | leave call =>
    simp only [step?] at hstep
    split at hstep <;> cases hstep
    exact (v.sameOutcomes_visited call).extends v.operation r hr

/-! ## Every run -/

/-- From one moment to a later one. -/
abbrev Steps : Vigil κ → Vigil κ → Prop := Relation.ReflTransGen (Leads step?)

/-- Nobody waits yet for the operation, which is one of a sound board. -/
inductive Begins : Vigil κ → Prop
  | start {b : Board κ} {n : Nat} (hb : b.Sound) (hn : n < b.size) : Begins (.start b n)

/-- The vigil comes about when anybody waits for an operation of a sound board, in any number and
in any order of their steps. -/
abbrev Reached (v : Vigil κ) : Prop := Reachable Begins (Leads step?) v

theorem Reached.sound (h : v.Reached) : v.Sound := by
  refine h.invariant (P := Sound) ?_ fun _ _ _ ⟨e, he⟩ hsound => hsound.step he
  rintro _ ⟨hb, hn⟩
  exact sound_start hb hn

/-- A result that is there stays. -/
theorem Reached.result_steps (h : v.Reached) (hs : Steps v v') {r : SendResult}
    (hr : v.result? = some r) : v'.result? = some r := by
  refine h.along (P := fun w => w.result? = some r) hs hr ?_
  rintro w w' (hw : w.Reached) - ⟨e, he⟩ hbefore
  exact hw.sound.result_step he hbefore

/-- Once the threads have been woken no thread sleeps without a wake-up. -/
theorem Sound.woken_of_parked (h : v.Sound) (hw : v.resolver.hasWoken = true) {woken : Bool}
    (hs : v.threads[i]? = some (.parked woken)) : woken = true := by
  rcases h.threads i _ hs with hwoken | hnot
  · exact hwoken
  · rw [hw] at hnot
    cases hnot

/-- Once the tasks have been notified no task is suspended without a notification. -/
theorem Sound.notified_of_suspended (h : v.Sound) (hn : v.resolver.hasNotified = true)
    {notified : Bool} (hs : v.tasks[i]? = some (.suspended notified)) : notified = true := by
  rcases h.tasks i _ hs with hnotified | hnot
  · exact hnotified
  · rw [hn] at hnot
    cases hnot

/-- Once both kinds of waiters have been told, nobody sleeps without a wake-up that was delivered
to him. Whoever has returned a result has returned the recorded one, which stays. -/
theorem Reached.no_wake_up_is_lost (h : v.Reached) :
    (v.resolver.hasNotified = true →
      (∀ i : Nat, v.threads[i]? ≠ some (.parked false)) ∧
        ∀ i : Nat, v.tasks[i]? ≠ some (.suspended false)) ∧
    ∀ (i : Nat) r, v.threads[i]? = some (.returned r) ∨ v.tasks[i]? = some (.returned r) →
      v.result? = some r ∧ ∀ es v', v.exec es = some v' → v'.result? = some r := by
  have hsound := h.sound
  refine ⟨fun hn => ⟨fun i hs => ?_, fun i hs => ?_⟩, fun i r hs => ?_⟩
  · cases hsound.woken_of_parked (ResolverStage.hasWoken_of_hasNotified hn) hs
  · cases hsound.notified_of_suspended hn hs
  · have hr : v.result? = some r := by
      cases hs with
      | inl hthread => exact hsound.threads i _ hthread
      | inr htask => exact hsound.tasks i _ htask
    exact ⟨hr, fun es v' he => h.result_steps (steps_of_foldlM he) hr⟩

/-- A thread falls asleep and a task sees no result just before the result is stored; the task is
suspended after that, before it is notified. -/
def sleepersEvents : List (VigilEvent Unit) :=
  [.threadComes, .thread 0, .thread 0, .thread 0, .taskComes, .task 0, .task 0, .task 0, .task 0,
    .use (.error .canceled), .resolve [], .resolve [], .task 0, .resolve [], .resolve []]

/-- The two after these steps. -/
def sleepers : Vigil Unit where
  board := Board.empty.push (.resolved (.error .canceled))
  operation := 0
  threads := [.parked true]
  tasks := [.suspended true]
  resolver := .calling (.error .canceled) none

/-- Both of them after they have gone on and returned. -/
def sleepersAwake : Vigil Unit :=
  { sleepers with
    threads := [.returned (.error .canceled)]
    tasks := [.returned (.error .canceled)] }

/-- Both go on until they return. -/
def sleepersReturn : List (VigilEvent Unit) :=
  [.thread 0, .thread 0, .thread 0, .task 0, .task 0, .task 0, .task 0, .task 0, .task 0]

/-- Both sleepers have a wake-up when the resolver is done, and both return the result. -/
theorem no_wake_up_is_lost_sleepers :
    ∃ v w : Vigil Unit,
      v.Reached ∧ v.resolver.hasNotified = true ∧
      v.threads = [.parked true] ∧ v.tasks = [.suspended true] ∧
      (∀ i : Nat, v.threads[i]? ≠ some (.parked false)) ∧
      (∀ i : Nat, v.tasks[i]? ≠ some (.suspended false)) ∧
      w.threads = [.returned (.error .canceled)] ∧ w.tasks = [.returned (.error .canceled)] ∧
      w.result? = some (.error .canceled) := by
  have hb : (Board.empty.push .pending : Board Unit).Sound :=
    Board.sound_empty.push Operation.sound_pending
  have hexec : (start (Board.empty.push .pending) 0).exec sleepersEvents = some sleepers := rfl
  have hsleepers : sleepers.Reached := ⟨_, .start hb (n := 0) (by decide), steps_of_foldlM hexec⟩
  have hreturn : sleepers.exec sleepersReturn = some sleepersAwake := rfl
  have hawake : sleepersAwake.Reached := hsleepers.steps (steps_of_foldlM hreturn)
  obtain ⟨htold, -⟩ := hsleepers.no_wake_up_is_lost
  obtain ⟨hthreads, htasks⟩ := htold rfl
  obtain ⟨-, hresult⟩ := hawake.no_wake_up_is_lost
  exact ⟨sleepers, sleepersAwake, hsleepers, rfl, rfl, rfl, hthreads, htasks, rfl, rfl,
    (hresult 0 (.error .canceled) (.inl rfl)).1⟩

/-- Once the threads have been woken, a thread that waits can go on, or waits for the lock. -/
theorem Reached.threadStep_of_hasWoken (h : v.Reached) (hw : v.resolver.hasWoken = true)
    {s : ThreadStage} (hs : v.threads[i]? = some s) (hreturned : ∀ r, s ≠ .returned r) :
    (v.threadStep i).isSome = true ∨ s = .locking ∧ v.lock ≠ none := by
  cases s with
  | locking =>
    by_cases hl : v.lock = none
    · exact .inl (by simp [threadStep, hs, takeLock, hl])
    · exact .inr ⟨rfl, hl⟩
  | looking => exact .inl (by cases hr : v.result? <;> simp [threadStep, hs, hr])
  | parking => exact .inl (by simp [threadStep, hs])
  | parked woken =>
    cases h.sound.woken_of_parked hw hs
    exact .inl (by simp [threadStep, hs])
  | returned r => exact absurd rfl (hreturned r)

/-- Once the tasks have been notified, a task that waits can go on, or waits for the lock. -/
theorem Reached.taskStep_of_hasNotified (h : v.Reached) (hn : v.resolver.hasNotified = true)
    {s : TaskStage} (hs : v.tasks[i]? = some s) (hreturned : ∀ r, s ≠ .returned r)
    (hdropped : s ≠ .dropped) :
    (v.taskStep i).isSome = true ∨ (∃ notified, s = .locking notified) ∧ v.lock ≠ none := by
  cases s with
  | starting => exact .inl (by simp [taskStep, hs])
  | enabling notified => exact .inl (by simp [taskStep, hs])
  | locking notified =>
    by_cases hl : v.lock = none
    · exact .inl (by simp [taskStep, hs, takeLock, hl])
    · exact .inr ⟨⟨notified, rfl⟩, hl⟩
  | looking notified => exact .inl (by simp [taskStep, hs])
  | deciding seen notified => exact .inl (by cases seen <;> simp [taskStep, hs])
  | suspended notified =>
    cases h.sound.notified_of_suspended hn hs
    exact .inl (by simp [taskStep, hs])
  | returned r => exact absurd rfl (hreturned r)
  | dropped => exact absurd rfl hdropped

end Vigil

end PeerLink
