import PeerLink.Activity

/-!
# How exact an idle time is

Whoever has something to record reads the clock first, and raises the stamp in a step of
its own.  So the readings of several threads may be merged in any order, a late one
before an early one.

A stamp is a maximum, and a maximum does not ask for the order.  After any readings it
is the stamp for the latest of them, the reading at the start included, and whole
milliseconds are all that is lost.  As the latest of the three stamps is the stamp for
the latest reading of all, that loss is the only error of the idle time.

## Main results

* `Stamps.of_touchAll` — a stamp is the stamp for the latest reading of its kind.
* `Stamps.touchAll_of_perm` — the order of the readings does not matter.
* `Stamps.nanos_idleAt_touchAll` — the idle time is the time since the latest reading,
  that reading cut to whole milliseconds.
* `Stamps.idle_time_is_exact` — all of this together.
-/

namespace PeerLink

/-- What can happen on a session. -/
inductive Activity
  | receive
  | schedule
  | send
  deriving DecidableEq, Repr

/-- Something that has happened, with the reading of the clock that was taken for it. -/
structure Touch where
  activity : Activity
  reading : Duration
  deriving DecidableEq, Repr

/-- A reading of a list that no other one of it exceeds. -/
def IsLatest (reading : Duration) (readings : List Duration) : Prop :=
  reading ∈ readings ∧ ∀ r ∈ readings, r ≤ reading

instance (reading : Duration) (readings : List Duration) :
    Decidable (IsLatest reading readings) := inferInstanceAs (Decidable (_ ∧ _))

/-- The readings that were taken for one kind of activity. -/
def readingsOf (activity : Activity) (touches : List Touch) : List Duration :=
  (touches.filter fun t => t.activity = activity).map Touch.reading

theorem readingsOf_cons (activity : Activity) (t : Touch) (ts : List Touch) :
    readingsOf activity (t :: ts) =
      if t.activity = activity then t.reading :: readingsOf activity ts
      else readingsOf activity ts := by
  unfold readingsOf
  rw [List.filter_cons]
  simp only [decide_eq_true_eq]
  split <;> rfl

theorem mem_readingsOf {touches : List Touch} {t : Touch} (h : t ∈ touches) :
    t.reading ∈ readingsOf t.activity touches :=
  List.mem_map_of_mem (List.mem_filter.2 ⟨h, decide_eq_true rfl⟩)

theorem readingsOf_subset (activity : Activity) (touches : List Touch) :
    readingsOf activity touches ⊆ touches.map Touch.reading :=
  List.map_subset _ List.filter_sublist.subset

namespace Duration

variable {a b c : Duration}

theorem le_def : a ≤ b ↔ a.nanos ≤ b.nanos := Iff.rfl

theorem ext_nanos (h : a.nanos = b.nanos) : a = b := by
  cases a
  cases b
  exact congrArg _ h

theorem max_eq_right_of_le (h : a ≤ b) : max a b = b :=
  ext_nanos (by rw [nanos_max, Nat.max_eq_right h])

theorem max_eq_left_of_le (h : b ≤ a) : max a b = a :=
  ext_nanos (by rw [nanos_max, Nat.max_eq_left h])

theorem max_right_comm (a b c : Duration) : max (max a b) c = max (max a c) b :=
  ext_nanos (by simp only [nanos_max, Nat.max_right_comm])

end Duration

namespace Stamps

/-- The stamp for one kind of activity. -/
def of (s : Stamps) : Activity → Duration
  | .receive => s.receive
  | .schedule => s.schedule
  | .send => s.send

/-- Records what has happened. -/
def touch (s : Stamps) (t : Touch) : Stamps :=
  match t.activity with
  | .receive => s.touchReceive t.reading
  | .schedule => s.touchSchedule t.reading
  | .send => s.touchSend t.reading

/-- Records one thing after the other. -/
def touchAll (s : Stamps) (touches : List Touch) : Stamps := touches.foldl touch s

/-- The latest of the three stamps. -/
def latest (s : Stamps) : Duration := max (max s.receive s.schedule) s.send

/-! ## One stamp -/

theorem nanos_stamp (now : Duration) :
    (stamp now).nanos = min (now.nanos / 1_000_000) maxMillis * 1_000_000 := rfl

/-- A later reading has no earlier stamp. -/
theorem stamp_mono {a b : Duration} (h : a ≤ b) : stamp a ≤ stamp b := by
  have hmillis : a.nanos / 1_000_000 ≤ b.nanos / 1_000_000 := Nat.div_le_div_right h
  rw [Duration.le_def, nanos_stamp, nanos_stamp]
  omega

theorem max_stamp {a b : Duration} (h : a ≤ b) : max (stamp a) (stamp b) = stamp b :=
  Duration.max_eq_right_of_le (stamp_mono h)

theorem of_started (now : Duration) (a : Activity) : (started now).of a = stamp now := by
  cases a <;> rfl

theorem of_touch (s : Stamps) (t : Touch) (a : Activity) :
    (s.touch t).of a =
      if t.activity = a then max (s.of a) (stamp t.reading) else s.of a := by
  obtain ⟨activity, reading⟩ := t
  cases activity <;> cases a <;> rfl

theorem ext_of {s s' : Stamps} (h : ∀ a, s.of a = s'.of a) : s = s' := by
  cases s
  cases s'
  rw [Stamps.mk.injEq]
  exact ⟨h .receive, h .schedule, h .send⟩

/-- Stamps only move forward. -/
theorem of_le_of_touch (s : Stamps) (t : Touch) (a : Activity) : s.of a ≤ (s.touch t).of a := by
  rw [of_touch]
  split
  · rw [Duration.le_def, Duration.nanos_max]
    exact Nat.le_max_left _ _
  · exact Nat.le_refl _

/-! ## Readings in any order -/

/-- Two things that have happened may be recorded in either order. -/
theorem touch_comm (s : Stamps) (t t' : Touch) : (s.touch t).touch t' = (s.touch t').touch t := by
  refine ext_of fun a => ?_
  simp only [of_touch]
  split <;> split
  · exact Duration.max_right_comm _ _ _
  · rfl
  · rfl
  · rfl

theorem touchAll_of_perm (s : Stamps) {ts ts' : List Touch} (h : ts.Perm ts') :
    s.touchAll ts = s.touchAll ts' :=
  h.foldl_eq' (fun t _ t' _ s => s.touch_comm t t') s

/-- A stamp for a reading becomes the stamp for the latest one, that reading included. -/
theorem of_touchAll {s : Stamps} {reading : Duration} {a : Activity} (ts : List Touch)
    (hs : s.of a = stamp reading) :
    ∃ r, IsLatest r (reading :: readingsOf a ts) ∧ (s.touchAll ts).of a = stamp r := by
  induction ts generalizing s reading with
  | nil =>
      refine ⟨reading, ⟨List.mem_cons_self .., fun r hr => ?_⟩, hs⟩
      rw [List.mem_singleton.1 hr]
      exact Nat.le_refl _
  | cons t ts ih =>
      by_cases ha : t.activity = a
      · rw [readingsOf_cons, if_pos ha]
        -- The later one of the two readings stands for both.
        rcases Nat.le_total reading.nanos t.reading.nanos with hle | hle
        · have hstamp : (s.touch t).of a = stamp t.reading := by
            rw [of_touch, if_pos ha, hs, max_stamp hle]
          obtain ⟨r, ⟨hmem, hmax⟩, hr⟩ := ih hstamp
          refine ⟨r, ⟨List.mem_cons_of_mem _ hmem, ?_⟩, hr⟩
          exact List.forall_mem_cons.2 ⟨Nat.le_trans hle (hmax _ (List.mem_cons_self ..)), hmax⟩
        · have hstamp : (s.touch t).of a = stamp reading := by
            rw [of_touch, if_pos ha, hs, Duration.max_eq_left_of_le (stamp_mono hle)]
          obtain ⟨r, ⟨hmem, hmax⟩, hr⟩ := ih hstamp
          have hreading : reading ≤ r := hmax _ (List.mem_cons_self ..)
          refine ⟨r, ⟨?_, ?_⟩, hr⟩
          · rcases List.mem_cons.1 hmem with rfl | hmem
            · exact List.mem_cons_self ..
            · exact List.mem_cons_of_mem _ (List.mem_cons_of_mem _ hmem)
          · refine List.forall_mem_cons.2 ⟨hreading, List.forall_mem_cons.2 ⟨?_, ?_⟩⟩
            · exact Nat.le_trans hle hreading
            · exact fun r' hr' => hmax r' (List.mem_cons_of_mem _ hr')
      · have hstamp : (s.touch t).of a = stamp reading := by
          rw [of_touch, if_neg ha, hs]
        rw [readingsOf_cons, if_neg ha]
        exact ih hstamp

/-! ## Idle times -/

theorem nanos_latest (s : Stamps) :
    s.latest.nanos = max (max s.receive.nanos s.schedule.nanos) s.send.nanos := by
  simp only [latest, Duration.nanos_max]

theorem of_le_latest (s : Stamps) (a : Activity) : s.of a ≤ s.latest := by
  rw [Duration.le_def, nanos_latest]
  cases a <;> simp only [of] <;> omega

theorem latest_le {s : Stamps} {d : Duration} (h : ∀ a, s.of a ≤ d) : s.latest ≤ d := by
  have hreceive : s.receive.nanos ≤ d.nanos := h .receive
  have hschedule : s.schedule.nanos ≤ d.nanos := h .schedule
  have hsend : s.send.nanos ≤ d.nanos := h .send
  rw [Duration.le_def, nanos_latest]
  omega

theorem idleAt_eq (s : Stamps) (now : Duration) : s.idleAt now = now - s.latest :=
  Duration.ext_nanos (by rw [nanos_idleAt, Duration.nanos_sub, nanos_latest])

/-- Later, a session has been idle for no less time. -/
theorem idleAt_mono (s : Stamps) {now now' : Duration} (h : now ≤ now') :
    s.idleAt now ≤ s.idleAt now' := by
  rw [idleAt_eq, idleAt_eq]
  exact Nat.sub_le_sub_right h _

/-- With later stamps, a session has been idle for no more time. -/
theorem idleAt_anti {s s' : Stamps} (h : ∀ a, s.of a ≤ s'.of a) (now : Duration) :
    s'.idleAt now ≤ s.idleAt now := by
  rw [idleAt_eq, idleAt_eq]
  refine Nat.sub_le_sub_left (latest_le fun a => ?_) _
  exact Nat.le_trans (h a) (s'.of_le_latest a)

/-- The latest stamp is the stamp for the latest reading. -/
theorem latest_touchAll {start r : Duration} {ts : List Touch}
    (hr : IsLatest r (start :: ts.map Touch.reading)) :
    ((started start).touchAll ts).latest = stamp r := by
  obtain ⟨hmem, hmax⟩ := hr
  have hrow (a : Activity) := of_touchAll ts (of_started start a)
  have hle (a : Activity) : ((started start).touchAll ts).of a ≤ stamp r := by
    obtain ⟨r', ⟨hmem', -⟩, heq⟩ := hrow a
    rw [heq]
    refine stamp_mono (hmax r' ?_)
    exact List.cons_subset_cons start (readingsOf_subset a ts) hmem'
  -- The kind of the latest reading has a stamp as late as that.
  have hge : ∃ a, stamp r ≤ ((started start).touchAll ts).of a := by
    obtain ⟨a, ha⟩ : ∃ a, r ∈ start :: readingsOf a ts := by
      rcases List.mem_cons.1 hmem with rfl | hmem
      · exact ⟨.receive, List.mem_cons_self ..⟩
      · obtain ⟨t, ht, rfl⟩ := List.mem_map.1 hmem
        exact ⟨t.activity, List.mem_cons_of_mem _ (mem_readingsOf ht)⟩
    obtain ⟨r', ⟨-, hmax'⟩, heq⟩ := hrow a
    refine ⟨a, ?_⟩
    rw [heq]
    exact stamp_mono (hmax' r ha)
  obtain ⟨a, ha⟩ := hge
  refine Duration.ext_nanos (Nat.le_antisymm (latest_le hle) ?_)
  exact Nat.le_trans ha (of_le_latest _ a)

theorem nanos_idleAt_touchAll {start r : Duration} {ts : List Touch}
    (hr : IsLatest r (start :: ts.map Touch.reading)) (now : Duration) :
    (((started start).touchAll ts).idleAt now).nanos =
      now.nanos - min (r.nanos / 1_000_000) maxMillis * 1_000_000 := by
  rw [idleAt_eq, Duration.nanos_sub, latest_touchAll hr, nanos_stamp]

/-- A stamp only moves forward.  After any readings, recorded in any order, it is the latest
reading of its kind in whole milliseconds, as far as it can hold them.  The idle time is
the time since the latest stamp, zero if that lies ahead; it grows with the time and falls
with the stamps.  If no reading lies ahead, and the stamps can hold all of them, the idle
time is the time since the latest reading, or more by less than a millisecond. -/
theorem idle_time_is_exact (start : Duration) (ts : List Touch) :
    (∀ s : Stamps, ∀ t a, s.of a ≤ (s.touch t).of a) ∧
      (∀ ts', ts'.Perm ts → (started start).touchAll ts' = (started start).touchAll ts) ∧
      (∀ a, ∃ r, IsLatest r (start :: readingsOf a ts) ∧
        ((started start).touchAll ts).of a =
          .ofMillis (min (r.nanos / 1_000_000) (UInt64.size - 1))) ∧
      (∀ s : Stamps, ∀ now,
        (s.idleAt now).nanos =
          now.nanos - max (max s.receive.nanos s.schedule.nanos) s.send.nanos) ∧
      (∀ s : Stamps, ∀ now now', now ≤ now' → s.idleAt now ≤ s.idleAt now') ∧
      (∀ s s' : Stamps, ∀ now, (∀ a, s.of a ≤ s'.of a) → s'.idleAt now ≤ s.idleAt now) ∧
      ∀ r now, IsLatest r (start :: ts.map Touch.reading) → r ≤ now →
        r.nanos / 1_000_000 < UInt64.size →
        (now - r).nanos ≤ (((started start).touchAll ts).idleAt now).nanos ∧
          (((started start).touchAll ts).idleAt now).nanos < (now - r).nanos + 1_000_000 := by
  refine ⟨of_le_of_touch, ?_, ?_, nanos_idleAt, fun s now now' h => s.idleAt_mono h,
    fun s s' now h => idleAt_anti h now, ?_⟩
  · intro ts' h
    exact touchAll_of_perm _ h
  · intro a
    exact of_touchAll ts (of_started start a)
  · intro r now hr hnow hsize
    have hheld : min (r.nanos / 1_000_000) maxMillis = r.nanos / 1_000_000 :=
      Nat.min_eq_left (Nat.le_sub_one_of_lt hsize)
    have hle : r.nanos ≤ now.nanos := hnow
    rw [nanos_idleAt_touchAll hr, hheld, Duration.nanos_sub]
    omega

/-- The latest reading is recorded first, and an early one of the same kind last. -/
def latestFirst : List Touch :=
  [⟨.send, ⟨3_500_000⟩⟩, ⟨.receive, ⟨2_000_001⟩⟩, ⟨.send, ⟨1_000_000⟩⟩]

/-- Half a millisecond is lost, in that order and in the opposite one. -/
theorem latestFirst_is_exact :
    IsLatest ⟨3_500_000⟩ (⟨1_500_000⟩ :: latestFirst.map Touch.reading) ∧
      (started ⟨1_500_000⟩).touchAll latestFirst.reverse =
        (started ⟨1_500_000⟩).touchAll latestFirst ∧
      1_500_000 ≤ (((started ⟨1_500_000⟩).touchAll latestFirst).idleAt ⟨5_000_000⟩).nanos ∧
      (((started ⟨1_500_000⟩).touchAll latestFirst).idleAt ⟨5_000_000⟩).nanos <
        1_500_000 + 1_000_000 ∧
      ((started ⟨1_500_000⟩).touchAll latestFirst).idleAt ⟨5_000_000⟩ = ⟨2_000_000⟩ := by
  have hlatest : IsLatest ⟨3_500_000⟩ (⟨1_500_000⟩ :: latestFirst.map Touch.reading) := by decide
  obtain ⟨-, horder, -, -, -, -, hexact⟩ := idle_time_is_exact ⟨1_500_000⟩ latestFirst
  obtain ⟨hlow, hhigh⟩ := hexact ⟨3_500_000⟩ ⟨5_000_000⟩ hlatest (by decide) (by decide)
  have hsince : ((⟨5_000_000⟩ : Duration) - ⟨3_500_000⟩).nanos = 1_500_000 := rfl
  rw [hsince] at hlow hhigh
  exact ⟨hlatest, horder _ (List.reverse_perm latestFirst), hlow, hhigh, rfl⟩

end Stamps

end PeerLink
