import PeerLink.Proofs.Node.Progress

/-!
# The report of a sending node

In the end a sending node reports what its client has counted, and how many of its acks
have told of a good end or of a failure.  The counters are moved by the node itself, and
the acks run on the writer's side, at any moment before or after the node is done.

The counters are settled once the node is done: each of its sends has an answer, and at
most the last one made it stop.  For the acks, the numbers they note are told apart by
the operations of their sends, which are different ones.  So the notes can be counted by
the sends in flight, each of which has one ack.

## Main results

* `Dispatch.Sound.stats_ended` — what the counters show in the end.
* `Dispatch.Account.nodup_told` — no send is told twice.
* `Dispatch.Account.of_mem_told` — an ack tells how the operation of its send has ended.
* `Dispatch.report_adds_up` — how the counters and the acks add up.
-/

namespace PeerLink

/-! ## Counting -/

/-- A count over a list is one over the places of the list. -/
theorem countP_places {α : Type} (p : α → Bool) (l : List α) :
    ((List.range l.length).countP fun k => (l[k]?).any p) = l.countP p := by
  induction l with
  | nil => rfl
  | cons x xs ih =>
      rw [List.length_cons, List.range_succ_eq_map, List.countP_cons, List.countP_map,
        List.countP_cons, ← ih]
      rfl

/-- A count over what is known of some keys is one over all that is known. -/
theorem countP_lookup {β : Type} (p : β → Bool) {l : List (Nat × β)} {keys : List Nat}
    (hl : (l.map Prod.fst).Nodup) (hkeys : keys.Nodup) (hsub : ∀ x ∈ l, x.1 ∈ keys) :
    keys.countP (fun k => (l.lookup k).any p) = l.countP (fun x => p x.2) := by
  induction l generalizing keys with
  | nil => exact List.countP_eq_zero.2 fun k _ => Bool.false_ne_true
  | cons x l ih =>
      obtain ⟨k, b⟩ := x
      obtain ⟨hk, hl⟩ := List.nodup_cons.1 hl
      have hmem : k ∈ keys := hsub (k, b) List.mem_cons_self
      have hfresh {y : Nat × β} (hy : y ∈ l) : y.1 ≠ k := by
        rintro rfl
        exact hk (List.mem_map.2 ⟨y, hy, rfl⟩)
      have hrest : (keys.erase k).countP (fun j => (((k, b) :: l).lookup j).any p) =
          (keys.erase k).countP (fun j => (l.lookup j).any p) := by
        refine List.countP_congr fun j hj => ?_
        have hne : (j == k) = false := by simpa using (hkeys.mem_erase_iff.1 hj).1
        rw [List.lookup_cons, hne]
      rw [(List.perm_cons_erase hmem).countP_eq, List.countP_cons, hrest,
        ih hl (hkeys.erase k) fun y hy =>
          hkeys.mem_erase_iff.2 ⟨hfresh hy, hsub y (List.mem_cons_of_mem _ hy)⟩,
        List.countP_cons, List.lookup_cons_self]
      rfl

namespace ClientSend

variable {c : ClientSend}

theorem GoesOn.stageAfter (h : c.GoesOn) {answer : SendAnswer} (hs : c.stage = .returned answer) :
    Sender.stageAfter answer = .between := by
  unfold GoesOn at h
  rw [hs] at h
  rcases answer with e | (- | - | cause)
  · cases e <;> rcases h with h | h <;> cases h
  · rfl
  · rfl
  · rcases h with h | h <;> cases h

theorem Breaks.stageAfter (h : c.Breaks) :
    ∃ answer, c.stage = .returned answer ∧ Sender.stageAfter answer ≠ .between := by
  unfold Breaks at h
  cases hs : c.stage with
  | going stage | handed | aborted =>
      rw [hs] at h
      rcases h with h | h <;> cases h
  | returned answer =>
      rw [hs] at h
      refine ⟨answer, rfl, ?_⟩
      rcases answer with e | (- | - | cause)
      · nofun
      · rcases h with h | h <;> cases h
      · rcases h with h | h <;> cases h
      · nofun

end ClientSend

namespace Dispatch

variable {v : Dispatch}

/-- How many sends came to the answer which this counter counts. -/
def tally (v : Dispatch) (f : Counter) : Nat := v.sends.countP fun c => c.stage.answer? == some f

/-- When the messages are done, each send has an answer, and at most the last one was such that
the node stopped. -/
theorem Shape.of_ended {sends : List ClientSend} {answered count : Nat} {early : Bool}
    (h : Shape sends answered count (.ended early)) :
    answered = sends.length ∧ answered ≤ count ∧ (∀ c ∈ sends, c.GoesOn ∨ c.Breaks) ∧
      ∃ earlier last, sends = earlier ++ last ∧ (∀ c ∈ earlier, c.GoesOn) ∧
        (early = false ∧ last = [] ∧ answered = count ∨
          early = true ∧ ∃ c, last = [c] ∧ c.Breaks) := by
  cases h with
  | broken hs he hb ha hc =>
      refine ⟨?_, hc, fun x hx => ?_, _, _, hs, he, .inr ⟨rfl, _, rfl, hb⟩⟩
      · rw [ha, hs, List.length_append, List.length_singleton]
      · rw [hs] at hx
        rcases List.mem_append.1 hx with hold | hlast
        · exact .inl (he x hold)
        · rw [List.mem_singleton.1 hlast]
          exact .inr hb
  | finished hs ha hc =>
      exact ⟨ha, Nat.le_of_eq hc, fun x hx => .inl (hs x hx), _, _, (List.append_nil _).symm, hs,
        .inl ⟨rfl, rfl, hc⟩⟩

/-- Every send with an answer of which the node takes notice is counted once. -/
theorem length_eq_tallies (l : List ClientSend) (h : ∀ c ∈ l, c.GoesOn ∨ c.Breaks) :
    l.length = (l.countP fun c => c.stage.answer? == some .accepted) +
      (l.countP fun c => c.stage.answer? == some .inFlight) +
      (l.countP fun c => c.stage.answer? == some .reconnects) +
      l.countP fun c => c.stage.answer? == some .rejected := by
  induction l with
  | nil => rfl
  | cons c l ih =>
      have hrest := ih fun x hx => h x (List.mem_cons_of_mem c hx)
      simp only [List.countP_cons, List.length_cons]
      rcases h c List.mem_cons_self with (hc | hc) | (hc | hc) <;> rw [hc] <;> simp <;> omega

/-- The node is done with its messages. -/
theorem Sound.stats_ended (h : v.Sound) {early : Bool} (hs : v.sender.stage = .ended early) :
    v.sender.stats.issued = v.sends.length ∧
      ∀ f, f ≠ .issued → v.sender.stats.read f = v.tally f := by
  obtain ⟨client, hclient, hread⟩ := h.counted
  have hstats : v.sender.stats = client.stats := by
    rw [Sender.stats, hclient]
    rfl
  have hshape := h.shape
  rw [hs] at hshape
  obtain ⟨hanswered, hcount, hover, -⟩ := hshape.of_ended
  -- There are fewer sends than a counter can show.
  have hsmall : v.sends.length < UInt64.size := by
    have hfew := h.count
    have hsizes : UInt32.size < UInt64.size := by decide
    omega
  have hcounted (f : Counter) :
      client.stats.read f = v.sends.countP fun c => c.stage.hasCounted f := by
    rw [hread, Nat.mod_eq_of_lt (Nat.lt_of_le_of_lt List.countP_le_length hsmall)]
  refine ⟨?_, fun f hf => ?_⟩
  · have hissued : client.stats.issued = _ := hcounted .issued
    rw [hstats, hissued, List.countP_eq_length]
    intro c hc
    rcases hover c hc with (hc | hc) | (hc | hc) <;>
      simp [CallStage.hasCounted, hc]
  · rw [hstats, hcounted]
    cases f with
    | issued => exact absurd rfl hf
    | accepted | inFlight | reconnects | rejected => rfl

/-! ## Acks -/

/-- The numbers of the sends that were answered with "in flight". -/
def inFlight (v : Dispatch) : List Nat :=
  (List.range v.sends.length).filter fun k =>
    (v.sends[k]?).any fun c => c.stage.answer? == some .inFlight

theorem length_inFlight (v : Dispatch) : v.inFlight.length = v.tally .inFlight := by
  rw [inFlight, ← List.countP_eq_length_filter]
  exact countP_places (fun c => c.stage.answer? == some .inFlight) v.sends

theorem nodup_inFlight (v : Dispatch) : v.inFlight.Nodup := List.nodup_range.filter _

theorem answer?_eq_inFlight {stage : CallStage} :
    stage.answer? = some .inFlight ↔ stage = .returned (.ok .inFlight) := by
  refine ⟨fun h => ?_, fun h => by rw [h]; rfl⟩
  cases stage with
  | going s | handed | aborted => cases h
  | returned answer =>
      rcases answer with e | (- | - | cause)
      · cases e <;> cases h
      · cases h
      · rfl
      · cases h

theorem mem_inFlight_iff {k : Nat} : k ∈ v.inFlight ↔
    ∃ c : ClientSend, v.sends[k]? = some c ∧ c.stage = .returned (.ok .inFlight) := by
  rw [inFlight, List.mem_filter, List.mem_range, Option.any_eq_true]
  simp only [beq_iff_eq, answer?_eq_inFlight]
  exact ⟨fun h => h.2, fun ⟨c, hk, hs⟩ => ⟨(List.getElem?_eq_some_iff.1 hk).1, c, hk, hs⟩⟩

/-- What the ack of a sending node has noted: the number of its send, and the result. -/
def toldBy : AckNote → Option (Nat × SendResult)
  | .watched k r => some (k, r)
  | .told _ _ | .closed _ _ | .sent _ _ | .state _ _ _ => none

/-- What the notes of the acks tell. -/
def told (v : Dispatch) : List (Nat × SendResult) := v.sender.group.notes.filterMap toldBy

/-- What the ack of a send has told, if it has run. -/
def told? (v : Dispatch) (k : Nat) : Option SendResult := v.told.lookup k

theorem acked_eq (v : Dispatch) : v.sender.acked = v.told.countP fun x => x.2.isOk := by
  rw [told, List.countP_filterMap]
  refine List.countP_congr fun note _ => ?_
  rcases note with ⟨k, e | -⟩ | _ | _ | _ | _ <;> rfl

theorem failed_eq (v : Dispatch) : v.sender.failed = v.told.countP fun x => !x.2.isOk := by
  rw [told, List.countP_filterMap]
  refine List.countP_congr fun note _ => ?_
  rcases note with ⟨k, e | -⟩ | _ | _ | _ | _ <;> rfl

theorem toldBy_eq_some_iff {note : AckNote} {x : Nat × SendResult} :
    toldBy note = some x ↔ note = .watched x.1 x.2 := by
  refine ⟨fun h => ?_, fun h => by rw [h]; rfl⟩
  cases note <;> cases h
  rfl

theorem noteOf_eq_some_iff {f : Firing} {k : Nat} {r : SendResult} :
    noteOf f = some (.watched k r) ↔ f.ack = .watch k ∧ f.result = r := by
  unfold noteOf
  cases hack : f.ack <;> simp

theorem Account.mem_told_iff (h : v.Account) {k : Nat} {r : SendResult} :
    (k, r) ∈ v.told ↔ ∃ f ∈ v.run.fired.take v.heard, f.ack = .watch k ∧ f.result = r := by
  have hnote : (k, r) ∈ v.told ↔ AckNote.watched k r ∈ v.sender.group.notes := by
    rw [told, List.mem_filterMap]
    simp only [toldBy_eq_some_iff, exists_eq_right]
  rw [hnote, h.notes, List.mem_reverse, List.mem_filterMap]
  simp only [noteOf_eq_some_iff]

/-- No operation is told twice. -/
theorem Account.nodup_fired (h : v.Account) : (v.run.fired.map Firing.operation).Nodup := by
  rw [List.nodup_iff_count_le_one]
  intro n
  have hcount : (v.run.fired.map Firing.operation).count n = (v.run.firings n).length := by
    rw [List.count, List.countP_map, Run.firings, List.countP_eq_length_filter]
    rfl
  rw [hcount]
  rcases h.world.attributed n with hn | ⟨k, c, ack, hk, hanswers⟩
  · rw [show v.run.firings n = [] from hn.firings]
    exact Nat.zero_le _
  · rcases hanswers.left with ⟨-, -, hnone⟩ | ⟨r, -, hone⟩
    · rw [show v.run.firings n = [] from hnone]
      exact Nat.zero_le _
    · rw [show v.run.firings n = [_] from hone]
      exact Nat.le_refl _

/-- So no send is told twice. -/
theorem Account.nodup_told (h : v.Account) : (v.told.map Prod.fst).Nodup := by
  have hheard : v.run.fired.take v.heard |>.Pairwise fun f f' => f.operation ≠ f'.operation :=
    (List.pairwise_map.1 h.nodup_fired).sublist (List.take_sublist _ _)
  have hnumbers : v.run.fired.take v.heard |>.Pairwise fun f f' =>
      ∀ k, f.ack = .watch k → f'.ack ≠ .watch k := by
    refine hheard.imp_of_mem fun {f f'} hf hf' hne k hack hack' => hne ?_
    obtain ⟨j, c, hc, hj, hanswers⟩ := h.caller_of_fired (List.mem_of_mem_take hf)
    obtain ⟨j', c', hc', hj', hanswers'⟩ := h.caller_of_fired (List.mem_of_mem_take hf')
    obtain rfl : k = j := by
      rw [hack] at hj
      exact Ack.watch.inj hj
    obtain rfl : k = j' := by
      rw [hack'] at hj'
      exact Ack.watch.inj hj'
    obtain rfl := Option.some.inj (hc.symm.trans hc')
    exact hanswers.has.unique hanswers'.has
  rw [List.Nodup, List.pairwise_map, told, List.pairwise_filterMap, h.notes,
    List.pairwise_reverse, List.pairwise_filterMap]
  refine hnumbers.imp fun {f f'} hne note hnote note' hnote' x hx y hy hsame => ?_
  rw [toldBy_eq_some_iff.1 hy, noteOf_eq_some_iff] at hnote
  rw [toldBy_eq_some_iff.1 hx, noteOf_eq_some_iff, hsame] at hnote'
  exact hne y.1 hnote.1 hnote'.1

/-- Once the messages are done, what was told is the result of a send in flight. -/
theorem Account.of_mem_told (h : v.Account) (hover : ∀ c ∈ v.sends, c.GoesOn ∨ c.Breaks) {k : Nat}
    {r : SendResult} (ht : (k, r) ∈ v.told) : k ∈ v.inFlight ∧
      ∃ (c : ClientSend) (n : Nat), v.sends[k]? = some c ∧ c.Has v.run n ∧
        v.run.session.board.result? n = some r := by
  obtain ⟨f, hf, hack, rfl⟩ := h.mem_told_iff.1 ht
  have hfired := List.mem_of_mem_take hf
  obtain ⟨j, c, hc, hack', hanswers⟩ := h.caller_of_fired hfired
  obtain rfl : k = j := by
    rw [hack] at hack'
    exact Ack.watch.inj hack'
  refine ⟨mem_inFlight_iff.2 ⟨c, hc, ?_⟩, c, f.operation, hc, hanswers.has, ?_⟩
  · rcases hanswers.stage with hgoing | hreturned
    · rcases hover c (List.mem_of_getElem? hc) with (hc | hc) | (hc | hc) <;>
        rw [hgoing] at hc <;> cases hc
    · exact hreturned
  · have hmem : f ∈ v.run.firings f.operation := List.mem_filter.2 ⟨hfired, by simp⟩
    rcases hanswers.left with ⟨-, -, hnone⟩ | ⟨r, hr, hone⟩
    · rw [hnone] at hmem
      cases hmem
    · rw [hone, List.mem_singleton] at hmem
      rw [hr, hmem]

/-- The ack of a send in flight that has told nothing is still to run, or is running. -/
theorem Account.of_told?_eq_none (h : v.Account) {k : Nat} (hk : k ∈ v.inFlight)
    (ht : v.told? k = none) : ∃ (c : ClientSend) (n : Nat), v.sends[k]? = some c ∧ c.Has v.run n ∧
      (v.run.session.board.result? n = none ∧ v.run.session.board.callback? n = some (.watch k) ∨
        ∃ r, v.run.session.board.result? n = some r ∧
          (⟨n, .watch k, r⟩ : Firing) ∈ v.run.fired.drop v.heard) := by
  obtain ⟨c, hc, hs⟩ := mem_inFlight_iff.1 hk
  have hstands := h.world.calls.stands k c hc
  unfold ClientSend.Stands at hstands
  rw [hs] at hstands
  obtain ⟨n, hhas, hwatch⟩ := hstands
  have hack : c.call.ack = some (.watch k) := by rw [h.calls k c hc]; rfl
  unfold ClientSend.Watches at hwatch
  simp only [hack] at hwatch
  refine ⟨c, n, hc, hhas, ?_⟩
  rcases hwatch.1 with ⟨hresult, hcallback, -⟩ | ⟨r, hr, hone⟩
  · exact .inl ⟨hresult, hcallback⟩
  · refine .inr ⟨r, hr, ?_⟩
    have hmem : (⟨n, .watch k, r⟩ : Firing) ∈ v.run.fired := by
      have hself : (⟨n, .watch k, r⟩ : Firing) ∈ v.run.firings n := by
        rw [show v.run.firings n = [_] from hone]
        exact List.mem_singleton_self _
      exact (List.mem_filter.1 hself).1
    rw [← List.take_append_drop v.heard v.run.fired] at hmem
    rcases List.mem_append.1 hmem with hheard | hwaits
    · have hin : (k, r) ∈ v.told := h.mem_told_iff.2 ⟨_, hheard, rfl, rfl⟩
      have hnone := List.lookup_eq_none_iff.1 ht (k, r) hin
      simp at hnone
    · exact hwaits

/-! ## The report -/

/-- Some send was answered so that the node left the others out. -/
def BrokeOff (v : Dispatch) : Prop :=
  ∃ c ∈ v.sends, ∃ answer, c.stage = .returned answer ∧ Sender.stageAfter answer ≠ .between

/-- Of all sends, only the last one can have made the node stop. -/
theorem Sound.stops_ended (h : v.Sound) {early : Bool} (hs : v.sender.stage = .ended early) :
    v.tally .reconnects + v.tally .rejected = early.toNat ∧ (early = true ↔ v.BrokeOff) := by
  have hshape := h.shape
  rw [hs] at hshape
  obtain ⟨-, -, -, earlier, last, hsends, hwent, hlast⟩ := hshape.of_ended
  have hnone (f : Counter) (hf : f = .reconnects ∨ f = .rejected) :
      (earlier.countP fun c => c.stage.answer? == some f) = 0 := by
    refine List.countP_eq_zero.2 fun c hc hcounts => ?_
    rw [beq_iff_eq] at hcounts
    rcases hwent c hc with hanswer | hanswer <;> rw [hanswer] at hcounts <;>
      rcases hf with rfl | rfl <;> cases hcounts
  have htally (f : Counter) (hf : f = .reconnects ∨ f = .rejected) :
      v.tally f = last.countP fun c => c.stage.answer? == some f := by
    rw [tally, hsends, List.countP_append, hnone f hf, Nat.zero_add]
  rw [htally _ (.inl rfl), htally _ (.inr rfl)]
  rcases hlast with ⟨rfl, rfl, -⟩ | ⟨rfl, c, rfl, hbreaks⟩
  · refine ⟨rfl, nofun, fun ⟨c, hc, answer, hanswer, hstops⟩ => ?_⟩
    rw [hsends, List.append_nil] at hc
    exact absurd ((hwent c hc).stageAfter hanswer) hstops
  · refine ⟨?_, fun _ => ⟨c, ?_, hbreaks.stageAfter⟩, fun _ => rfl⟩
    · rcases hbreaks with hanswer | hanswer <;> simp [hanswer]
    · rw [hsends]
      exact List.mem_append_right _ List.mem_cons_self

/-- When the node is done with its messages, its report adds up, at every moment from then on.
Each message that it began was issued and answered, and there are no more of them than it was to
send.  What was issued was accepted, is in flight, or made the node stop, which at most one send
did, and one did exactly if messages were left out or met a fault.  The acks that have told of a
good end and those that have told of a failure are acks of sends in flight, one for each, and tell
how the operation of the send has ended.  So both together are at most the sends in flight, and
are all of them exactly if no ack of theirs is still to run.  All the while the node goes on as
`Sender` says. -/
theorem report_adds_up (h : v.Reached) {early : Bool} (hs : v.sender.stage = .ended early) :
    let t := v.sender.stats
    t.issued = v.sends.length ∧ v.sender.answered = v.sends.length ∧
      t.issued ≤ v.sender.count ∧
      t.issued = t.accepted + t.inFlight + t.reconnects + t.rejected ∧
      t.reconnects + t.rejected ≤ 1 ∧ (t.reconnects + t.rejected = 1 ↔ v.BrokeOff) ∧
      (early = true ↔ v.BrokeOff) ∧
      t.inFlight = v.inFlight.length ∧
      v.sender.acked = v.inFlight.countP (fun k => (v.told? k).any fun r => r.isOk) ∧
      v.sender.failed = v.inFlight.countP (fun k => (v.told? k).any fun r => !r.isOk) ∧
      v.sender.acked + v.sender.failed ≤ t.inFlight ∧
      (v.sender.acked + v.sender.failed = t.inFlight ↔ ∀ k ∈ v.inFlight, v.told? k ≠ none) ∧
      (∀ k r, v.told? k = some r → k ∈ v.inFlight ∧
        ∃ (c : ClientSend) (n : Nat), v.sends[k]? = some c ∧ c.Has v.run n ∧
          v.run.session.board.result? n = some r) ∧
      (∀ k ∈ v.inFlight, v.told? k = none →
        ∃ (c : ClientSend) (n : Nat), v.sends[k]? = some c ∧ c.Has v.run n ∧
          (v.run.session.board.result? n = none ∧
              v.run.session.board.callback? n = some (.watch k) ∨
            ∃ r, v.run.session.board.result? n = some r ∧
              (⟨n, .watch k, r⟩ : Firing) ∈ v.run.fired.drop v.heard)) ∧
      ∀ u : Dispatch, u.Reached → Steps u v → u.Follows := by
  intro t
  have hsound := h.sound
  obtain ⟨hissued, hread⟩ := hsound.stats_ended hs
  have haccepted : t.accepted = v.tally .accepted := hread .accepted nofun
  have hinFlight : t.inFlight = v.tally .inFlight := hread .inFlight nofun
  have hreconnects : t.reconnects = v.tally .reconnects := hread .reconnects nofun
  have hrejected : t.rejected = v.tally .rejected := hread .rejected nofun
  obtain ⟨hstops, hearly⟩ := hsound.stops_ended hs
  have hshape := hsound.shape
  rw [hs] at hshape
  obtain ⟨hanswered, hcount, hover, -⟩ := hshape.of_ended
  have hcounts (p : SendResult → Bool) :
      v.inFlight.countP (fun k => (v.told? k).any p) = v.told.countP fun x => p x.2 :=
    countP_lookup p hsound.nodup_told v.nodup_inFlight
      fun x hx => (hsound.of_mem_told hover (k := x.1) (r := x.2) hx).1
  have hboth : v.sender.acked + v.sender.failed =
      v.inFlight.countP fun k => (v.told? k).isSome := by
    rw [v.acked_eq, v.failed_eq, ← hcounts (·.isOk), ← hcounts (!·.isOk)]
    refine (countP_eq_add fun k _ => ?_).symm
    rcases v.told? k with - | (e | -) <;> rfl
  have hone : t.reconnects + t.rejected = early.toNat := by
    rw [hreconnects, hrejected]
    exact hstops
  have hbalance : t.issued = t.accepted + t.inFlight + t.reconnects + t.rejected := by
    rw [haccepted, hinFlight, hreconnects, hrejected]
    exact hissued.trans (length_eq_tallies v.sends hover)
  have hlength : t.inFlight = v.inFlight.length := hinFlight.trans v.length_inFlight.symm
  refine ⟨hissued, hanswered, ?_, hbalance, ?_, ?_, hearly, hlength, ?_, ?_, ?_, ?_,
    fun k r hk => ?_, fun k hk ht => hsound.of_told?_eq_none hk ht,
    fun u hu _ => hu.sound.follows⟩
  · rw [hissued, ← hanswered]
    exact hcount
  · rw [hone]
    exact Bool.toNat_le early
  · rw [hone, ← hearly]
    exact Bool.toNat_eq_one
  · rw [v.acked_eq, hcounts]
  · rw [v.failed_eq, hcounts]
  · rw [hboth, hlength]
    exact List.countP_le_length
  · rw [hboth, hlength, List.countP_eq_length]
    simp only [Option.isSome_iff_ne_none]
  · obtain ⟨before, after, hsplit, -⟩ := List.lookup_eq_some_iff.1 hk
    refine hsound.of_mem_told hover ?_
    rw [hsplit]
    exact List.mem_append_right _ List.mem_cons_self

/-- A node with three messages to send.  The first is sent, and its ack runs; the second waits to
be sent when the peer ends the stream, so that the third finds the session closed, and the node
closes its client by force. -/
def cutShort : Dispatch :=
  (start (.start "1" none {} default) 3 []).after
    [.node, .node, .node, .node, .session (.look 0), .session (.enqueue 0), .node, .node, .node,
      .session .write, .session (.put 6), .session .write, .hear,
      .node, .node, .node, .node, .session (.look 1), .session (.enqueue 1), .node, .node, .node,
      .session .read, .session .read, .session .atEnd, .session .read,
      .node, .node, .node, .node, .session (.look 2), .node, .node, .node, .node, .node,
      .node, .node, .node, .node, .session (.closeStep 0), .session (.closeStep 0),
      .session (.closeStep 0), .node]

/-- Its report shows two sends in flight and one of them acked: the ack of the other is still to
run. -/
theorem cutShort_adds_up :
    cutShort.sender.stage = .ended true ∧ cutShort.sender.stats = ⟨3, 0, 2, 1, 0⟩ ∧
      cutShort.sender.acked = 1 ∧ cutShort.sender.failed = 0 ∧ cutShort.BrokeOff ∧
      ¬ ∀ k ∈ cutShort.inFlight, cutShort.told? k ≠ none := by
  have hreached : cutShort.Reached := ⟨_, .start (.start _ _ _ _) .refl _ _, steps_after _ _⟩
  have hended : cutShort.sender.stage = .ended true := by rfl
  have hstats : cutShort.sender.stats = ⟨3, 0, 2, 1, 0⟩ := by decide +kernel
  have hacked : cutShort.sender.acked = 1 := by decide +kernel
  have hfailed : cutShort.sender.failed = 0 := by decide +kernel
  obtain ⟨-, -, -, -, -, -, hbroke, -, -, -, -, hall, -⟩ := report_adds_up hreached hended
  refine ⟨hended, hstats, hacked, hfailed, hbroke.1 rfl, fun hrun => ?_⟩
  have hsum := hall.2 hrun
  rw [hstats, hacked, hfailed] at hsum
  exact absurd hsum (by decide)

end Dispatch

end PeerLink
