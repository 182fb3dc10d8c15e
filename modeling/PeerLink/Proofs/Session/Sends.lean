import PeerLink.Proofs.Session.Ledger

/-!
# What becomes of a send

A send ends in one of three ways that leave it an operation: it is refused
before it comes to the queue, the queue takes its request, or the queue hands
the request back.  `Run.SendEffect` lists what a step can do to the sends of a
run, and `Run.Sends` is what holds of them at every moment: an operation that
was returned is on the board, belongs to no other send, and stands for one of
the three.

Together with the ledger this settles what has become of every send when the
writer has ended.

## Main results

* `Run.Reached.sends` — the invariant of the sends.
* `Run.close_settles_every_send` — no send that was taken on is lost when the
  session closes.
-/

namespace PeerLink.Run

variable {w w' : Run}

/-! ## Steps of sends -/

/-- A step that is not a step of a send. -/
structure KeepsSends (w w' : Run) : Prop where
  sends : w'.sends = w.sends
  entered : w'.entered = w.entered
  handedBack : w'.handedBack = w.handedBack
  config : w'.session.config = w.session.config
  size : w'.session.board.size = w.session.board.size

/-- What a send finds that the session refuses: its operation has ended. -/
def refuse (w : Run) (i : Nat) (p : Payload) (e : TransportError)
    (journal : List LogEntry) : Run :=
  (w.setSession .caller { w.session with
    board := w.session.board.push (.resolved (.error e))
    journal := journal }).setStage i p (.returned w.session.board.size)

/-- What a step does to the sends of a run. -/
inductive SendEffect (w w' : Run) : Prop
  | aside (h : KeepsSends w w')
  | begins (p : Payload) (h : w' = { w with sends := w.sends ++ [{ payload := p }] })
  | refuses {i : Nat} {p : Payload} (e : TransportError) (journal : List LogEntry)
      (hi : w.sends[i]? = some ⟨p, .looking⟩) (h : w' = w.refuse i p e journal)
  | frames {i : Nat} {p : Payload} {bytes : Bytes}
      (hi : w.sends[i]? = some ⟨p, .looking⟩)
      (he : p.encode w.session.frameLimit = .framed bytes)
      (h : w' = w.setStage i p (.queueing bytes))
  | aborts {i : Nat} {p : Payload} (hi : w.sends[i]? = some ⟨p, .looking⟩)
      (h : w' = w.setStage i p .aborted)
  | turnsAway {i : Nat} {p : Payload} {bytes : Bytes}
      (hi : w.sends[i]? = some ⟨p, .queueing bytes⟩) (h : w' = w.turnAway i p bytes)
  | admits {i : Nat} {p : Payload} {bytes : Bytes}
      (hi : w.sends[i]? = some ⟨p, .queueing bytes⟩) (h : w' = w.lineUp i p bytes)

private theorem keepsSends_write (h : w.write = some w') : KeepsSends w w' := by
  obtain ⟨s, firing, hgoes, rfl⟩ := writerGoes_of_write h
  cases hgoes with
  | closes hw => constructor <;> simp [setSession]
  | completes journal hw | reports reason hw | givesUp hw hq =>
      exact ⟨rfl, rfl, rfl, rfl, Board.size_complete _ _ _⟩
  | _ => exact ⟨rfl, rfl, rfl, rfl, rfl⟩

private theorem keepsSends_read (h : w.read = some w') : KeepsSends w w' := by
  obtain ⟨s, hgoes, rfl⟩ := readerGoes_of_read h
  cases hgoes with
  | closes hr => constructor <;> simp [setSession]
  | _ => exact ⟨rfl, rfl, rfl, rfl, rfl⟩

private theorem keepsSends_answerRead {answer : ReadAnswer} {bytes : Bytes}
    {stop : Option ReaderStop} (h : w.answerRead answer bytes stop = some w') :
    KeepsSends w w' := by
  obtain ⟨-, rfl⟩ := reading_of_answerRead h
  cases answer <;> exact ⟨rfl, rfl, rfl, rfl, rfl⟩

private theorem keepsSends_outside (call : OutsideCall) :
    KeepsSends w (w.setSession .caller (w.session.outside call)) := by
  cases call with
  | watch n ack => exact ⟨rfl, rfl, rfl, rfl, (Board.sameOutcomes_onComplete _ n ack).size⟩
  | unwatch n => exact ⟨rfl, rfl, rfl, rfl, (Board.sameOutcomes_takeCallback _ n).size⟩
  | _ => exact ⟨rfl, rfl, rfl, rfl, rfl⟩

theorem sendEffect_of_step {e : RunEvent} (h : w.step? e = some w') : SendEffect w w' := by
  cases e with
  | send p => exact .begins p (Option.some.inj h).symm
  | look i =>
      obtain ⟨p, hi, ⟨e, journal, -, hw'⟩ | ⟨bytes, he, hw'⟩ | hw'⟩ := looking_of_look h
      · exact .refuses e journal hi hw'
      · exact .frames hi he hw'
      · exact .aborts hi hw'
  | enqueue i =>
      obtain ⟨p, bytes, hi, ⟨-, hw'⟩ | ⟨-, hw'⟩⟩ := queueing_of_enqueue h
      · exact .turnsAway hi hw'
      · exact .admits hi hw'
  | close =>
      obtain rfl := Option.some.inj h
      exact .aside ⟨rfl, rfl, rfl, rfl, rfl⟩
  | closeStep i =>
      obtain ⟨stage, -, rfl⟩ := stage_of_closeStep h
      exact .aside (by constructor <;> simp [setSession])
  | write => exact .aside (keepsSends_write h)
  | take =>
      obtain ⟨r, queue, -, -, rfl⟩ := idle_of_take h
      exact .aside ⟨rfl, rfl, rfl, rfl, rfl⟩
  | put count =>
      obtain ⟨r, rest, flushed, -, -, -, rfl⟩ := writing_of_put h
      exact .aside ⟨rfl, rfl, rfl, rfl, rfl⟩
  | failWrite fault =>
      obtain ⟨r, rest, flushed, journal, -, rfl⟩ := writing_of_failWrite h
      exact .aside ⟨rfl, rfl, rfl, rfl, rfl⟩
  | read => exact .aside (keepsSends_read h)
  | got bytes =>
      simp only [step?] at h
      split at h
      · cases h
      · exact .aside (keepsSends_answerRead h)
  | atEnd => exact .aside (keepsSends_answerRead h)
  | failRead fault => exact .aside (keepsSends_answerRead h)
  | outside call =>
      obtain rfl := Option.some.inj h
      exact .aside (keepsSends_outside call)
  | tick now =>
      obtain rfl := Option.some.inj h
      exact .aside ⟨rfl, rfl, rfl, rfl, rfl⟩

/-- A session keeps the settings it was started with. -/
theorem config_of_step {e : RunEvent} (h : w.step? e = some w') :
    w'.session.config = w.session.config := by
  cases sendEffect_of_step h with
  | aside h => exact h.config
  | _ => subst_vars; rfl

theorem frameLimit_of_step {e : RunEvent} (h : w.step? e = some w') :
    w'.session.frameLimit = w.session.frameLimit := by
  unfold Session.frameLimit
  rw [config_of_step h]

theorem size_of_step {e : RunEvent} (h : w.step? e = some w') :
    w.session.board.size ≤ w'.session.board.size := by
  cases sendEffect_of_step h with
  | aside h => exact Nat.le_of_eq h.size.symm
  | begins p hw' | frames hi he hw' | aborts hi hw' =>
      subst hw'
      exact Nat.le_refl _
  | refuses e journal hi hw' | admits hi hw' =>
      subst hw'
      exact Nat.le_trans (Nat.le_succ _) (Nat.le_of_eq (Board.size_push _ _).symm)
  | turnsAway hi hw' =>
      subst hw'
      refine Nat.le_trans (Nat.le_succ _) (Nat.le_of_eq ?_)
      exact ((Board.size_complete _ _ _).trans (Board.size_push _ _)).symm

/-- How a send that was begun stands after another step. -/
structure GoesOn (w w' : Run) (i : Nat) (p : Payload) (stage stage' : SendingStage) :
    Prop where
  there : w'.sends[i]? = some ⟨p, stage'⟩
  /-- A send that has returned stays so. -/
  stays : ∀ n, stage = .returned n → stage' = .returned n
  /-- One that returns has a new operation. -/
  fresh : ∀ n, stage' = .returned n → stage = .returned n ∨ w.session.board.size ≤ n

private theorem goesOn_setStage {i j : Nat} {p q : Payload} {stage new : SendingStage}
    (hj : w.sends[j]? = some ⟨q, stage⟩) {old : SendingStage}
    (hi : w.sends[i]? = some ⟨p, old⟩) (hold : ∀ n, old ≠ .returned n)
    (hsends : w'.sends = w.sends.set i ⟨p, new⟩)
    (hnew : ∀ n, new = .returned n → w.session.board.size ≤ n) :
    ∃ stage', GoesOn w w' j q stage stage' := by
  by_cases hij : i = j
  · subst hij
    rw [hi] at hj
    obtain ⟨rfl, rfl⟩ := Sending.mk.inj (Option.some.inj hj)
    refine ⟨new, ?_, fun n hn => absurd hn (hold n), fun n hn => .inr (hnew n hn)⟩
    rw [hsends, List.getElem?_set_self (List.getElem?_eq_some_iff.1 hi).1]
  · refine ⟨stage, ?_, fun n hn => hn, fun n hn => .inl hn⟩
    rw [hsends, List.getElem?_set_ne hij, hj]

theorem goesOn_of_step {e : RunEvent} (h : w.step? e = some w') {j : Nat} {q : Payload}
    {stage : SendingStage} (hj : w.sends[j]? = some ⟨q, stage⟩) :
    ∃ stage', GoesOn w w' j q stage stage' := by
  cases sendEffect_of_step h with
  | aside h =>
      refine ⟨stage, ?_, fun n hn => hn, fun n hn => .inl hn⟩
      rw [h.sends, hj]
  | begins p hw' =>
      subst hw'
      refine ⟨stage, ?_, fun n hn => hn, fun n hn => .inl hn⟩
      exact (List.getElem?_append_left (List.getElem?_eq_some_iff.1 hj).1).trans hj
  | refuses e journal hi hw' =>
      subst hw'
      refine goesOn_setStage hj hi nofun rfl ?_
      rintro n ⟨⟩
      exact Nat.le_refl _
  | frames hi he hw' =>
      subst hw'
      exact goesOn_setStage hj hi nofun rfl nofun
  | aborts hi hw' =>
      subst hw'
      exact goesOn_setStage hj hi nofun rfl nofun
  | turnsAway hi hw' =>
      subst hw'
      refine goesOn_setStage hj hi nofun rfl ?_
      rintro n ⟨⟩
      exact Nat.le_refl _
  | admits hi hw' =>
      subst hw'
      refine goesOn_setStage hj hi nofun rfl ?_
      rintro n ⟨⟩
      exact Nat.le_refl _

theorem begun_of_steps (h : Steps w w') {i : Nat} (hi : i < w.sends.length) :
    i < w'.sends.length := by
  induction h with
  | refl => exact hi
  | tail _ he ih =>
      obtain ⟨e, he⟩ := he
      obtain ⟨stage', hgoes⟩ := goesOn_of_step he (List.getElem?_eq_getElem ih)
      exact (List.getElem?_eq_some_iff.1 hgoes.there).1

/-- What the queue has taken stays in its place. -/
theorem entered_of_step {e : RunEvent} (h : w.step? e = some w') :
    w.entered <+: w'.entered := by
  cases sendEffect_of_step h with
  | aside h =>
      have hsame : w'.entered = w.entered := h.entered
      exact ⟨[], by rw [hsame, List.append_nil]⟩
  | admits hi hw' =>
      subst hw'
      exact List.prefix_append _ _
  | begins p hw' | refuses e journal hi hw' | frames hi he hw' | aborts hi hw'
  | turnsAway hi hw' =>
      subst hw'
      exact List.prefix_rfl

/-- A session never allows more than the wire does. -/
theorem Reached.frameLimit_le (h : w.Reached) : w.session.frameLimit ≤ Frame.wireLimit := by
  refine h.invariant (P := fun w => w.session.frameLimit ≤ Frame.wireLimit) ?_ ?_
  · rintro _ ⟨label, remote, config, now⟩
    obtain ⟨journal, hsession⟩ := session_start label remote config now
    rw [hsession]
    exact Nat.min_le_right _ _
  · rintro w w' _ ⟨e, he⟩ hle
    rw [frameLimit_of_step he]
    exact hle

/-! ## The invariant -/

/-- The requests that were handed to the queue, whether it took them or not. -/
def handovers (w : Run) : List Handover := w.entered ++ w.handedBack

/-- What holds of the sends of a run. -/
structure Sends (w : Run) : Prop where
  /-- A send that is on its way to the queue carries the frame of its payload. -/
  framing : ∀ (i : Nat) (p : Payload) (bytes : Bytes),
    w.sends[i]? = some ⟨p, .queueing bytes⟩ →
      p.encode w.session.frameLimit = .framed bytes
  /-- So does one that came there. -/
  framed : ∀ x ∈ w.handovers,
    x.payload.encode w.session.frameLimit = .framed x.request.bytes
  known : ∀ x ∈ w.handovers, x.request.operation < w.session.board.size
  distinct : (w.handovers.map fun x => x.request.operation).Nodup
  /-- An operation that was returned is on the board. -/
  returned : ∀ (i : Nat) (p : Payload) (n : Nat), w.sends[i]? = some ⟨p, .returned n⟩ →
    n < w.session.board.size
  /-- It has failed, or its send came to the queue. -/
  answered : ∀ (i : Nat) (p : Payload) (n : Nat), w.sends[i]? = some ⟨p, .returned n⟩ →
    (∃ e, w.session.board.result? n = some (.error e)) ∨
      ∃ x ∈ w.handovers, x.payload = p ∧ x.request.operation = n
  /-- It belongs to one send. -/
  owned : ∀ (i j : Nat) (p q : Payload) (n : Nat), w.sends[i]? = some ⟨p, .returned n⟩ →
    w.sends[j]? = some ⟨q, .returned n⟩ → i = j

/-- A step in which no send returns and nothing is handed to the queue. -/
private theorem Sends.keep (h : Sends w)
    (hlimit : w'.session.frameLimit = w.session.frameLimit)
    (hext : w.session.board.Extends w'.session.board)
    (hsize : w'.session.board.size = w.session.board.size)
    (hhandovers : w'.handovers = w.handovers)
    (hframing : ∀ (j : Nat) (q : Payload) (bytes : Bytes),
      w'.sends[j]? = some ⟨q, .queueing bytes⟩ →
        w.sends[j]? = some ⟨q, .queueing bytes⟩ ∨
          q.encode w.session.frameLimit = .framed bytes)
    (hreturned : ∀ (j : Nat) (q : Payload) (n : Nat),
      w'.sends[j]? = some ⟨q, .returned n⟩ → w.sends[j]? = some ⟨q, .returned n⟩) :
    Sends w' where
  framing j q bytes hj := by
    rw [hlimit]
    rcases hframing j q bytes hj with hold | hnew
    · exact h.framing j q bytes hold
    · exact hnew
  framed x hx := by
    rw [hhandovers] at hx
    rw [hlimit]
    exact h.framed x hx
  known x hx := by
    rw [hhandovers] at hx
    rw [hsize]
    exact h.known x hx
  distinct := by
    rw [hhandovers]
    exact h.distinct
  returned j q n hj := by
    rw [hsize]
    exact h.returned j q n (hreturned j q n hj)
  answered j q n hj := by
    rw [hhandovers]
    rcases h.answered j q n (hreturned j q n hj) with ⟨e, he⟩ | hx
    · exact .inl ⟨e, hext n _ he⟩
    · exact .inr hx
  owned j k q r n hj hk := h.owned j k q r n (hreturned j q n hj) (hreturned k r n hk)

/-- A step in which a send returns a new operation, after it failed or handed
its request to the queue. -/
private theorem Sends.answer (h : Sends w) {i : Nat} {p : Payload} (new : List Handover)
    (hlimit : w'.session.frameLimit = w.session.frameLimit)
    (hext : w.session.board.Extends w'.session.board)
    (hsize : w'.session.board.size = w.session.board.size + 1)
    (hsends : w'.sends = w.sends.set i ⟨p, .returned w.session.board.size⟩)
    (hhandovers : List.Perm w'.handovers (w.handovers ++ new))
    (hnew : ∀ x ∈ new, x.request.operation = w.session.board.size ∧
      x.payload.encode w.session.frameLimit = .framed x.request.bytes)
    (hone : new.length ≤ 1)
    (hanswered : (∃ e, w'.session.board.result? w.session.board.size = some (.error e)) ∨
      ∃ x ∈ new, x.payload = p) : Sends w' where
  framing j q bytes hj := by
    rw [hlimit]
    rw [hsends] at hj
    rcases getElem?_set_cases hj with ⟨-, heq⟩ | ⟨-, hold⟩
    · cases heq
    · exact h.framing j q bytes hold
  framed x hx := by
    rw [hlimit]
    rcases List.mem_append.1 (hhandovers.mem_iff.1 hx) with hold | hin
    · exact h.framed x hold
    · exact (hnew x hin).2
  known x hx := by
    rw [hsize]
    rcases List.mem_append.1 (hhandovers.mem_iff.1 hx) with hold | hin
    · have := h.known x hold
      omega
    · rw [(hnew x hin).1]
      omega
  distinct := by
    have hperm := hhandovers.map fun x => x.request.operation
    rw [hperm.nodup_iff, List.map_append]
    refine List.nodup_append.2 ⟨h.distinct, ?_, ?_⟩
    · match new, hone with
      | [], _ => exact List.nodup_nil
      | [x], _ => exact List.nodup_cons.2 ⟨List.not_mem_nil, List.nodup_nil⟩
    · intro n hn m hm heq
      obtain ⟨x, hx, rfl⟩ := List.mem_map.1 hn
      obtain ⟨y, hy, rfl⟩ := List.mem_map.1 hm
      have := h.known x hx
      rw [heq, (hnew y hy).1] at this
      omega
  returned j q n hj := by
    rw [hsize]
    rw [hsends] at hj
    rcases getElem?_set_cases hj with ⟨-, heq⟩ | ⟨-, hold⟩
    · cases heq
      omega
    · have := h.returned j q n hold
      omega
  answered j q n hj := by
    rw [hsends] at hj
    rcases getElem?_set_cases hj with ⟨-, heq⟩ | ⟨-, hold⟩
    · cases heq
      rcases hanswered with hfailed | ⟨x, hx, hpayload⟩
      · exact .inl hfailed
      · refine .inr ⟨x, ?_, hpayload, (hnew x hx).1⟩
        exact hhandovers.mem_iff.2 (List.mem_append_right _ hx)
    · rcases h.answered j q n hold with ⟨e, he⟩ | ⟨x, hx, hpayload⟩
      · exact .inl ⟨e, hext n _ he⟩
      · exact .inr ⟨x, hhandovers.mem_iff.2 (List.mem_append_left _ hx), hpayload⟩
  owned j k q r n hj hk := by
    rw [hsends] at hj hk
    -- the new operation has a number that no earlier one has
    rcases getElem?_set_cases hj with ⟨hji, hnew⟩ | ⟨-, hold⟩
    · cases hnew
      rcases getElem?_set_cases hk with ⟨hki, -⟩ | ⟨-, hold⟩
      · rw [hji, hki]
      · exact absurd (h.returned k r _ hold) (Nat.lt_irrefl _)
    · rcases getElem?_set_cases hk with ⟨-, hnew⟩ | ⟨-, hold'⟩
      · cases hnew
        exact absurd (h.returned j q _ hold) (Nat.lt_irrefl _)
      · exact h.owned j k q r n hold hold'

/-- A step in which a send goes on without returning. -/
private theorem Sends.restage (h : Sends w) {i : Nat} {p : Payload} {stage : SendingStage}
    (hw' : w' = w.setStage i p stage)
    (hframing : ∀ bytes, stage = .queueing bytes →
      p.encode w.session.frameLimit = .framed bytes)
    (hreturned : ∀ n, stage ≠ .returned n) : Sends w' := by
  subst hw'
  refine h.keep rfl (.refl _) rfl rfl ?_ ?_
  · intro j q bytes hj
    rcases getElem?_set_cases hj with ⟨-, heq⟩ | ⟨-, hold⟩
    · obtain ⟨rfl, hstage⟩ := Sending.mk.inj heq
      exact .inr (hframing bytes hstage.symm)
    · exact .inl hold
  · intro j q n hj
    rcases getElem?_set_cases hj with ⟨-, heq⟩ | ⟨-, hold⟩
    · exact absurd (Sending.mk.inj heq).2.symm (hreturned n)
    · exact hold

theorem sends_of_step {e : RunEvent} (h : Sends w) (he : w.step? e = some w') :
    Sends w' := by
  have hlimit := frameLimit_of_step he
  have hext := extends_of_step he
  cases sendEffect_of_step he with
  | aside hkeep =>
      refine h.keep hlimit hext hkeep.size ?_ ?_ ?_
      · rw [handovers, hkeep.entered, hkeep.handedBack, handovers]
      · intro j q bytes hj
        rw [hkeep.sends] at hj
        exact .inl hj
      · intro j q n hj
        rw [hkeep.sends] at hj
        exact hj
  | begins p hw' =>
      subst hw'
      have hsends : ∀ {j : Nat} {y : Sending}, (w.sends ++ [{ payload := p }])[j]? = some y →
          w.sends[j]? = some y ∨ y = { payload := p } := by
        intro j y hj
        rcases getElem?_concat_cases hj with hold | ⟨-, hnew⟩
        · exact .inl hold
        · exact .inr hnew
      refine h.keep hlimit hext rfl rfl ?_ ?_
      · intro j q bytes hj
        rcases hsends hj with hold | hnew
        · exact .inl hold
        · cases hnew
      · intro j q n hj
        rcases hsends hj with hold | hnew
        · exact hold
        · cases hnew
  | refuses e journal hi hw' =>
      subst hw'
      refine h.answer [] hlimit hext (Board.size_push _ _) rfl ?_ nofun ?_ ?_
      · rw [List.append_nil]
        exact .refl _
      · exact Nat.zero_le 1
      · left
        refine ⟨e, ?_⟩
        exact (Board.result?_push _ _ _).trans (if_pos rfl)
  | frames hi hencode hw' =>
      refine h.restage hw' ?_ ?_
      · intro bytes heq
        obtain rfl := SendingStage.queueing.inj heq
        exact hencode
      · intro n hn
        cases hn
  | aborts hi hw' =>
      refine h.restage hw' ?_ ?_
      · intro bytes hn
        cases hn
      · intro n hn
        cases hn
  | turnsAway hi hw' =>
      rename_i i p bytes
      subst hw'
      refine h.answer [⟨p, ⟨bytes, w.session.board.size⟩⟩] hlimit hext ?_ rfl ?_ ?_
        ?_ (.inr ⟨_, List.mem_singleton.2 rfl, rfl⟩)
      · exact (Board.size_complete _ _ _).trans (Board.size_push _ _)
      · rw [handovers, handovers, List.append_assoc]
        exact .refl _
      · intro x hx
        obtain rfl := List.mem_singleton.1 hx
        exact ⟨rfl, h.framing i p bytes hi⟩
      · exact Nat.le_refl 1
  | admits hi hw' =>
      rename_i i p bytes
      subst hw'
      refine h.answer [⟨p, ⟨bytes, w.session.board.size⟩⟩] hlimit hext
        (Board.size_push _ _) rfl ?_ ?_ ?_ (.inr ⟨_, List.mem_singleton.2 rfl, rfl⟩)
      · rw [handovers, handovers, List.append_assoc]
        show List.Perm (w.entered ++ [_] ++ w.handedBack) _
        rw [List.append_assoc]
        exact List.Perm.append_left _ List.perm_append_comm
      · intro x hx
        obtain rfl := List.mem_singleton.1 hx
        exact ⟨rfl, h.framing i p bytes hi⟩
      · exact Nat.le_refl 1

theorem Reached.sends (h : w.Reached) : Sends w := by
  refine h.invariant (P := Sends) ?_ ?_
  · rintro _ ⟨label, remote, config, now⟩
    exact ⟨nofun, nofun, nofun, List.nodup_nil, nofun, nofun, nofun⟩
  · rintro w w' _ ⟨e, he⟩ hsends
    exact sends_of_step hsends he

/-! ## When the writer has ended -/

/-- The result that a request is to have once the writer has ended. -/
def fate (w : Run) (r : WriteRequest) : SendResult :=
  if r ∈ w.written then .succeeded
  else match w.broken with
    | some b => if b.request = r then .error (.io b.fault) else .error .sessionClosed
    | none => .error .sessionClosed

/-- A writer that has ended has nothing left to do. -/
theorem waiting_of_ended {givenUp : List WriteRequest} (l : Ledger w givenUp)
    (hend : w.session.writer = .ended) :
    w.work.waiting = [] ∧ w.work.lost = w.broken.toList := by
  have hqueue := (l.law hend).2.1
  constructor
  · rw [Work.waiting, show w.work.writer = _ from hend]
    exact hqueue
  · rw [Work.lost, show w.work.writer = _ from hend]
    rfl

/-- Every request that was handed over has met its fate. -/
theorem result_eq_fate {givenUp : List WriteRequest} (l : Ledger w givenUp)
    (hend : w.session.writer = .ended) {x : Handover} (hx : x ∈ w.handovers) :
    w.session.board.result? x.request.operation = some (w.fate x.request) := by
  obtain ⟨hwaiting, hlost⟩ := waiting_of_ended l hend
  have hbroken : ∀ b, w.broken = some b →
      w.session.board.result? b.request.operation = some (.error (.io b.fault)) := by
    intro b hb
    refine l.placed.result_of_lost (b := b) ?_
    rw [hlost, hb]
    exact List.mem_singleton.2 rfl
  have hplace : x.request ∈ w.written ∨ (∃ b, w.broken = some b ∧ b.request = x.request) ∨
      w.session.board.result? x.request.operation = some (.error .sessionClosed) := by
    rcases List.mem_append.1 hx with hin | hback
    · have hmem : x.request ∈ w.work.entered.map Handover.request :=
        List.mem_map_of_mem hin
      rw [l.placed.order, hwaiting, hlost, List.append_nil] at hmem
      rcases List.mem_append.1 hmem with hmem | hgiven
      · rcases List.mem_append.1 hmem with hwritten | hbad
        · exact .inl hwritten
        · obtain ⟨b, hb, hreq⟩ := List.mem_map.1 hbad
          exact .inr (.inl ⟨b, Option.mem_toList.1 hb, hreq⟩)
      · exact .inr (.inr (l.placed.result_of_givenUp hgiven))
    · exact .inr (.inr (l.placed.result_of_handedBack hback))
  unfold fate
  by_cases hwritten : x.request ∈ w.written
  · rw [if_pos hwritten]
    exact l.placed.result_of_written hwritten
  · rw [if_neg hwritten]
    rcases hplace with hin | ⟨b, hb, hreq⟩ | hclosed
    · exact absurd hin hwritten
    · rw [hb, ← hreq]
      simp only [if_true]
      exact hbroken b hb
    · cases hb : w.broken with
      | none => exact hclosed
      | some b =>
          have hne : b.request ≠ x.request := by
            intro heq
            have hio := hbroken b hb
            rw [heq, hclosed] at hio
            cases hio
          simp only [if_neg hne]
          exact hclosed

theorem fate_ne_canceled (w : Run) (r : WriteRequest) :
    w.fate r ≠ .error .canceled := by
  unfold fate
  split
  · nofun
  · split
    · split <;> nofun
    · nofun

/-- If a caller closed the session and no write failed, everything that entered
the queue was written. -/
theorem written_of_caller {givenUp : List WriteRequest} (l : Ledger w givenUp)
    (hend : w.session.writer = .ended) (hwinner : w.winner = some .caller)
    (hbroken : w.broken = none) {x : Handover} (hx : x ∈ w.entered) :
    x.request ∈ w.written := by
  obtain ⟨hwaiting, hlost⟩ := waiting_of_ended l hend
  have hgiven : givenUp = [] := ((l.law hend).2.2 hbroken).2 hwinner
  have hmem : x.request ∈ w.work.entered.map Handover.request := List.mem_map_of_mem hx
  rw [l.placed.order, hwaiting, hlost, hbroken, hgiven] at hmem
  have hwritten : x.request ∈ w.work.written := by simpa using hmem
  exact hwritten

/-- Once the writer has ended, every operation that a send has returned has
ended once, and none of those that came to the queue was canceled.  If a
caller's close took effect and no write failed, all that the queue took has been
written; otherwise each request has its own fate. -/
theorem close_settles_every_send (h : w.Reached) (hend : w.session.writer = .ended) :
    (∀ (i : Nat) (p : Payload) (n : Nat), w.sends[i]? = some ⟨p, .returned n⟩ →
      ∃ r, w.session.board.result? n = some r ∧ Board.endingsOf w.endings n = [r]) ∧
    (∀ x ∈ w.handovers,
      w.session.board.result? x.request.operation ≠ some (.error .canceled)) ∧
    (w.winner = some .caller → w.broken = none → ∀ x ∈ w.entered,
      w.session.board.result? x.request.operation = some .succeeded) ∧
    (w.winner ≠ some .caller ∨ w.broken ≠ none → ∀ x ∈ w.handovers,
      w.session.board.result? x.request.operation = some (w.fate x.request)) := by
  obtain ⟨givenUp, l⟩ := h.ledger
  have hbooks := l.placed.books
  rw [(waiting_of_ended l hend).1] at hbooks
  refine ⟨?_, ?_, ?_, ?_⟩
  · intro i p n hi
    obtain ⟨r, hr⟩ := hbooks.all_ended (h.sends.returned i p n hi)
    refine ⟨r, hr, ?_⟩
    rw [h.recorded n, show w.session.board.result? n = some r from hr]
    rfl
  · intro x hx hcanceled
    rw [result_eq_fate l hend hx] at hcanceled
    exact fate_ne_canceled w x.request (Option.some.inj hcanceled)
  · intro hwinner hbroken x hx
    exact l.placed.result_of_written (written_of_caller l hend hwinner hbroken hx)
  · intro _ x hx
    exact result_eq_fate l hend hx

/-- Four sends, of which the second one's write fails after a byte; the last one
was framed before that and comes to a closed queue. -/
def brokenRun : Run :=
  (start "1" none {} default).after <|
    [.send (.buffer [1]), .look 0, .enqueue 0, .send (.buffer [2, 2]), .look 1, .enqueue 1,
      .send (.buffer [3]), .look 2, .enqueue 2, .send (.buffer [4]), .look 3,
      .write, .put 1, .write, .take, .put 1, .failWrite (.bare .brokenPipe)] ++
    List.replicate 9 .write ++ [.enqueue 3]

theorem brokenRun_settles :
    brokenRun.session.writer = .ended ∧ brokenRun.handovers.length = 4 ∧
      ∀ x ∈ brokenRun.handovers, brokenRun.session.board.result? x.request.operation =
        some (brokenRun.fate x.request) := by
  have hend : brokenRun.session.writer = .ended := by rfl
  have hbroken : brokenRun.broken ≠ none := by nofun
  have hreached : brokenRun.Reached := (Reached.start _ _ _ _).after _
  exact ⟨hend, rfl, (close_settles_every_send hreached hend).2.2.2 (.inr hbroken)⟩

end PeerLink.Run
