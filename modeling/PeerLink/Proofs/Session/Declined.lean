import PeerLink.Proofs.Session.FailedWrite
import PeerLink.Proofs.Session.WholeCalls
import PeerLink.Proofs.Session.Wire

/-!
# Sends that a session declines

A session declines a send when it is closed, when the buffer or the message is longer than its
limit, and when the writing of the message fails. It declines nothing else, and a send that is
declined leaves one more operation, which has failed, and nothing more: no request, no stamp, no
count.

A send looks at the session and hands its bytes over in two steps, between which others may go on.
Here it does both at once, in any session that some run has come to. That the queue is open when
the session is, is what the run contributes.

## Main results

* `Payload.encode_of_refused`, `Payload.exists_encode_eq_framed` — which payloads are refused,
  and with which failure.
* `Session.startSend_eq`, `Session.startSendBy_of_closed` — a send frames the payload while it
  looks at the session, and a closed session does not frame it.
* `Run.Reached.queueClosed_of_open` — an open session has an open queue.
* `Run.operation_of_steps` — what enters the queue later belongs to a later operation.
* `Run.declined_sends_change_nothing` — the outcomes of a send that is made at once.
-/

namespace PeerLink

/-! ## Payloads that are refused -/

/-- Writing the message leaves the length field in the buffer. -/
def Message.KeepsField (m : Message) : Prop := ∀ n, m.cut = some n → 4 ≤ n

/-- Framing the payload does not abort the caller. -/
def Payload.KeepsField : Payload → Prop
  | buffer _ => True
  | message m => m.KeepsField

/-- A session with this limit refuses the payload with a failure. -/
inductive Payload.Refused (limit : Nat) : Payload → TransportError → Prop
  | longBuffer {wire : Bytes} (h : limit < wire.length) :
      Refused limit (.buffer wire) (.frameTooLarge wire.length limit)
  | unwritten {m : Message} {e : TransportError} (h : m.failure = some e) :
      Refused limit (.message m) e
  | longMessage {m : Message} (hf : m.failure = none) (h : limit < m.draft.length) :
      Refused limit (.message m) (.frameTooLarge m.draft.length limit)

theorem Message.four_le_draft {m : Message} (h : m.KeepsField) : 4 ≤ m.draft.length := by
  unfold draft
  cases hc : m.cut with
  | none => simp
  | some n =>
      have hn := h n hc
      simp only [List.length_take, List.length_append, Bytes.length_ofNat]
      omega

variable {limit : Nat} {p : Payload} {e : TransportError}

theorem Payload.encode_of_refused (hlimit : limit ≤ Frame.wireLimit) (h : p.Refused limit e) :
    p.encode limit = .refused e := by
  have heffective : Frame.effectiveLimit limit = limit := Nat.min_eq_left hlimit
  cases h with
  | longBuffer h => exact if_pos h
  | unwritten h => simp only [encode, Message.encode, h]
  | longMessage hf h => simp only [encode, Message.encode, hf, heffective, if_pos h]

theorem Payload.exists_encode_eq_framed (hlimit : limit ≤ Frame.wireLimit)
    (hp : p.KeepsField) (h : ∀ e, ¬ p.Refused limit e) :
    ∃ bytes, p.encode limit = .framed bytes := by
  have heffective : Frame.effectiveLimit limit = limit := Nat.min_eq_left hlimit
  cases p with
  | buffer wire => exact ⟨wire, if_neg fun hlong => h _ (.longBuffer hlong)⟩
  | message m =>
      have hf : m.failure = none := by
        cases hf : m.failure with
        | none => rfl
        | some e => exact absurd (.unwritten hf) (h e)
      refine ⟨_, Message.encode_eq_framed_iff.2 ⟨hf, Message.four_le_draft hp, ?_, rfl⟩⟩
      rw [heffective]
      exact Nat.le_of_not_lt fun hlong => h _ (.longMessage hf hlong)

namespace Session

/-- A session declines a payload: it is closed, or it refuses the payload. -/
def Declines (s : Session) (limit : Nat) (p : Payload) (e : TransportError) : Prop :=
  if s.closed then e = .sessionClosed else p.Refused limit e

/-! ## Looking at the session -/

/-- A send looks at the session, where framing the payload is an action of the caller. -/
def startSendBy {m : Type → Type} [Monad m] (s : Session) (frame : m Encoding) : m SendStart :=
  if s.closed then pure (.ofRefusal s .sessionClosed)
  else do
    match ← frame with
    | .aborted => pure .aborted
    | .refused e =>
      pure (.ofRefusal (s.log .debug s!"Session {s.label} rejected send: {e.message}") e)
    | .framed bytes => pure (.framed bytes)

theorem startSend_eq (s : Session) (p : Payload) :
    s.startSend p = Id.run (s.startSendBy (pure (p.encode s.frameLimit))) := by
  unfold startSend startSendBy
  cases s.closed with
  | true => rfl
  | false => cases p.encode s.frameLimit <;> rfl

/-- A closed session does not frame the payload, whatever that would do. -/
theorem startSendBy_of_closed {m : Type → Type} [Monad m] {s : Session} (h : s.closed = true)
    (frame : m Encoding) : s.startSendBy frame = pure (.ofRefusal s .sessionClosed) :=
  if_pos h

theorem Declines.unique {s : Session} (hlimit : limit ≤ Frame.wireLimit) {e' : TransportError}
    (h : s.Declines limit p e) (h' : s.Declines limit p e') : e' = e := by
  unfold Declines at h h'
  split at h
  · rename_i hclosed
    rw [if_pos hclosed] at h'
    rw [h, h']
  · rename_i hopen
    rw [if_neg hopen] at h'
    have hsame := (Payload.encode_of_refused hlimit h').symm.trans
      (Payload.encode_of_refused hlimit h)
    exact Encoding.refused.inj hsame

/-- A send that is declined leaves an operation that has failed, and at most a line in the log. -/
theorem startSend_of_declines {s : Session} (hlimit : s.frameLimit ≤ Frame.wireLimit)
    {p : Payload} {e : TransportError} (h : s.Declines s.frameLimit p e) :
    ∃ journal, s.startSend p = .ended s.board.size
      { s with board := s.board.push (.resolved (.error e)), journal := journal } := by
  unfold Declines at h
  unfold startSend
  split at h
  · rename_i hclosed
    subst h
    exact ⟨s.journal, if_pos hclosed⟩
  · rename_i hopen
    rw [if_neg hopen, Payload.encode_of_refused hlimit h]
    exact ⟨_, rfl⟩

/-- A send that is not declined goes on to the queue. -/
theorem startSend_of_not_declines {s : Session} (hlimit : s.frameLimit ≤ Frame.wireLimit)
    {p : Payload} (hp : p.KeepsField) (h : ∀ e, ¬ s.Declines s.frameLimit p e) :
    s.closed = false ∧ ∃ bytes, p.encode s.frameLimit = .framed bytes ∧
      s.startSend p = .framed bytes := by
  have hopen : s.closed = false := by
    cases hc : s.closed with
    | false => rfl
    | true => exact absurd (by rw [Declines, if_pos hc]) (h .sessionClosed)
  have hrefused (e : TransportError) : ¬ p.Refused s.frameLimit e := by
    intro he
    refine h e ?_
    rw [Declines, if_neg (by simp [hopen])]
    exact he
  obtain ⟨bytes, hbytes⟩ := Payload.exists_encode_eq_framed hlimit hp hrefused
  refine ⟨hopen, bytes, hbytes, ?_⟩
  simp [startSend, hopen, hbytes]

end Session

namespace Run

variable {w w' : Run} {p : Payload} {e : RunEvent}

/-! ## The queue of an open session -/

theorem Reached.closed_of_queueClosed (h : w.Reached) :
    w.session.queueClosed = true → w.session.closed = true := by
  refine h.invariant
    (P := fun w => w.session.queueClosed = true → w.session.closed = true) ?_ ?_
  · rintro _ ⟨label, remote, config, now⟩ hq
    obtain ⟨journal, hsession⟩ := session_start label remote config now
    rw [hsession] at hq
    cases hq
  · rintro w w' (hw : w.Reached) ⟨e, he⟩ ih hq
    have hkeeps {k : Work} (hk : w'.work = k) (hsame : k.queueClosed = w.session.queueClosed) :
        w'.session.closed = true := by
      refine hw.closed_step he (ih ?_)
      rw [← hsame, ← hk]
      exact hq
    cases effect_of_step he with
    | moves phase closed hp hw' =>
        cases hp with
        | stops hphase =>
            obtain ⟨givenUp, l⟩ := hw.ledger
            obtain ⟨-, -, -, hmode⟩ := l.law hphase
            refine hw.closed_step he ?_
            by_cases hbroken : w.broken = none
            · exact hw.claims.closed_iff.2 (hw.claims.winner_ne_none (hmode hbroken))
            · rcases hw.closed_of_broken hbroken with hclosed | howes
              · exact hclosed
              · rw [hphase] at howes
                cases howes
        | _ => exact hkeeps hw' rfl
    | aside hw' | callbacks _ board hb hw' | refuses error hw' | turnsAway p bytes hq' hw'
    | admits p bytes hq' hw' | takes flushed hphase hq' hw' | puts count hphase hw'
    | breaks fault hphase hw' | completes hphase hw' | reports reason hphase hw'
    | givesUp hphase hq' hw' => exact hkeeps hw' rfl

theorem Reached.queueClosed_of_open (h : w.Reached) (ho : w.session.closed = false) :
    w.session.queueClosed = false := by
  cases hq : w.session.queueClosed with
  | false => rfl
  | true =>
      rw [h.closed_of_queueClosed hq] at ho
      cases ho

/-! ## What enters the queue later -/

theorem size_of_steps (hs : Steps w w') :
    w.session.board.size ≤ w'.session.board.size := by
  induction hs with
  | refl => exact Nat.le_refl _
  | tail _ he ih =>
      obtain ⟨e, he⟩ := he
      exact Nat.le_trans ih (size_of_step he)

/-- A request that enters the queue later belongs to an operation that is made later. -/
theorem operation_of_steps (hs : Steps w w') :
    ∀ r ∈ w'.requests, r ∈ w.requests ∨ w.session.board.size ≤ r.operation := by
  induction hs with
  | refl => exact fun r hr => .inl hr
  | tail hs he ih =>
      obtain ⟨e, he⟩ := he
      rename_i w₁ w₂
      intro r hr
      have hsame (hentered : w₂.entered = w₁.entered) :
          r ∈ w.requests ∨ w.session.board.size ≤ r.operation := by
        refine ih r ?_
        rw [requests, ← hentered]
        exact hr
      cases sendEffect_of_step he with
      | aside h => exact hsame h.entered
      | begins p h | refuses e journal hi h | frames hi he h | aborts hi h | turnsAway hi h =>
          subst h
          exact hsame rfl
      | admits hi h =>
          rename_i i p bytes
          have hnew : w₂.requests = w₁.requests ++ [⟨bytes, w₁.session.board.size⟩] := by
            rw [h]
            simp [requests, lineUp, setStage, setSession]
          rw [hnew, List.mem_append, List.mem_singleton] at hr
          rcases hr with hold | rfl
          · exact ih r hold
          · exact .inr (size_of_steps hs)

/-- A request belongs to an operation of the board. -/
theorem Reached.operation_lt (h : w.Reached) {r : WriteRequest} (hr : r ∈ w.requests) :
    r.operation < w.session.board.size := by
  obtain ⟨x, hx, rfl⟩ := List.mem_map.1 hr
  exact h.sends.known x (List.mem_append_left _ hx)

/-! ## A send at once -/

/-- What a send that is made at once comes to, in a session with a limit. -/
structure Answers (w : Run) (limit : Nat) (p : Payload) (s : Session) : Prop where
  /-- Its operation comes back failed exactly if the session declines it, with that failure. -/
  failed_iff : ∀ e, s.board.result? w.session.board.size = some (.error e) ↔
    w.session.Declines limit p e
  /-- Then there is one more operation, and maybe a line in the log, and nothing else. -/
  declined : ∀ e, w.session.Declines limit p e →
    (∃ journal, s = { w.session with
      board := w.session.board.push (.resolved (.error e))
      journal := journal }) ∧
    ∀ n < w.session.board.size, s.board.operation? n = w.session.board.operation? n
  /-- Nothing of the payload is ever written: only what entered the queue is, and that never
  belongs to the operation. -/
  unwritten : ∀ e, w.session.Declines limit p e → ∃ w', w.exec (w.shortSend p) = some w' ∧
    w'.session = s ∧ ∀ w'', Steps w' w'' →
      w''.wire <+: w''.requests.flatMap WriteRequest.bytes ∧
      ∀ r ∈ w''.requests, r.operation ≠ w.session.board.size
  /-- Otherwise the operation is pending and its bytes are the last request. -/
  accepted : (∀ e, ¬ w.session.Declines limit p e) → ∃ bytes, p.encode limit = .framed bytes ∧
    s = { w.session with
      board := w.session.board.push .pending
      stamps := w.session.stamps.touchSchedule w.clock
      queue := w.session.queue ++ [⟨bytes, w.session.board.size⟩] } ∧
    s.board.IsPending w.session.board.size ∧
    ∃ w', w.exec (w.wholeSend p) = some w' ∧ w'.session = s
  /-- The send looks at the session as one does that frames the payload itself, and in a closed
  session such a one does not frame it. -/
  unframed : w.session.startSend p = Id.run (w.session.startSendBy (pure (p.encode limit))) ∧
    (w.session.closed = true → ∀ (m : Type → Type) [Monad m] (frame : m Encoding),
      w.session.startSendBy frame = pure (.ofRefusal w.session .sessionClosed))

/-- Nothing of a payload that was declined is written later. -/
private theorem unwritten_of_startSend (h : w.Reached) {s : Session}
    (hstart : w.session.startSend p = .ended w.session.board.size s)
    (hsize : w.session.board.size < s.board.size) :
    ∃ w', w.exec (w.shortSend p) = some w' ∧ w'.session = s ∧ ∀ w'', Steps w' w'' →
      w''.wire <+: w''.requests.flatMap WriteRequest.bytes ∧
      ∀ r ∈ w''.requests, r.operation ≠ w.session.board.size := by
  have hexec := exec_shortSend hstart
  refine ⟨_, hexec, rfl, fun w'' hs => ⟨?_, fun r hr => ?_⟩⟩
  · exact Reached.wire_isPrefix (h.steps ((steps_of_foldlM hexec).trans hs))
  · rcases operation_of_steps hs r hr with hold | hlater
    · exact Nat.ne_of_lt (h.operation_lt hold)
    · exact Nat.ne_of_gt (Nat.lt_of_lt_of_le hsize hlater)

theorem frameLimit_of_steps (hs : Steps w w') :
    w'.session.frameLimit = w.session.frameLimit := by
  induction hs with
  | refl => rfl
  | tail _ he ih =>
      obtain ⟨e, he⟩ := he
      rw [frameLimit_of_step he, ih]

/-- The limit of a session is the one it was started with, as far as the wire allows. -/
theorem frameLimit_start (label : String) (remote : Option Address) (config : SessionConfig)
    (now : Duration) : (start label remote config now).session.frameLimit =
      Frame.effectiveLimit config.maxFrameSize := by
  obtain ⟨journal, hsession⟩ := session_start label remote config now
  rw [hsession]
  rfl

private theorem answers_of_declines (h : w.Reached) {e : TransportError}
    (he : w.session.Declines w.session.frameLimit p e) :
    ∃ s, w.session.send p w.clock = some (w.session.board.size, s) ∧
      w.Answers w.session.frameLimit p s := by
  obtain ⟨journal, hstart⟩ := Session.startSend_of_declines h.frameLimit_le he
  refine ⟨{ w.session with
    board := w.session.board.push (.resolved (.error e))
    journal := journal }, by simp only [Session.send, hstart], ?_⟩
  refine ⟨fun e' => ?_, fun e' he' => ?_, fun e' he' => ?_, fun hnot => absurd he (hnot e),
    w.session.startSend_eq p,
    fun hclosed m _ frame => Session.startSendBy_of_closed hclosed frame⟩
  · rw [Board.result?_push, if_pos rfl]
    constructor
    · rintro ⟨⟩
      exact he
    · intro he'
      rw [he.unique h.frameLimit_le he']
      rfl
  · rw [he.unique h.frameLimit_le he']
    refine ⟨⟨journal, rfl⟩, fun n hn => ?_⟩
    rw [Board.operation?_push, if_neg (Nat.ne_of_lt hn)]
  · exact unwritten_of_startSend h hstart (by simp)

private theorem answers_of_not_declines (h : w.Reached) (hp : p.KeepsField)
    (hnot : ∀ e, ¬ w.session.Declines w.session.frameLimit p e) :
    ∃ s, w.session.send p w.clock = some (w.session.board.size, s) ∧
      w.Answers w.session.frameLimit p s := by
  obtain ⟨hopen, bytes, hbytes, hstart⟩ :=
    Session.startSend_of_not_declines h.frameLimit_le hp hnot
  have hq := h.queueClosed_of_open hopen
  refine ⟨{ w.session with
    board := w.session.board.push .pending
    stamps := w.session.stamps.touchSchedule w.clock
    queue := w.session.queue ++ [⟨bytes, w.session.board.size⟩] },
    by simp only [Session.send, hstart, Session.enqueue_of_open hq], ?_⟩
  refine ⟨fun e => ⟨fun hfailed => ?_, fun he => absurd he (hnot e)⟩,
    fun e he => absurd he (hnot e), fun e he => absurd he (hnot e), fun _ => ?_,
    w.session.startSend_eq p,
    fun hclosed m _ frame => Session.startSendBy_of_closed hclosed frame⟩
  · rw [Board.result?_push, if_pos rfl] at hfailed
    cases hfailed
  · refine ⟨bytes, hbytes, rfl, ?_, _, exec_wholeSend hstart hq, rfl⟩
    rw [Board.isPending_push_iff, if_pos rfl]
    exact ⟨rfl, rfl⟩

/-- A send that is made at once always comes back. If the session declines it, all that is left of
it is an operation that has failed. -/
theorem declined_sends_change_nothing {label : String} {remote : Option Address}
    {config : SessionConfig} {now : Duration} (hs : Steps (start label remote config now) w)
    (hp : p.KeepsField) :
    ∃ s, w.session.send p w.clock = some (w.session.board.size, s) ∧
      w.Answers (Frame.effectiveLimit config.maxFrameSize) p s := by
  have h : w.Reached := ⟨_, .start label remote config now, hs⟩
  rw [← frameLimit_start label remote config now, ← frameLimit_of_steps hs]
  by_cases hdeclines : ∃ e, w.session.Declines w.session.frameLimit p e
  · obtain ⟨e, he⟩ := hdeclines
    exact answers_of_declines h he
  · exact answers_of_not_declines h hp fun e he => hdeclines ⟨e, he⟩

/-- A session with a small limit in which a send waits to be written. -/
def crowded : Run :=
  (start "1" none { maxFrameSize := 8 } default).after
    [.send (.buffer [1]), .look 0, .enqueue 0]

/-- A message that takes nine bytes is declined, and the send that waits is left alone. -/
theorem crowded_declines :
    ∃ s, crowded.session.send (.message (.ofBody 7 [1, 2, 3])) crowded.clock = some (1, s) ∧
      s.board.result? 1 = some (.error (.frameTooLarge 9 8)) ∧ s.queue = [⟨[1], 0⟩] ∧
      s.stamps = crowded.session.stamps := by
  have hsteps : Steps (start "1" none { maxFrameSize := 8 } default) crowded := steps_after _ _
  have hkeeps : (Payload.message (.ofBody 7 [1, 2, 3])).KeepsField := nofun
  have hdeclines : crowded.session.Declines 8 (.message (.ofBody 7 [1, 2, 3]))
      (.frameTooLarge 9 8) := .longMessage rfl (by decide)
  obtain ⟨s, hsend, hanswers⟩ := declined_sends_change_nothing hsteps hkeeps
  have hfailed := (hanswers.failed_iff _).2 hdeclines
  obtain ⟨⟨journal, rfl⟩, -⟩ := hanswers.declined _ hdeclines
  exact ⟨_, hsend, hfailed, rfl, rfl⟩

end Run

end PeerLink
