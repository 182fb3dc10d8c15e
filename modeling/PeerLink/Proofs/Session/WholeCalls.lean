import PeerLink.Proofs.Session.Acks

/-!
# Calls that nobody interrupts

In a run a send looks at the session in one step and comes to the queue in another, and
a close takes three steps; others may go on in between.  If nobody does, the steps
together are the functions `Session.send` and `Session.close`: a run takes these apart
and adds nothing to them.

## Main results

* `Run.sent_of_send` — the steps of a send make of the session what `Session.send` does.
* `Run.shut_eq` — those of a local close make of it what `Session.close` does, and come
  to the same answer.
-/

namespace PeerLink.Run

variable {w : Run} {p : Payload} {bytes : Bytes}

/-! ## A send -/

/-- The run in which one more send has begun. -/
def begin (w : Run) (p : Payload) : Run := { w with sends := w.sends ++ [{ payload := p }] }

/-- The steps of a send that ends when it looks at the session. -/
def shortSend (w : Run) (p : Payload) : List RunEvent := [.send p, .look w.sends.length]

/-- The steps of a send that comes to the queue, with nobody else's in between. -/
def wholeSend (w : Run) (p : Payload) : List RunEvent :=
  [.send p, .look w.sends.length, .enqueue w.sends.length]

/-- The run in which a send that has just begun has framed its payload. -/
def frame (w : Run) (p : Payload) (bytes : Bytes) : Run :=
  (w.begin p).setStage w.sends.length p (.queueing bytes)

private theorem sends_begin (w : Run) (p : Payload) :
    (w.begin p).sends[w.sends.length]? = some ⟨p, .looking⟩ := by
  simp [begin]

private theorem sends_frame (w : Run) (p : Payload) (bytes : Bytes) :
    (w.frame p bytes).sends[w.sends.length]? = some ⟨p, .queueing bytes⟩ := by
  simp [frame, setStage, begin]

/-- What a send does that ends when it looks at the session. -/
private theorem look_begin_of_ended {n : Nat} {s : Session}
    (h : w.session.startSend p = .ended n s) :
    (w.begin p).step? (.look w.sends.length) = some
      (((w.begin p).setSession .caller s).setStage w.sends.length p (.returned n)) := by
  simp only [step?, look, sends_begin]
  rw [show (w.begin p).session.startSend p = .ended n s from h]

/-- What a send does that goes on to the queue. -/
private theorem look_begin_of_framed (h : w.session.startSend p = .framed bytes) :
    (w.begin p).step? (.look w.sends.length) = some (w.frame p bytes) := by
  simp only [step?, look, sends_begin]
  rw [show (w.begin p).session.startSend p = .framed bytes from h]
  rfl

/-- A send that has come to the queue is turned away by a closed one, and otherwise lined
up. -/
theorem step?_enqueue {i : Nat} (hi : w.sends[i]? = some ⟨p, .queueing bytes⟩) :
    w.step? (.enqueue i) =
      some (if w.session.queueClosed then w.turnAway i p bytes else w.lineUp i p bytes) := by
  simp only [step?, enqueue, hi]
  by_cases hq : w.session.queueClosed = true
  · rw [if_pos hq, if_pos hq, Session.enqueue_of_closed hq]
    rfl
  · rw [if_neg hq, if_neg hq, Session.enqueue_of_open (by simpa using hq)]
    rfl

/-- A send that ends when it looks at the session touches nothing but the session. -/
theorem exec_shortSend {n : Nat} {s : Session} (h : w.session.startSend p = .ended n s) :
    w.exec (w.shortSend p) = some
      (((w.begin p).setSession .caller s).setStage w.sends.length p (.returned n)) := by
  have hstep : w.step? (.send p) = some (w.begin p) := rfl
  rw [shortSend, exec, foldlM_of_step hstep, foldlM_of_step (look_begin_of_ended h)]
  rfl

/-- A send that comes to an open queue is lined up. -/
theorem exec_wholeSend (h : w.session.startSend p = .framed bytes)
    (hq : w.session.queueClosed = false) :
    w.exec (w.wholeSend p) = some ((w.frame p bytes).lineUp w.sends.length p bytes) := by
  have hstep : w.step? (.send p) = some (w.begin p) := rfl
  have henqueue := step?_enqueue (w.sends_frame p bytes)
  rw [if_neg (by simp [frame, begin, setStage, hq])] at henqueue
  rw [wholeSend, exec, foldlM_of_step hstep, foldlM_of_step (look_begin_of_framed h),
    foldlM_of_step henqueue]
  rfl

/-- The run after a whole send. -/
def sent (w : Run) (p : Payload) : Run :=
  ((w.begin p).after [.look w.sends.length]).after [.enqueue w.sends.length]

theorem quietly_sent (w : Run) (p : Payload) : Quietly (w.begin p) (w.sent p) :=
  (steps_sparing_after (by simp [RunEvent.hooks]) _).trans
    (steps_sparing_after (by simp [RunEvent.hooks]) _)

private theorem sends_setStage_begin (w : Run) (p : Payload) (stage : SendingStage) :
    ((w.begin p).setStage w.sends.length p stage).sends = w.sends ++ [⟨p, stage⟩] := by
  simp [begin, setStage]

/-- A send that has ended, in whatever way, does not come to the queue. -/
private theorem step?_enqueue_eq_none {w' : Run} {stage : SendingStage}
    (h : w'.sends = w.sends ++ [⟨p, stage⟩]) (hstage : ∀ bytes, stage ≠ .queueing bytes) :
    w'.step? (.enqueue w.sends.length) = none := by
  simp only [step?, enqueue, h, List.getElem?_concat_length]
  cases stage with
  | queueing bytes => exact absurd rfl (hstage bytes)
  | _ => rfl

private theorem sent_of_ended {n : Nat} {s : Session} (h : w.session.startSend p = .ended n s) :
    w.sent p = ((w.begin p).setSession .caller s).setStage w.sends.length p (.returned n) := by
  have hlooked : (w.begin p).after [.look w.sends.length] = _ :=
    stateAfter_of_step (look_begin_of_ended h)
  have hsends : (((w.begin p).setSession .caller s).setStage w.sends.length p
      (.returned n)).sends = _ := w.sends_setStage_begin p _
  rw [sent, hlooked]
  exact stateAfter_of_none (step?_enqueue_eq_none hsends fun _ heq => by cases heq)

private theorem sent_of_framed (h : w.session.startSend p = .framed bytes) :
    w.sent p = if w.session.queueClosed then (w.frame p bytes).turnAway w.sends.length p bytes
      else (w.frame p bytes).lineUp w.sends.length p bytes := by
  have hlooked : (w.begin p).after [.look w.sends.length] = _ :=
    stateAfter_of_step (look_begin_of_framed h)
  rw [sent, hlooked]
  exact stateAfter_of_step (step?_enqueue (w.sends_frame p bytes))

/-- The steps of a send, one after the other, are `Session.send`. -/
theorem sent_of_send {n : Nat} {s : Session} (h : w.session.send p w.clock = some (n, s)) :
    (w.sent p).session = s ∧ (w.sent p).sends = w.sends ++ [⟨p, .returned n⟩] := by
  unfold Session.send at h
  split at h
  · rename_i n' s' hstart
    obtain ⟨rfl, rfl⟩ := Prod.mk.inj (Option.some.inj h)
    rw [sent_of_ended hstart]
    exact ⟨rfl, w.sends_setStage_begin p _⟩
  · rename_i bytes hstart
    rw [sent_of_framed hstart]
    by_cases hq : w.session.queueClosed = true
    · rw [Session.enqueue_of_closed hq] at h
      obtain ⟨rfl, rfl⟩ := Prod.mk.inj (Option.some.inj h)
      rw [if_pos hq]
      refine ⟨rfl, ?_⟩
      simp [turnAway, frame, begin, setStage, setSession]
    · rw [Session.enqueue_of_open (by simpa using hq)] at h
      obtain ⟨rfl, rfl⟩ := Prod.mk.inj (Option.some.inj h)
      rw [if_neg hq]
      refine ⟨rfl, ?_⟩
      simp [lineUp, frame, begin, setStage, setSession]
  · cases h

/-- A send that is aborted leaves the session as it is. -/
theorem sent_of_abort (h : w.session.send p w.clock = none) :
    (w.sent p).session = w.session ∧ (w.sent p).sends = w.sends ++ [⟨p, .aborted⟩] := by
  unfold Session.send at h
  split at h
  · cases h
  · cases h
  · rename_i hstart
    have hlook : (w.begin p).step? (.look w.sends.length) =
        some ((w.begin p).setStage w.sends.length p .aborted) := by
      simp only [step?, look, sends_begin]
      rw [show (w.begin p).session.startSend p = .aborted from hstart]
    have hlooked : (w.begin p).after [.look w.sends.length] = _ := stateAfter_of_step hlook
    have hsends := w.sends_setStage_begin p .aborted
    have hover : ((w.begin p).setStage w.sends.length p .aborted).after
        [.enqueue w.sends.length] = _ :=
      stateAfter_of_none (step?_enqueue_eq_none hsends fun _ heq => by cases heq)
    rw [sent, hlooked, hover]
    exact ⟨rfl, hsends⟩

/-! ## A close -/

/-- The run in which one more local close has begun. -/
def beginClose (w : Run) : Run := { w with closes := w.closes ++ [.claiming] }

/-- The run after a whole local close. -/
def shut (w : Run) : Run :=
  w.beginClose.after
    [.closeStep w.closes.length, .closeStep w.closes.length, .closeStep w.closes.length]

theorem quietly_shut (w : Run) : Quietly w.beginClose w.shut :=
  steps_sparing_after (by simp [RunEvent.hooks]) _

/-- A local close does one step of those that every close of a session has. -/
private theorem exists_closeStep {w' : Run} {stage : ClosingStage}
    (h : w'.closes = w.closes ++ [stage]) :
    ∃ w'', w'.step? (.closeStep w.closes.length) = some w'' ∧
      w''.session = (w'.session.closeStep none .drain stage).2 ∧
      w''.closes = w.closes ++ [(w'.session.closeStep none .drain stage).1] := by
  simp only [step?, closeStep, h, List.getElem?_concat_length]
  refine ⟨_, rfl, rfl, ?_⟩
  rw [List.set_append_right _ _ (Nat.le_refl _), Nat.sub_self]
  rfl

/-- The steps of a local close, one after the other, are `Session.close`. -/
theorem shut_eq (w : Run) : w.shut.session = w.session.close.2 ∧
    w.shut.closes = w.closes ++ [.done w.session.close.1] := by
  have hbegun : w.beginClose.closes = w.closes ++ [.claiming] := rfl
  obtain ⟨w₁, h₁, hsession₁, hcloses₁⟩ := exists_closeStep hbegun
  obtain ⟨w₂, h₂, hsession₂, hcloses₂⟩ := exists_closeStep hcloses₁
  obtain ⟨w₃, h₃, hsession₃, hcloses₃⟩ := exists_closeStep hcloses₂
  have hshut : w.shut = w₃ := by
    refine stateAfter_of_foldlM ?_
    rw [foldlM_of_step h₁, foldlM_of_step h₂, foldlM_of_step h₃]
    rfl
  have hwhole := w.session.closeStep_closeStep_closeStep none .drain
  rw [hshut, hsession₃, hcloses₃, hsession₂, hsession₁]
  exact ⟨congrArg Prod.snd hwhole, congrArg (fun p => w.closes ++ [p.1]) hwhole⟩

end PeerLink.Run
