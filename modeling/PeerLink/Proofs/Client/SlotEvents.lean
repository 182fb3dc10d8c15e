import PeerLink.Proofs.Client.Binding
import PeerLink.Proofs.Client.Nested

/-!
# What bears on the client slot

Of all that clients and others do with a session, little has a bearing on its client
slot: values are attached to it and removed from it, and a client that is closed gives it
up, if it is still the one there.  Each of these is an event, with the identity of the
client where there is one, and what the slot holds is what a history of events leaves
there.

The functions of a client are gone through one by one: which events they are, and that
they leave the identities of the clients alone.  Of the session it is only asked that it
keeps away from the slot by itself.

## Main results

* `SlotEvent.foldl_apply_some` — a value that was attached stays until an event takes it
  out.
* `ClientGroup.bears_perform`, `ClientGroup.bears_complete`, `ClientGroup.bears_cancel` —
  what a command and the end of an operation do to the slot.
-/

namespace PeerLink

/-! ## What bears on the slot -/

/-- What may change who holds the client slot. -/
inductive SlotEvent
  /-- A value was attached. -/
  | attached (value : SlotValue)
  /-- Somebody emptied the slot. -/
  | removed
  /-- A close of the client with this identity, and its answer. -/
  | closed (id : ClientId) (answer : Bool)
  /-- A forced close of the client with this identity. -/
  | forced (id : ClientId)
  deriving DecidableEq

namespace SlotEvent

/-- The client with this identity gives the slot up, if it is the one there. -/
def vacate (slot : Option SlotValue) (id : ClientId) : Option SlotValue :=
  if slot = some (.owner id) then none else slot

/-- What the slot holds after an event. -/
def apply (slot : Option SlotValue) : SlotEvent → Option SlotValue
  | attached value => some value
  | removed => none
  | closed id true | forced id => vacate slot id
  | closed _ false => slot

/-- The event takes a value out of the slot. -/
inductive Ends (value : SlotValue) : SlotEvent → Prop
  | removed : Ends value removed
  | closed {id : ClientId} (h : value = .owner id) : Ends value (closed id true)
  | forced {id : ClientId} (h : value = .owner id) : Ends value (forced id)

/-- The event leaves a slot as it is that holds this. -/
inductive Spares (slot : Option SlotValue) : SlotEvent → Prop
  | loses (id : ClientId) : Spares slot (closed id false)
  | closed {id : ClientId} (h : slot ≠ some (.owner id)) : Spares slot (closed id true)
  | forced {id : ClientId} (h : slot ≠ some (.owner id)) : Spares slot (forced id)

theorem vacate_of_ne {slot : Option SlotValue} {id : ClientId} (h : slot ≠ some (.owner id)) :
    vacate slot id = slot :=
  if_neg h

theorem Spares.apply {slot : Option SlotValue} {e : SlotEvent} (h : e.Spares slot) :
    apply slot e = slot := by
  cases h with
  | loses id => rfl
  | closed h | forced h => exact vacate_of_ne h

theorem Ends.apply {value : SlotValue} {e : SlotEvent} (h : e.Ends value) :
    apply (some value) e = none := by
  cases h with
  | removed => rfl
  | closed h | forced h =>
      subst h
      exact if_pos rfl

/-- A value stays in the slot unless another is attached or an event takes it out. -/
theorem apply_of_not_ends {value : SlotValue} {e : SlotEvent}
    (ha : ∀ other, e ≠ attached other) (h : ¬ e.Ends value) :
    apply (some value) e = some value := by
  cases e with
  | attached other => exact absurd rfl (ha other)
  | removed => exact absurd .removed h
  | forced id => exact vacate_of_ne fun heq => h (.forced (Option.some.inj heq))
  | closed id answer =>
      cases answer with
      | false => rfl
      | true => exact vacate_of_ne fun heq => h (.closed (Option.some.inj heq))

theorem apply_none {e : SlotEvent} (ha : ∀ value, e ≠ attached value) : apply none e = none := by
  cases e with
  | attached value => exact absurd rfl (ha value)
  | removed => rfl
  | forced id => exact vacate_of_ne nofun
  | closed id answer =>
      cases answer with
      | false => rfl
      | true => exact vacate_of_ne nofun

/-! ### What a history leaves -/

variable {value : SlotValue} {events : List SlotEvent}

theorem foldl_apply_none (ha : ∀ value, attached value ∉ events) :
    events.foldl apply none = none := by
  induction events with
  | nil => rfl
  | cons e rest ih =>
      have hfirst := apply_none fun value heq => ha value (heq ▸ List.mem_cons_self)
      rw [List.foldl_cons, hfirst]
      exact ih fun value hmem => ha value (List.mem_cons_of_mem e hmem)

/-- A value that was attached stays until an event takes it out. -/
theorem foldl_apply_some (ha : ∀ other, attached other ∉ events) :
    ((∃ e ∈ events, e.Ends value) → events.foldl apply (some value) = none) ∧
      ((∀ e ∈ events, ¬ e.Ends value) → events.foldl apply (some value) = some value) := by
  induction events with
  | nil => exact ⟨fun ⟨_, hmem, _⟩ => absurd hmem List.not_mem_nil, fun _ => rfl⟩
  | cons e rest ih =>
      have hrest : ∀ other, attached other ∉ rest := fun other hmem =>
        ha other (List.mem_cons_of_mem e hmem)
      obtain ⟨htaken, hkept⟩ := ih hrest
      rw [List.foldl_cons]
      by_cases hends : e.Ends value
      · rw [hends.apply]
        exact ⟨fun _ => foldl_apply_none hrest, fun h => absurd hends (h e List.mem_cons_self)⟩
      · rw [apply_of_not_ends (fun other heq => ha other (heq ▸ List.mem_cons_self)) hends]
        refine ⟨fun ⟨e', hmem, hends'⟩ => htaken ⟨e', ?_, hends'⟩,
          fun h => hkept fun e' hmem => h e' (List.mem_cons_of_mem e hmem)⟩
        exact (List.mem_cons.1 hmem).resolve_left fun heq => hends (heq ▸ hends')

theorem foldl_apply_of_spares {slot : Option SlotValue} (h : ∀ e ∈ events, e.Spares slot) :
    events.foldl apply slot = slot := by
  induction events with
  | nil => rfl
  | cons e rest ih =>
      rw [List.foldl_cons, (h e List.mem_cons_self).apply]
      exact ih fun e' hmem => h e' (List.mem_cons_of_mem e hmem)

end SlotEvent

/-! ## Sessions that leave the slot to others -/

/-- The session does nothing to its client slot, neither when it is asked to do something
else nor otherwise. -/
class TenantHost (σ : Type) [SessionHost σ] : Prop extends LawfulHost σ where
  slots_setSlots (s : σ) (slots : Slots) : SessionHost.slots (SessionHost.setSlots s slots) = slots
  client_setBoard (s : σ) (b : Board Ack) :
    (SessionHost.slots (SessionHost.setBoard s b)).client = (SessionHost.slots s).client
  client_log (s : σ) (e : LogEntry) :
    (SessionHost.slots (SessionHost.log s e)).client = (SessionHost.slots s).client
  client_send {s s' : σ} {p : Payload} {n : Nat} (h : SessionHost.send s p = some (n, s')) :
    (SessionHost.slots s').client = (SessionHost.slots s).client
  client_close (s : σ) :
    (SessionHost.slots (SessionHost.close s).2).client = (SessionHost.slots s).client

instance : TenantHost ScriptedSession where
  slots_setSlots _ _ := rfl
  client_setBoard _ _ := rfl
  client_log _ _ := rfl
  client_send h := by
    cases h
    rfl
  client_close _ := rfl

/-- Steps of the session itself leave the client slot as it is. -/
theorem Run.client_exec {w w' : Run} {events : List RunEvent} (h : w.exec events = some w')
    (hevents : ∀ e ∈ events, ∀ call, e ≠ .outside call) :
    w'.session.slots.client = w.session.slots.client := by
  induction events generalizing w with
  | nil =>
      cases h
      rfl
  | cons e rest ih =>
      rw [exec, List.foldlM_cons] at h
      obtain ⟨w₁, he, hrest⟩ := Option.bind_eq_some_iff.1 h
      have hlater := ih hrest fun e' he' => hevents e' (List.mem_cons_of_mem _ he')
      exact hlater.trans (client_of_step he (hevents e List.mem_cons_self))

theorem Run.client_after (w : Run) {events : List RunEvent}
    (hevents : ∀ e ∈ events, ∀ call, e ≠ .outside call) :
    (w.after events).session.slots.client = w.session.slots.client := by
  unfold after stateAfter
  cases h : events.foldlM step? w with
  | none => rfl
  | some w' => exact client_exec h hevents

instance : TenantHost Run where
  slots_setSlots _ _ := rfl
  client_setBoard _ _ := rfl
  client_log _ _ := rfl
  client_send h := by
    obtain ⟨⟨operation, s⟩, -, heq⟩ := Option.map_eq_some_iff.1 h
    cases heq
    exact (Run.client_after _ (by simp)).trans (Run.client_after _ (by simp))
  client_close w := by
    have hclient : w.shut.session.slots.client = w.beginClose.session.slots.client :=
      Run.client_after _ (by simp)
    exact hclient

namespace ClientGroup

variable {σ : Type} [SessionHost σ] (g : ClientGroup σ)

/-- What the client slot of the session holds. -/
def slot : Option SlotValue := (SessionHost.slots g.session).client

/-- A close of client `n`, as it bears on the slot. -/
def closing (n : Nat) : List SlotEvent :=
  ((g.client? n).map fun c => .closed c.id (g.close n).1).toList

/-- A forced close of client `n`, as it bears on the slot. -/
def forcing (n : Nat) : List SlotEvent := ((g.client? n).map fun c => .forced c.id).toList

/-- A command of client `n`, as it bears on the slot. -/
def commandEvents (n : Nat) : ClientCommand → List SlotEvent
  | .close => g.closing n
  | .forceClose => g.forcing n
  | _ => []

/-- What an ack does, as it bears on the slot. -/
def ackEvents : Ack → List SlotEvent
  | .tell _ n (some .close) => g.closing n
  | .tell _ n (some .forceClose) => g.forcing n
  | _ => []

/-- The end of an operation, as it bears on the slot: it does if it runs an ack. -/
def endEvents (operation : Nat) (result : SendResult) : List SlotEvent :=
  match ((SessionHost.board g.session).complete operation result).1 with
  | .recorded (some ack) => g.ackEvents ack
  | _ => []

/-- Giving up an operation, as it bears on the slot. -/
def cancelEvents (operation : Nat) : List SlotEvent :=
  if (SessionHost.board g.session).isOpen operation then g.endEvents operation (.error .canceled)
  else []

end ClientGroup

/-! ## What the functions of a client do to the slot -/

/-- From one group to another the slot has changed as these events say, and the clients
are the same. -/
structure ClientGroup.Bears {σ : Type} [SessionHost σ] (g : ClientGroup σ)
    (events : List SlotEvent) (g' : ClientGroup σ) : Prop where
  slot : g'.slot = events.foldl SlotEvent.apply g.slot
  id? : ∀ n, (g'.client? n).map Client.id = (g.client? n).map Client.id

namespace ClientGroup

variable {σ : Type} [SessionHost σ] {g g' g'' : ClientGroup σ} {events : List SlotEvent} {n : Nat}

theorem Bears.trans (h : g.Bears [] g') (h' : g'.Bears events g'') : g.Bears events g'' where
  slot := by rw [h'.slot, h.slot, List.foldl_nil]
  id? n := (h'.id? n).trans (h.id? n)

theorem Bears.of_clients (hs : g'.slot = g.slot) (hc : g'.clients = g.clients) : g.Bears [] g' where
  slot := hs
  id? n := congrArg (Option.map Client.id) (client?_of_clients hc n)

theorem Bears.note (h : g.Bears events g') (note : AckNote) : g.Bears events (g'.note note) :=
  ⟨h.slot, h.id?⟩

/-- A client may change without its identity. -/
theorem bears_modify (g : ClientGroup σ) (n : Nat) {f : Client → Client}
    (hf : ∀ c, (f c).id = c.id) : g.Bears [] (g.modify n f) where
  slot := rfl
  id? m := by
    rw [client?_modify]
    split
    · cases g.client? m with
      | none => rfl
      | some c => exact congrArg some (hf c)
    · rfl

variable [TenantHost σ]

theorem slot_modifySlots (g : ClientGroup σ) (f : Slots → Slots) :
    (g.modifySlots f).slot = (f (SessionHost.slots g.session)).client :=
  congrArg Slots.client (TenantHost.slots_setSlots _ _)

theorem bears_log (g : ClientGroup σ) (level : Level) (message : String) :
    g.Bears [] (g.log level message) :=
  .of_clients (TenantHost.client_log _ _) rfl

theorem bears_setBoard (g : ClientGroup σ) (board : Board Ack) :
    g.Bears [] { g with session := SessionHost.setBoard g.session board } :=
  .of_clients (TenantHost.client_setBoard _ _) rfl

theorem slot_bindAs (g : ClientGroup σ) (id : ClientId) :
    (g.bindAs id).2.slot = some (.owner id) := by
  have hattached := g.slot_modifySlots (·.attach .client (.owner id))
  unfold bindAs
  dsimp only
  split
  · exact (bears_log ..).slot.trans ((bears_log ..).slot.trans hattached)
  · exact (bears_log ..).slot.trans hattached

/-! ### Sends -/

private theorem bears_sendStep (g : ClientGroup σ) (call : SendCall) (stage : SendStage) :
    match g.sendStep call stage with
    | .next _ g' | .done _ g' => g.Bears [] g'
    | .aborted => True := by
  have hself : g.Bears [] g := .of_clients rfl rfl
  cases stage with
  | opening =>
      simp only [sendStep]
      cases call.target with
      | some target => exact hself
      | none =>
          cases (g.client? call.client).map (·.gate.isClosed) with
          | none => exact hself
          | some closed => cases closed <;> exact hself
  | counting => exact g.bears_modify _ fun _ => rfl
  | looking operation => exact hself
  | handing =>
      simp only [sendStep]
      cases hsend : SessionHost.send g.session call.payload with
      | none => trivial
      | some taken => exact .of_clients (TenantHost.client_send hsend) rfl
  | registering operation =>
      simp only [sendStep]
      cases call.ack with
      | none => exact hself
      | some ack =>
          cases hboard : (SessionHost.board g.session).onComplete operation ack with
          | mk taken board =>
              simp only [hboard]
              cases taken with
              | true => exact g.bears_setBoard board
              | false => exact hself
  | refused operation =>
      simp only [sendStep]
      cases (SessionHost.board g.session).isDone operation with
      | true => exact hself
      | false => exact bears_log ..
  | settling result =>
      simp only [sendStep]
      cases result with
      | none => exact g.bears_modify _ fun _ => rfl
      | some r =>
          cases r with
          | ok => exact g.bears_modify _ fun _ => rfl
          | error cause => exact (bears_log ..).trans (bears_modify _ _ fun _ => rfl)

private theorem bears_runSend {g g' : ClientGroup σ} {call : SendCall} {stage : SendStage}
    {answer : SendAnswer} (h : g.runSend call stage = some (answer, g')) : g.Bears [] g' := by
  have hbears := g.bears_sendStep call stage
  cases hstep : g.sendStep call stage with
  | aborted =>
      rw [runSend_of_aborted hstep] at h
      cases h
  | done answer' g₁ =>
      rw [hstep] at hbears
      rw [runSend_of_done hstep] at h
      cases h
      exact hbears
  | next stage' g₁ =>
      rw [hstep] at hbears
      rw [runSend_of_next hstep] at h
      exact hbears.trans (bears_runSend h)
termination_by stage.rank
decreasing_by exact rank_of_sendStep hstep

/-- A send leaves the slot as it is. -/
theorem bears_send {call : SendCall} {answer : SendAnswer}
    (h : g.send call = some (answer, g')) : g.Bears [] g' :=
  bears_runSend h

/-! ### Closes -/

/-- A client that is released gives its slot up, and no other. -/
private theorem runClose_reading (g : ClientGroup σ) (n : Nat) :
    ∃ g', g.runClose n .reading = (true, g') ∧
      g'.slot = ((g.client? n).map fun c => SlotEvent.vacate g.slot c.id).getD g.slot := by
  have hclosing (g : ClientGroup σ) :
      ∃ g', g.runClose n .closing = (true, g') ∧ g'.slot = g.slot :=
    ⟨_, runClose_of_done rfl, TenantHost.client_close _⟩
  cases hread : g.closeStep n .reading with
  | done answer g' =>
      simp only [closeStep] at hread
      split at hread <;> cases hread
  | next stage g' =>
      rw [runClose_of_next hread]
      simp only [closeStep] at hread
      split at hread
      · rename_i hown
        cases hread
        rw [Bool.and_eq_true, beq_iff_eq] at hown
        obtain ⟨hsome, hsame⟩ := hown
        obtain ⟨id, hid⟩ := Option.isSome_iff_exists.1 hsome
        obtain ⟨c, hc, rfl⟩ := Option.map_eq_some_iff.1 (hsame.symm.trans hid)
        obtain ⟨value, hvalue, howner⟩ := Option.bind_eq_some_iff.1 hid
        have hslot : g.slot = some (.owner c.id) := by
          cases value with
          | owner id =>
              obtain rfl := Option.some.inj howner
              exact hvalue
          | _ => cases howner
        obtain ⟨g₁, hrun, hslot₁⟩ := hclosing (g.modifySlots (·.remove .client))
        refine ⟨g₁, (runClose_of_next rfl).trans hrun, ?_⟩
        rw [hslot₁, slot_modifySlots, hc]
        exact (if_pos hslot).symm
      · rename_i hother
        cases hread
        obtain ⟨g₁, hrun, hslot₁⟩ := hclosing g
        refine ⟨g₁, hrun, hslot₁.trans ?_⟩
        cases hc : g.client? n with
        | none => rfl
        | some c =>
            refine (SlotEvent.vacate_of_ne fun hslot => hother ?_).symm
            have hvalue : (SessionHost.slots g.session).get? .client = some (.owner c.id) := hslot
            rw [hvalue, hc]
            exact beq_self_eq_true (some c.id)

omit [TenantHost σ] in
private theorem close_of_not_isOpen (h : g.isOpen n = false) : g.close n = (false, g) := by
  refine runClose_of_done ?_
  unfold isOpen at h
  cases hn : g.client? n with
  | none => simp only [closeStep, hn]
  | some c =>
      rw [hn] at h
      have hclosed : c.gate.isClosed = true := by simpa using h
      simp only [closeStep, hn, Gate.close, hclosed, Bool.not_true]

omit [TenantHost σ] in
private theorem close_of_isOpen (h : g.isOpen n = true) :
    g.close n = (g.shut n).runClose n .reading := by
  refine runClose_of_next ?_
  unfold isOpen at h
  cases hn : g.client? n with
  | none =>
      rw [hn] at h
      cases h
  | some c =>
      rw [hn] at h
      have hopen : c.gate.isClosed = false := by simpa using h
      simp only [closeStep, hn, Gate.close, hopen, Bool.not_false]
      rfl

/-- A close answers "yes" exactly if it finds the gate open. -/
theorem close_fst (g : ClientGroup σ) (n : Nat) : (g.close n).1 = g.isOpen n := by
  cases h : g.isOpen n with
  | false => rw [close_of_not_isOpen h]
  | true =>
      obtain ⟨g', hrun, -⟩ := (g.shut n).runClose_reading n
      rw [close_of_isOpen h, hrun]

private theorem closing_of_clients (h : g'.clients = g.clients) :
    g'.closing n = g.closing n := by
  unfold closing
  rw [close_fst, close_fst, isOpen_of_clients h, client?_of_clients h]

omit [SessionHost σ] [TenantHost σ] in
private theorem forcing_of_clients (h : g'.clients = g.clients) :
    g'.forcing n = g.forcing n := by
  unfold forcing
  rw [client?_of_clients h]

omit [TenantHost σ] in
private theorem bears_shut (h : g'.clients = (g.shut n).clients)
    (hslot : g'.slot = events.foldl SlotEvent.apply g.slot) : g.Bears events g' where
  slot := hslot
  id? m := by
    rw [client?_of_clients h]
    exact (g.bears_modify n (f := fun c => { c with gate := ⟨true⟩ }) fun _ => rfl).id? m

theorem bears_close (g : ClientGroup σ) (n : Nat) : g.Bears (g.closing n) (g.close n).2 := by
  refine bears_shut (g.runClose_shuts n (.gate false)) ?_
  unfold closing
  rw [close_fst]
  cases h : g.isOpen n with
  | false =>
      rw [close_of_not_isOpen h]
      cases g.client? n <;> rfl
  | true =>
      obtain ⟨g', hrun, hslot⟩ := (g.shut n).runClose_reading n
      rw [close_of_isOpen h, hrun, hslot, client?_shut, if_pos rfl]
      cases g.client? n <;> rfl

theorem bears_forceClose (g : ClientGroup σ) (n : Nat) :
    g.Bears (g.forcing n) (g.forceClose n) := by
  refine bears_shut (g.runClose_shuts n (.gate true)) ?_
  obtain ⟨g', hrun, hslot⟩ := (g.shut n).runClose_reading n
  have hstep : g.closeStep n (.gate true) = .next .reading (g.shut n) := rfl
  rw [forceClose, runClose_of_next hstep, hrun, hslot, client?_shut, if_pos rfl]
  unfold forcing
  cases g.client? n <;> rfl

/-! ### Commands, acks and the ends of operations -/

theorem bears_perform {command : ClientCommand} {reply : ClientReply}
    (h : g.perform n command = some (reply, g')) : g.Bears (g.commandEvents n command) g' := by
  cases command with
  | close =>
      cases h
      exact g.bears_close n
  | forceClose =>
      cases h
      exact g.bears_forceClose n
  | isClosed | describe | capabilities | sendRaw | handshake =>
      cases h
      exact .of_clients rfl rfl
  | sendBuffer wire =>
      obtain ⟨⟨answer, g₁⟩, hsend, heq⟩ := Option.bind_eq_some_iff.1 h
      cases heq
      exact bears_send hsend
  | sendMessage target message ack =>
      obtain ⟨⟨answer, g₁⟩, hsend, heq⟩ := Option.bind_eq_some_iff.1 h
      cases heq
      exact bears_send hsend

theorem bears_tell {ack : Ack} {result : SendResult} (h : g.tell ack result = some g') :
    g.Bears (g.ackEvents ack) g' := by
  cases ack with
  | silent | watch number =>
      cases h
      exact .of_clients rfl rfl
  | tell name n next =>
      have htold : g.Bears [] (g.note (.told name result)) := .of_clients rfl rfl
      cases next with
      | none =>
          cases h
          exact htold
      | some f =>
          cases f with
          | close =>
              cases h
              have hclose := ((g.note (.told name result)).bears_close n).note
                (.closed name ((g.note (.told name result)).close n).1)
              rw [closing_of_clients (g := g) (by rfl)] at hclose
              exact htold.trans hclose
          | forceClose =>
              cases h
              have hclose := (g.note (.told name result)).bears_forceClose n
              rw [forcing_of_clients (g := g) (by rfl)] at hclose
              exact htold.trans hclose
          | state =>
              simp only [tell, follow] at h
              split at h <;> cases h
              · exact htold
              · exact htold.note _
          | sendBuffer wire =>
              obtain ⟨⟨answer, g₁⟩, hsend, heq⟩ := Option.bind_eq_some_iff.1 h
              cases heq
              exact htold.trans ((bears_send hsend).note _)
          | sendMessage message ack =>
              obtain ⟨⟨answer, g₁⟩, hsend, heq⟩ := Option.bind_eq_some_iff.1 h
              cases heq
              exact htold.trans ((bears_send hsend).note _)

private theorem ackEvents_of_clients (h : g'.clients = g.clients) (ack : Ack) :
    g'.ackEvents ack = g.ackEvents ack := by
  unfold ackEvents
  split
  · exact closing_of_clients h
  · exact forcing_of_clients h
  · rfl

theorem bears_complete {operation : Nat} {result : SendResult} {answer : Option Bool}
    (h : g.complete operation result = some (answer, g')) :
    g.Bears (g.endEvents operation result) g' := by
  unfold complete at h
  unfold endEvents
  cases hc : (SessionHost.board g.session).complete operation result with
  | mk completion board =>
      have hboard := g.bears_setBoard board
      rw [hc] at h
      cases completion with
      | usedUp =>
          cases h
          exact .of_clients rfl rfl
      | late =>
          cases h
          exact hboard
      | recorded ack =>
          cases ack with
          | none =>
              cases h
              exact hboard
          | some ack =>
              obtain ⟨g₁, htell, heq⟩ := Option.map_eq_some_iff.1 h
              cases heq
              have hack := bears_tell htell
              rw [ackEvents_of_clients (g := g) (by rfl)] at hack
              exact hboard.trans hack

/-- An entry in the log changes nothing of what the end of an operation does. -/
private theorem endEvents_log (level : Level) (message : String) (operation : Nat)
    (result : SendResult) :
    (g.log level message).endEvents operation result = g.endEvents operation result := by
  have hboard : SessionHost.board (g.log level message).session = SessionHost.board g.session :=
    LawfulHost.board_log _ _
  unfold endEvents
  rw [hboard]
  split
  · exact ackEvents_of_clients (by rfl) _
  · rfl

theorem bears_cancel {operation : Nat} {answer : Bool}
    (h : g.cancel operation = some (answer, g')) : g.Bears (g.cancelEvents operation) g' := by
  unfold cancel at h
  unfold cancelEvents
  split at h
  · rename_i hopen
    obtain ⟨⟨answer, g₁⟩, hcomplete, heq⟩ := Option.map_eq_some_iff.1 h
    cases heq
    have hend := bears_complete hcomplete
    rw [endEvents_log] at hend
    rw [if_pos hopen]
    exact (bears_log ..).trans hend
  · rename_i hused
    cases h
    rw [if_neg hused]
    exact .of_clients rfl rfl

end ClientGroup

end PeerLink
