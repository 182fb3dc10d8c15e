import PeerLink.Proofs.Client.World

/-!
# All dealings of the clients of a session

Clients send and close at the same time, from any number of threads, and from inside
the acks that run when a send ends.  `Dealings` are the clients of a session of any
kind, with all sends and closes that were ever begun through them, and with what an
observer has written down: which sends handed their payloads to the session, which
closes came to the gate of their client, and which closes closed the session, each
in the order in which it happened.

A call does its steps as `ClientGroup.sendStep` and `ClientGroup.closeStep` have them,
one at a time.  While a function of the session runs, the call waits.  The session
may do anything at any moment: operations end, in whatever way, and acks run.  What
an ack does with a client, it does by calls of its own, which are begun and go on as
all others.  Nobody but the calls touches the gates and the counters of the clients.

## Main results

* `Dealings.steps_handing`, `Dealings.steps_closing` — where a call waits for the session,
  `ClientGroup` makes a single step of it.
* `ClientGroup.moves_sendStep`, `ClientGroup.moves_closeStep` — what a step of a call
  does to the clients: a send counts, a close shuts a gate.
* `Dealings.effect_of_step` — all that a step can do to the clients and the calls.
-/

namespace PeerLink

/-! ## What a step of a call does to the clients -/

/-- The counters of a client. -/
inductive Counter
  | issued
  | accepted
  | inFlight
  | reconnects
  | rejected
  deriving DecidableEq, Repr

/-- What a counter shows. -/
def Stats.read (s : Stats) : Counter → Nat
  | .issued => s.issued
  | .accepted => s.accepted
  | .inFlight => s.inFlight
  | .reconnects => s.reconnects
  | .rejected => s.rejected

/-- The counter of an answer; an answer that the session never saw has none. -/
def SendAnswer.counter? : SendAnswer → Option Counter
  | .ok .accepted => some .accepted
  | .ok .inFlight => some .inFlight
  | .ok (.needsReconnect _) => some .reconnects
  | .error (.sendFailed _ _) => some .rejected
  | .error _ => none

/-- The send has its operation and no answer yet. -/
def SendStage.isFollowing : SendStage → Bool
  | .opening | .counting | .handing => false
  | .registering _ | .refused _ | .looking _ | .settling _ => true

/-- The close has not yet come to the gate. -/
def CloseStage.isGate : CloseStage → Bool
  | .gate _ => true
  | .reading | .removing | .closing => false

/-- A send goes from one stage to the next, does so to the counters of its client, and
hands its payload over or not. -/
inductive SendMoves : CallStage → CallStage → (Stats → Stats) → Bool → Prop
  | opens : SendMoves (.going .opening) (.going .counting) id false
  /-- It is turned away. -/
  | turned {answer : SendAnswer} (ha : answer.counter? = none) :
      SendMoves (.going .opening) (.returned answer) id false
  | counts : SendMoves (.going .counting) (.going .handing) Stats.countIssued false
  | hands : SendMoves (.going .handing) .handed id true
  | gets (call : SendCall) (n : Nat) :
      SendMoves .handed (.going (call.afterHanding n)) id false
  | aborts : SendMoves .handed .aborted id false
  | follows {s s' : SendStage} (hs : s.isFollowing = true) (hs' : s'.isFollowing = true) :
      SendMoves (.going s) (.going s') id false
  | answers {s : SendStage} {answer : SendAnswer} (hs : s.isFollowing = true)
      (ha : answer.counter? ≠ none) :
      SendMoves (.going s) (.returned answer) (·.countAnswer answer) false

/-- A close goes from one stage to the next, where the gate of its client is open or not.
It comes to the gate, which is shut from then on, or not, and calls the session's close
or not. -/
inductive CloseMoves (isOpen : Bool) : ShutStage → ShutStage → Bool → Bool → Prop
  | forces : CloseMoves isOpen (.going (.gate true)) (.going .reading) true false
  | wins (h : isOpen = true) :
      CloseMoves isOpen (.going (.gate false)) (.going .reading) true false
  | loses (h : isOpen = false) :
      CloseMoves isOpen (.going (.gate false)) (.returned false) true false
  | goes {s s' : CloseStage} (hs : s = .reading ∨ s = .removing)
      (hs' : s' = .removing ∨ s' = .closing) :
      CloseMoves isOpen (.going s) (.going s') false false
  | closes (i : Nat) : CloseMoves isOpen (.going .closing) (.handed i) false true
  | returns (i : Nat) : CloseMoves isOpen (.handed i) (.returned true) false false

namespace ClientGroup

variable {σ : Type} (g : ClientGroup σ)

/-- The group with the counters of a client changed. -/
def recount (n : Nat) (t : Stats → Stats) : ClientGroup σ :=
  g.modify n fun c => { c with stats := t c.stats }

/-- The group with the gate of a client shut. -/
def shut (n : Nat) : ClientGroup σ := g.modify n fun c => { c with gate := ⟨true⟩ }

/-- The gate of a client is open. -/
def isOpen (n : Nat) : Bool := (g.client? n).any fun c => !c.gate.isClosed

theorem client?_recount (n m : Nat) (t : Stats → Stats) :
    (g.recount n t).client? m =
      if m = n then (g.client? m).map fun c => { c with stats := t c.stats }
      else g.client? m :=
  g.client?_modify n m _

theorem client?_shut (n m : Nat) :
    (g.shut n).client? m =
      if m = n then (g.client? m).map fun c => { c with gate := ⟨true⟩ } else g.client? m :=
  g.client?_modify n m _

theorem clients_recount_id (n : Nat) : (g.recount n id).clients = g.clients := by
  refine Array.ext_getElem? fun m => ?_
  have hsame := g.client?_recount n m id
  simpa [client?] using hsame

theorem size_recount (n : Nat) (t : Stats → Stats) :
    (g.recount n t).clients.size = g.clients.size :=
  Array.size_modify

theorem size_shut (n : Nat) : (g.shut n).clients.size = g.clients.size := Array.size_modify

theorem client?_of_clients {g g' : ClientGroup σ} (h : g'.clients = g.clients) (n : Nat) :
    g'.client? n = g.client? n := by
  unfold client?
  rw [h]

theorem client?_of_push {g g' : ClientGroup σ} {c : Client} (h : g'.clients = g.clients.push c)
    (n : Nat) : g'.client? n = if n = g.clients.size then some c else g.client? n := by
  unfold client?
  rw [h, Array.getElem?_push]

theorem isOpen_of_clients {g g' : ClientGroup σ} (h : g'.clients = g.clients) (n : Nat) :
    g'.isOpen n = g.isOpen n := by
  unfold isOpen
  rw [client?_of_clients h]

theorem isOpen_recount (n m : Nat) (t : Stats → Stats) :
    (g.recount n t).isOpen m = g.isOpen m := by
  unfold isOpen
  rw [client?_recount]
  split
  · cases g.client? m <;> rfl
  · rfl

theorem isOpen_shut (n m : Nat) :
    (g.shut n).isOpen m = if m = n then false else g.isOpen m := by
  unfold isOpen
  rw [client?_shut]
  split
  · cases g.client? m <;> rfl
  · rfl

variable [SessionHost σ]

theorem counter?_classify (n : Nat) (result : Option SendResult) :
    (g.classify n result).counter? ≠ none := by
  unfold classify
  split
  · nofun
  · nofun
  · split <;> nofun

/-- A send counts itself in one step, and its answer in its last one. -/
theorem moves_sendStep (call : SendCall) {stage : SendStage} (hstage : stage ≠ .handing) :
    ∃ t, match g.sendStep call stage with
    | .next stage' g' => SendMoves (.going stage) (.going stage') t false ∧
        g'.clients = (g.recount call.client t).clients
    | .done answer g' => SendMoves (.going stage) (.returned answer) t false ∧
        g'.clients = (g.recount call.client t).clients
    | .aborted => False := by
  have hsame := (g.clients_recount_id call.client).symm
  cases stage with
  | handing => exact absurd rfl hstage
  | opening =>
      refine ⟨id, ?_⟩
      simp only [sendStep]
      cases call.target with
      | some target => exact ⟨.turned rfl, hsame⟩
      | none =>
          cases (g.client? call.client).map (·.gate.isClosed) with
          | none => exact ⟨.turned rfl, hsame⟩
          | some closed =>
              cases closed with
              | true => exact ⟨.turned rfl, hsame⟩
              | false => exact ⟨.opens, hsame⟩
  | counting => exact ⟨Stats.countIssued, .counts, rfl⟩
  | registering n =>
      refine ⟨id, ?_⟩
      simp only [sendStep]
      cases call.ack with
      | none => exact ⟨.follows rfl rfl, hsame⟩
      | some ack =>
          cases hb : (SessionHost.board g.session).onComplete n ack with
          | mk taken board =>
              simp only [hb]
              cases taken <;> exact ⟨.follows rfl rfl, hsame⟩
  | refused n =>
      refine ⟨id, ?_⟩
      simp only [sendStep]
      cases (SessionHost.board g.session).isDone n <;> exact ⟨.follows rfl rfl, hsame⟩
  | looking n => exact ⟨id, .follows rfl rfl, hsame⟩
  | settling result =>
      refine ⟨(·.countAnswer (g.classify call.client result)), ?_⟩
      have hanswer := g.counter?_classify call.client result
      simp only [sendStep]
      cases result with
      | none => exact ⟨.answers rfl hanswer, rfl⟩
      | some r => cases r <;> exact ⟨.answers rfl hanswer, rfl⟩

omit [SessionHost σ] in
/-- Whoever finds a gate shut leaves it as it is. -/
theorem clients_shut_of_not_isOpen {n : Nat} (h : g.isOpen n = false) :
    (g.shut n).clients = g.clients := by
  refine Array.ext_getElem? fun m => ?_
  have hshut := g.client?_shut n m
  unfold client? at hshut
  rw [hshut]
  by_cases hm : m = n
  · subst hm
    rw [if_pos rfl]
    unfold isOpen client? at h
    cases hc : g.clients[m]? with
    | none => rfl
    | some c =>
        rw [hc] at h
        obtain ⟨id, ⟨closed⟩, stats⟩ := c
        have hclosed : closed = true := by simpa using h
        rw [hclosed]
        rfl
  · rw [if_neg hm]

/-- In its first step a close comes to the gate, and leaves it shut. -/
theorem moves_closeStep (n : Nat) {stage : CloseStage} (hstage : stage ≠ .closing) :
    match g.closeStep n stage with
    | .next stage' g' =>
        CloseMoves (g.isOpen n) (.going stage) (.going stage') stage.isGate false ∧
        g'.clients = if stage.isGate then (g.shut n).clients else g.clients
    | .done answer g' =>
        CloseMoves (g.isOpen n) (.going stage) (.returned answer) stage.isGate false ∧
        g'.clients = if stage.isGate then (g.shut n).clients else g.clients := by
  cases stage with
  | closing => exact absurd rfl hstage
  | removing => exact ⟨.goes (.inr rfl) (.inr rfl), rfl⟩
  | reading =>
      simp only [closeStep]
      split
      · rename_i stage' g' heq
        split at heq <;> cases heq
        · exact ⟨.goes (.inl rfl) (.inl rfl), rfl⟩
        · exact ⟨.goes (.inl rfl) (.inr rfl), rfl⟩
      · rename_i answer g' heq
        split at heq <;> cases heq
  | gate forced =>
      cases forced with
      | true => exact ⟨.forces, rfl⟩
      | false =>
          simp only [closeStep]
          cases hn : g.client? n with
          | none =>
              have hshut : g.isOpen n = false := by
                unfold isOpen
                rw [hn]
                rfl
              exact ⟨.loses hshut, (g.clients_shut_of_not_isOpen hshut).symm⟩
          | some c =>
              have hopen : g.isOpen n = !c.gate.isClosed := by
                unfold isOpen
                rw [hn]
                rfl
              cases hgate : c.gate.isClosed with
              | true =>
                  rw [hgate] at hopen
                  simp only [Gate.close, hgate]
                  exact ⟨.loses hopen, (g.clients_shut_of_not_isOpen hopen).symm⟩
              | false =>
                  rw [hgate] at hopen
                  simp only [Gate.close, hgate]
                  exact ⟨.wins hopen, rfl⟩

end ClientGroup

/-! ## Counting calls -/

/-- How a count over a list changes with one of its members. -/
theorem countP_set_add {α : Type} (p : α → Bool) {l : List α} {k : Nat} {a : α} (b : α)
    (h : l[k]? = some a) :
    (l.set k b).countP p + (p a).toNat = l.countP p + (p b).toNat := by
  induction l generalizing k with
  | nil => cases h
  | cons x xs ih =>
      cases k with
      | zero =>
          obtain rfl := Option.some.inj h
          simp only [List.set_cons_zero, List.countP_cons]
          cases p x <;> cases p b <;> simp
      | succ k =>
          have hrest := ih h
          simp only [List.set_cons_succ, List.countP_cons]
          omega

/-- A count splits as its members do. -/
theorem countP_eq_add {α : Type} {p q r : α → Bool} {l : List α}
    (h : ∀ a ∈ l, (p a).toNat = (q a).toNat + (r a).toNat) :
    l.countP p = l.countP q + l.countP r := by
  induction l with
  | nil => rfl
  | cons x xs ih =>
      have hx := h x (List.mem_cons_self ..)
      have hxs := ih fun a ha => h a (List.mem_cons_of_mem x ha)
      simp only [List.countP_cons, hxs]
      cases hp : p x <;> cases hq : q x <;> cases hr : r x <;>
        simp [hp, hq, hr] at hx ⊢ <;> omega

/-! ## Calls, and what is known of them -/

/-- A close of a client, told from all others. -/
structure CloseMark where
  number : Nat
  client : Nat
  forced : Bool
  deriving DecidableEq, Repr

namespace Dealings

/-- A send that was begun through a client. -/
structure Send where
  call : SendCall
  stage : CallStage := .going .opening

/-- A close that was begun through a client. -/
structure Close where
  client : Nat
  forced : Bool
  stage : ShutStage

/-- The close with its number. -/
def Close.mark (c : Close) (j : Nat) : CloseMark := ⟨j, c.client, c.forced⟩

end Dealings

/-- The clients of a session, all calls ever begun through them, and what an observer
has written down. -/
structure Dealings (σ : Type) where
  group : ClientGroup σ
  sends : List Dealings.Send := []
  closes : List Dealings.Close := []
  /-- The sends that handed their payloads to the session, in order. -/
  handed : List Nat := []
  /-- The closes that came to the gates of their clients, in order. -/
  arrivals : List CloseMark := []
  /-- The closes that called the session's close, in order. -/
  closings : List CloseMark := []

namespace Dealings

section Steps

variable {σ : Type} [SessionHost σ]

/-- A send does its next step; nothing if it waits for the session or is over. -/
def sendOn (v : Dealings σ) (k : Nat) : Option (Dealings σ) :=
  match v.sends[k]? with
  | none => none
  | some c =>
    match c.stage with
    | .going .handing =>
      some { v with
        handed := v.handed ++ [k]
        sends := v.sends.set k { c with stage := .handed } }
    | .going stage =>
      match v.group.sendStep c.call stage with
      | .next stage g =>
        some { v with group := g, sends := v.sends.set k { c with stage := .going stage } }
      | .done answer g =>
        some { v with group := g, sends := v.sends.set k { c with stage := .returned answer } }
      | .aborted => some { v with sends := v.sends.set k { c with stage := .aborted } }
    | .handed | .returned _ | .aborted => none

/-- A close does its next step; nothing if it waits for the session or is over. -/
def closeOn (v : Dealings σ) (j : Nat) : Option (Dealings σ) :=
  match v.closes[j]? with
  | none => none
  | some c =>
    match c.stage with
    | .going .closing =>
      some { v with
        closings := v.closings ++ [c.mark j]
        closes := v.closes.set j { c with stage := .handed v.closings.length } }
    | .going stage =>
      let arrivals := if stage.isGate then v.arrivals ++ [c.mark j] else v.arrivals
      match v.group.closeStep c.client stage with
      | .next stage g =>
        some { v with
          group := g
          arrivals := arrivals
          closes := v.closes.set j { c with stage := .going stage } }
      | .done answer g =>
        some { v with
          group := g
          arrivals := arrivals
          closes := v.closes.set j { c with stage := .returned answer } }
    | .handed _ | .returned _ => none

/-- One step of a call, or anything that others do. -/
inductive Step (v : Dealings σ) : Dealings σ → Prop
  /-- The session does something, or an ack leaves a note. -/
  | session (s : σ) (notes : List AckNote) :
      Step v { v with group := { v.group with session := s, notes := notes } }
  | binds (id : ClientId) : Step v { v with group := (v.group.bindAs id).2 }
  | sends (call : SendCall) (hn : call.client < v.group.clients.size) :
      Step v { v with sends := v.sends ++ [{ call := call }] }
  | sendGoes {k : Nat} {v' : Dealings σ} (h : v.sendOn k = some v') : Step v v'
  /-- The session's send returns. -/
  | sendReturns {k : Nat} {c : Send} (n : Nat) (hk : v.sends[k]? = some c)
      (hs : c.stage = .handed) :
      Step v { v with sends := v.sends.set k { c with stage := .going (c.call.afterHanding n) } }
  /-- The session aborts the caller. -/
  | sendAborts {k : Nat} {c : Send} (hk : v.sends[k]? = some c) (hs : c.stage = .handed) :
      Step v { v with sends := v.sends.set k { c with stage := .aborted } }
  | closes (n : Nat) (forced : Bool) (hn : n < v.group.clients.size) :
      Step v { v with closes := v.closes ++ [⟨n, forced, .going (.gate forced)⟩] }
  | closeGoes {j : Nat} {v' : Dealings σ} (h : v.closeOn j = some v') : Step v v'
  /-- The session's close returns. -/
  | closeReturns {j i : Nat} {c : Close} (hj : v.closes[j]? = some c)
      (hs : c.stage = .handed i) :
      Step v { v with closes := v.closes.set j { c with stage := .returned true } }

/-- From one moment to a later one. -/
abbrev Steps : Dealings σ → Dealings σ → Prop := Relation.ReflTransGen Step

/-- At the beginning the session has no clients, and no call was begun. -/
inductive Begins : Dealings σ → Prop
  | start (s : σ) : Begins { group := { session := s } }

/-- The dealings are at some moment of their course. -/
abbrev Reached (v : Dealings σ) : Prop := Reachable Begins Step v

/-- Handing a payload over without interruption is the step of `ClientGroup.sendStep`, and
the observer notes it once. -/
theorem steps_handing {v : Dealings σ} {k : Nat} {c : Send} {stage : SendStage}
    {g : ClientGroup σ} (hk : v.sends[k]? = some c) (hs : c.stage = .going .handing)
    (h : v.group.sendStep c.call .handing = .next stage g) :
    Steps v { v with
      group := g
      handed := v.handed ++ [k]
      sends := v.sends.set k { c with stage := .going stage } } := by
  simp only [ClientGroup.sendStep] at h
  split at h
  · cases h
  · rename_i n s hsend
    cases h
    have hlt := (List.getElem?_eq_some_iff.1 hk).1
    have hgo : v.sendOn k = some { v with
        handed := v.handed ++ [k], sends := v.sends.set k { c with stage := .handed } } := by
      simp only [sendOn, hk, hs]
    have hhanded : Steps v _ := .single (.sendGoes hgo)
    have hsent := hhanded.tail (.session s v.group.notes)
    have hreturned := hsent.tail (.sendReturns (k := k) (c := { c with stage := .handed }) n
      (List.getElem?_set_self hlt) rfl)
    rw [List.set_set] at hreturned
    exact hreturned

/-- Closing the session without interruption is the step of `ClientGroup.closeStep`, and
the observer notes it once. -/
theorem steps_closing {v : Dealings σ} {j : Nat} {c : Close} {answer : Bool}
    {g : ClientGroup σ} (hj : v.closes[j]? = some c) (hs : c.stage = .going .closing)
    (h : v.group.closeStep c.client .closing = .done answer g) :
    Steps v { v with
      group := g
      closings := v.closings ++ [c.mark j]
      closes := v.closes.set j { c with stage := .returned answer } } := by
  cases h
  have hlt := (List.getElem?_eq_some_iff.1 hj).1
  have hgo : v.closeOn j = some { v with
      closings := v.closings ++ [c.mark j]
      closes := v.closes.set j { c with stage := .handed v.closings.length } } := by
    simp only [closeOn, hj, hs]
  have hhanded : Steps v _ := .single (.closeGoes hgo)
  have hclosed := hhanded.tail (.session (SessionHost.close v.group.session).2 v.group.notes)
  have hreturned := hclosed.tail (.closeReturns (j := j)
    (c := { c with stage := .handed v.closings.length }) (List.getElem?_set_self hlt) rfl)
  rw [List.set_set] at hreturned
  exact hreturned

end Steps

/-! ## What a step does -/

variable {σ : Type} {v v' : Dealings σ}

/-- What a step does to the clients and to the calls. -/
inductive Effect (v : Dealings σ) : Dealings σ → Prop
  | aside (g : ClientGroup σ) (hg : g.clients = v.group.clients) :
      Effect v { v with group := g }
  | binds (g : ClientGroup σ) (id : ClientId)
      (hg : g.clients = v.group.clients.push { id := id }) : Effect v { v with group := g }
  | sends (call : SendCall) (hn : call.client < v.group.clients.size) :
      Effect v { v with sends := v.sends ++ [{ call := call }] }
  | sendMoves {k : Nat} {c : Send} {stage : CallStage} {t : Stats → Stats} {hands : Bool}
      (g : ClientGroup σ) (hk : v.sends[k]? = some c)
      (hm : SendMoves c.stage stage t hands)
      (hg : g.clients = (v.group.recount c.call.client t).clients) :
      Effect v { v with
        group := g
        sends := v.sends.set k { c with stage := stage }
        handed := if hands then v.handed ++ [k] else v.handed }
  | closes (n : Nat) (forced : Bool) (hn : n < v.group.clients.size) :
      Effect v { v with closes := v.closes ++ [⟨n, forced, .going (.gate forced)⟩] }
  | closeMoves {j : Nat} {c : Close} {stage : ShutStage} {arrives closes : Bool}
      (g : ClientGroup σ) (hj : v.closes[j]? = some c)
      (hm : CloseMoves (v.group.isOpen c.client) c.stage stage arrives closes)
      (hg : g.clients = if arrives then (v.group.shut c.client).clients else v.group.clients) :
      Effect v { v with
        group := g
        closes := v.closes.set j { c with stage := stage }
        arrivals := if arrives then v.arrivals ++ [c.mark j] else v.arrivals
        closings := if closes then v.closings ++ [c.mark j] else v.closings }

variable [SessionHost σ]

private theorem effect_sendOn {k : Nat} (h : v.sendOn k = some v') : v.Effect v' := by
  unfold sendOn at h
  split at h
  · cases h
  · rename_i c hk
    split at h
    · rename_i hs
      obtain rfl := Option.some.inj h
      have hmoves : SendMoves c.stage .handed id true := by
        rw [hs]
        exact .hands
      exact .sendMoves v.group hk hmoves (v.group.clients_recount_id _).symm
    · rename_i stage hstage hs
      obtain ⟨t, hmoves⟩ := v.group.moves_sendStep c.call hstage
      split at h
      · rename_i stage' g hstep
        obtain rfl := Option.some.inj h
        rw [hstep, ← hs] at hmoves
        exact .sendMoves g hk hmoves.1 hmoves.2
      · rename_i answer g hstep
        obtain rfl := Option.some.inj h
        rw [hstep, ← hs] at hmoves
        exact .sendMoves g hk hmoves.1 hmoves.2
      · rename_i hstep
        rw [hstep] at hmoves
        exact hmoves.elim
    · cases h
    · cases h
    · cases h

private theorem effect_closeOn {j : Nat} (h : v.closeOn j = some v') : v.Effect v' := by
  unfold closeOn at h
  split at h
  · cases h
  · rename_i c hj
    split at h
    · rename_i hs
      obtain rfl := Option.some.inj h
      have hmoves : CloseMoves (v.group.isOpen c.client) c.stage
          (.handed v.closings.length) false true := by
        rw [hs]
        exact .closes _
      exact .closeMoves v.group hj hmoves rfl
    · rename_i stage hstage hs
      have hmoves := v.group.moves_closeStep c.client hstage
      dsimp only at h
      split at h
      · rename_i stage' g hstep
        obtain rfl := Option.some.inj h
        rw [hstep, ← hs] at hmoves
        exact .closeMoves g hj hmoves.1 hmoves.2
      · rename_i answer g hstep
        obtain rfl := Option.some.inj h
        rw [hstep, ← hs] at hmoves
        exact .closeMoves g hj hmoves.1 hmoves.2
    · cases h
    · cases h

theorem effect_of_step (h : v.Step v') : v.Effect v' := by
  cases h with
  | session s notes => exact .aside _ rfl
  | binds id => exact .binds _ id (v.group.clients_bindAs id)
  | sends call hn => exact .sends call hn
  | sendGoes h => exact effect_sendOn h
  | sendReturns n hk hs =>
      rename_i k c
      have hmoves : SendMoves c.stage (.going (c.call.afterHanding n)) id false := by
        rw [hs]
        exact .gets _ n
      exact .sendMoves v.group hk hmoves (v.group.clients_recount_id _).symm
  | sendAborts hk hs =>
      rename_i k c
      have hmoves : SendMoves c.stage .aborted id false := by
        rw [hs]
        exact .aborts
      exact .sendMoves v.group hk hmoves (v.group.clients_recount_id _).symm
  | closes n forced hn => exact .closes n forced hn
  | closeGoes h => exact effect_closeOn h
  | closeReturns hj hs =>
      rename_i j i c
      have hmoves : CloseMoves (v.group.isOpen c.client) c.stage (.returned true) false false := by
        rw [hs]
        exact .returns i
      exact .closeMoves v.group hj hmoves rfl

/-! ## Later moments -/

omit [SessionHost σ] in
/-- Whoever came to a gate has come there, and no client goes away. -/
theorem Effect.grows (hs : v.Effect v') :
    v.arrivals <+: v'.arrivals ∧ v.group.clients.size ≤ v'.group.clients.size := by
  cases hs with
  | aside g hg => exact ⟨List.prefix_rfl, Nat.le_of_eq (congrArg Array.size hg.symm)⟩
  | binds g id hg =>
      refine ⟨List.prefix_rfl, ?_⟩
      rw [hg, Array.size_push]
      exact Nat.le_succ _
  | sends call hn => exact ⟨List.prefix_rfl, Nat.le_refl _⟩
  | sendMoves g hk hm hg =>
      refine ⟨List.prefix_rfl, Nat.le_of_eq ?_⟩
      rw [hg, ClientGroup.size_recount]
  | closes n forced hn => exact ⟨List.prefix_rfl, Nat.le_refl _⟩
  | closeMoves g hj hm hg =>
      rename_i arrives closes
      cases arrives with
      | true =>
          refine ⟨List.prefix_append _ _, Nat.le_of_eq ?_⟩
          rw [hg, if_pos rfl, ClientGroup.size_shut]
      | false => exact ⟨List.prefix_rfl, Nat.le_of_eq (congrArg Array.size hg.symm)⟩

theorem Steps.grows (hs : Steps v v') :
    v.arrivals <+: v'.arrivals ∧ v.group.clients.size ≤ v'.group.clients.size := by
  induction hs with
  | refl => exact ⟨List.prefix_rfl, Nat.le_refl _⟩
  | tail _ hs ih =>
      have hgrows := (effect_of_step hs).grows
      exact ⟨ih.1.trans hgrows.1, Nat.le_trans ih.2 hgrows.2⟩

end Dealings

end PeerLink
