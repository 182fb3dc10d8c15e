import PeerLink.Proofs.Client.World

/-!
# Who is bound to a session

A session has one client slot, and any number of clients may have been bound to it.  A
client that closes looks whether the slot holds its own identity, and only then empties
it, in a step of its own.  Another client may be bound in between, and then its identity
is what the step removes.

Nobody is bound with an identity that a client has had.  So what a close removes is its
own identity, or that of a client that was bound after the close had looked; if none was,
the close has emptied its own slot or an empty one.

## Main results

* `World.bindingEffect_of_step` — what a step does to the client slot.
* `World.Undisturbed.has_looked` — a close that is about to empty the slot has found its
  own identity there.
* `World.close_unbinds_itself_or_a_newcomer` — whose identity a close removes.
-/

namespace PeerLink

/-! ## The slot and the identities -/

/-- The client slot of a session, and the clients that were ever bound to it. -/
structure Binding where
  slot : Option SlotValue
  /-- How many clients were ever bound. -/
  size : Nat
  id? : Nat → Option ClientId

namespace Session

/-- A step of a close of the session leaves the client slot as it is. -/
theorem client_closeStep (s : Session) (reason : Option String) (mode : Mode)
    (stage : ClosingStage) :
    (s.closeStep reason mode stage).2.slots.client = s.slots.client := by
  cases stage with
  | claiming =>
      simp only [closeStep, claimClose]
      cases s.closed <;> rfl
  | recording => cases reason <;> rfl
  | publishing | done effective => rfl

end Session

/-- The session's own steps leave the client slot as it is. -/
theorem Run.client_of_step {w w' : Run} {e : RunEvent} (h : w.step? e = some w')
    (he : ∀ call, e ≠ .outside call) :
    w'.session.slots.client = w.session.slots.client := by
  cases e with
  | send p | close | tick now =>
      obtain rfl := Option.some.inj h
      rfl
  | look i =>
      obtain ⟨p, -, ⟨e, journal, -, rfl⟩ | ⟨bytes, -, rfl⟩ | rfl⟩ := looking_of_look h <;> rfl
  | enqueue i =>
      obtain ⟨p, bytes, -, ⟨-, rfl⟩ | ⟨-, rfl⟩⟩ := queueing_of_enqueue h <;> rfl
  | closeStep i =>
      obtain ⟨stage, -, rfl⟩ := stage_of_closeStep h
      exact Session.client_closeStep _ _ _ _
  | write =>
      obtain ⟨s, firing, hgoes, rfl⟩ := writerGoes_of_write h
      cases hgoes with
      | closes hw => exact Session.client_closeStep _ _ _ _
      | _ => rfl
  | take =>
      obtain ⟨r, queue, -, -, rfl⟩ := idle_of_take h
      rfl
  | put count =>
      obtain ⟨r, rest, flushed, -, -, -, rfl⟩ := writing_of_put h
      rfl
  | failWrite fault =>
      obtain ⟨r, rest, flushed, journal, -, rfl⟩ := writing_of_failWrite h
      rfl
  | read =>
      obtain ⟨s, hgoes, rfl⟩ := readerGoes_of_read h
      cases hgoes with
      | closes hr => exact Session.client_closeStep _ _ _ _
      | _ => rfl
  | got bytes =>
      simp only [step?] at h
      split at h
      · cases h
      · obtain ⟨-, rfl⟩ := reading_of_answerRead h
        rfl
  | atEnd | failRead fault =>
      obtain ⟨-, rfl⟩ := reading_of_answerRead h
      rfl
  | outside call => exact absurd rfl (he call)

namespace ClientGroup

variable (g : ClientGroup Run)

def binding : Binding where
  slot := g.session.session.slots.client
  size := g.clients.size
  id? n := (g.client? n).map Client.id

/-- A client may change without its identity. -/
private theorem binding_modify {n : Nat} {f : Client → Client} (hf : ∀ c, (f c).id = c.id) :
    (g.modify n f).binding = g.binding := by
  unfold binding
  rw [Binding.mk.injEq]
  refine ⟨rfl, Array.size_modify, funext fun m => ?_⟩
  rw [client?_modify]
  split
  · cases g.client? m with
    | none => rfl
    | some c => exact congrArg some (hf c)
  · rfl

private theorem binding_bindAs (id : ClientId) :
    (g.bindAs id).2.binding =
      { slot := some (.owner id)
        size := g.clients.size + 1
        id? := fun m => if m = g.clients.size then some id else g.binding.id? m } := by
  have hslot : (g.bindAs id).2.session.session.slots.client = some (.owner id) := by
    unfold bindAs
    dsimp only
    split <;> rfl
  unfold binding
  rw [Binding.mk.injEq]
  refine ⟨hslot, by rw [clients_bindAs, Array.size_push], funext fun m => ?_⟩
  rw [client?_bindAs]
  split <;> rfl

/-- Only clients that were bound have an identity. -/
private theorem id?_lt {n : Nat} {id : ClientId} (h : g.binding.id? n = some id) :
    n < g.binding.size := by
  obtain ⟨c, hc, -⟩ := Option.map_eq_some_iff.1 h
  exact (Array.getElem?_eq_some_iff.1 hc).1

private theorem id?_ne_of_isFresh {id : ClientId} (h : g.isFresh id = true) (n : Nat) :
    g.binding.id? n ≠ some id := by
  intro hid
  obtain ⟨c, hc, hsame⟩ := Option.map_eq_some_iff.1 hid
  exact isFresh_iff.1 h n c hc hsame

/-- What a send does by itself leaves the binding alone. -/
private theorem binding_sendStep (call : SendCall) {stage : SendStage}
    (hstage : stage ≠ .handing) :
    match g.sendStep call stage with
    | .next _ g' | .done _ g' => g'.binding = g.binding
    | .aborted => True := by
  cases stage with
  | handing => exact absurd rfl hstage
  | opening =>
      simp only [sendStep]
      cases call.target with
      | some target => rfl
      | none =>
          simp only
          split
          · rename_i stage' g' heq
            split at heq <;> cases heq
            rfl
          · rename_i answer g' heq
            split at heq <;> cases heq
            rfl
          · trivial
  | counting => exact binding_modify g fun c => rfl
  | registering n =>
      simp only [sendStep]
      cases call.ack with
      | none => rfl
      | some ack =>
          cases hb : (SessionHost.board g.session).onComplete n ack with
          | mk taken board =>
              simp only [hb]
              cases taken <;> rfl
  | refused n =>
      simp only [sendStep]
      split
      · rename_i stage' g' heq
        split at heq <;> cases heq <;> rfl
      · rename_i answer g' heq
        split at heq <;> cases heq
      · trivial
  | looking n => rfl
  | settling result =>
      simp only [sendStep]
      cases result with
      | none => exact binding_modify g fun c => rfl
      | some r =>
          cases r with
          | ok => exact binding_modify g fun c => rfl
          | error e => exact binding_modify (g.log .debug _) fun c => rfl

/-- A close empties the slot in one of its steps, and leaves the binding alone in the
others. -/
private theorem binding_closeStep {n : Nat} {stage : CloseStage} (hstage : stage ≠ .closing) :
    match g.closeStep n stage with
    | .next _ g' | .done _ g' =>
      g'.binding = if stage = .removing then { g.binding with slot := none }
        else g.binding := by
  cases stage with
  | closing => exact absurd rfl hstage
  | removing => rfl
  | reading =>
      simp only [closeStep]
      split
      · rename_i g' heq
        split at heq <;> cases heq <;> rfl
      · rename_i g' heq
        split at heq <;> cases heq
  | gate forced =>
      cases forced with
      | true => exact binding_modify g fun c => rfl
      | false =>
          simp only [closeStep]
          cases hn : g.client? n with
          | none => rfl
          | some c =>
              cases hgate : c.gate.close with
              | mk answer gate =>
                  simp only [hgate]
                  cases answer with
                  | true => exact binding_modify g fun c => rfl
                  | false => rfl

/-- A close goes on to empty the slot when it has found its own identity there. -/
private theorem reading_of_closeStep {n : Nat} {stage : CloseStage} {g' : ClientGroup Run}
    (h : g.closeStep n stage = .next .removing g') :
    stage = .reading ∧ ∃ id, g.binding.slot = some (.owner id) ∧ g.binding.id? n = some id := by
  cases stage with
  | closing | removing => cases h
  | gate forced =>
      cases forced with
      | true => cases h
      | false =>
          simp only [closeStep] at h
          split at h
          · cases h
          · split at h <;> cases h
  | reading =>
      refine ⟨rfl, ?_⟩
      simp only [closeStep] at h
      split at h
      · rename_i hown
        rw [Bool.and_eq_true, beq_iff_eq] at hown
        obtain ⟨hsome, hsame⟩ := hown
        obtain ⟨id, hid⟩ := Option.isSome_iff_exists.1 hsome
        obtain ⟨value, hvalue, howner⟩ := Option.bind_eq_some_iff.1 hid
        refine ⟨id, ?_, hsame.symm.trans hid⟩
        cases value with
        | owner id' =>
            obtain rfl := Option.some.inj howner
            exact hvalue
        | _ => cases howner
      · cases h

end ClientGroup

/-- Nobody but a client puts a value into the client slot. -/
def WorldEvent.sparesClient : WorldEvent → Bool
  | .session (.outside (.attach .client _)) => false
  | _ => true

namespace World

variable {v v' : World} {e : WorldEvent} {k n : Nat}

def binding (v : World) : Binding := v.group.binding

/-! ## Every step -/

/-- What a step does to the client slot. -/
inductive BindingEffect (v : World) (e : WorldEvent) (v' : World) : Prop
  | aside (h : v'.binding = v.binding)
  | binds (id : ClientId) (he : e = .bind id) (hfresh : ∀ n, v.binding.id? n ≠ some id)
      (h : v'.binding =
        { slot := some (.owner id)
          size := v.binding.size + 1
          id? := fun m => if m = v.binding.size then some id else v.binding.id? m })
  /-- A close does so, or somebody else. -/
  | empties (he : e = .session (.outside (.remove .client)) ∨ ∃ k n, e = .closeStep k ∧
        v.closes[k]? = some ⟨n, .going .removing⟩)
      (h : v'.binding = { v.binding with slot := none })
  | attaches (value : SlotValue) (he : e = .session (.outside (.attach .client value)))
      (h : v'.binding = { v.binding with slot := some value })

private theorem bindingEffect_sendStep (h : v.sendStep k = some v') :
    BindingEffect v e v' := by
  obtain ⟨c, -, hturn⟩ := sendTurn_of_sendStep h
  cases hturn with
  | hands | returns | aborts | stops => exact .aside rfl
  | next hs hstage hstep =>
      have hsame := v.group.binding_sendStep c.call hstage
      rw [hstep] at hsame
      exact .aside hsame
  | done hs hstage hstep =>
      have hsame := v.group.binding_sendStep c.call hstage
      rw [hstep] at hsame
      exact .aside hsame

private theorem bindingEffect_closeStep (h : v.closeStep k = some v') :
    BindingEffect v (.closeStep k) v' := by
  obtain ⟨c, hk, hturn⟩ := closeTurn_of_closeStep h
  have heffect {stage : CloseStage} (hs : c.stage = .going stage) (hbinding : v'.binding =
      if stage = .removing then { v.group.binding with slot := none } else v.group.binding) :
      BindingEffect v (.closeStep k) v' := by
    split at hbinding
    · rename_i hremoving
      subst hremoving
      refine .empties (.inr ⟨k, c.client, rfl, ?_⟩) hbinding
      rw [hk, ← hs]
    · exact .aside hbinding
  cases hturn with
  | hands | returns => exact .aside rfl
  | next hs hstage hstep =>
      have hgroup := v.group.binding_closeStep (n := c.client) hstage
      rw [hstep] at hgroup
      exact heffect hs hgroup
  | done hs hstage hstep =>
      have hgroup := v.group.binding_closeStep (n := c.client) hstage
      rw [hstep] at hgroup
      exact heffect hs hgroup

private theorem bindingEffect_outside (call : OutsideCall) :
    BindingEffect v (.session (.outside call))
      (v.setRun (v.run.setSession .caller (v.run.session.outside call))) := by
  cases call with
  | attach key value =>
      cases key with
      | client => exact .attaches value rfl rfl
      | lastError => exact .aside rfl
  | remove key =>
      cases key with
      | client => exact .empties (.inl rfl) rfl
      | lastError => exact .aside rfl
  | _ => exact .aside rfl

theorem bindingEffect_of_step (h : v.step? e = some v') : BindingEffect v e v' := by
  cases e with
  | bind id =>
      obtain ⟨hfresh, rfl⟩ := fresh_of_bind h
      exact .binds id rfl (v.group.id?_ne_of_isFresh hfresh) (v.group.binding_bindAs id)
  | send call =>
      obtain rfl := Option.some.inj h
      exact .aside rfl
  | sendStep k => exact bindingEffect_sendStep h
  | close client forced =>
      obtain rfl := Option.some.inj h
      exact .aside rfl
  | closeStep k => exact bindingEffect_closeStep h
  | session e =>
      obtain ⟨-, w, hw, rfl⟩ := run_of_session h
      by_cases houtside : ∃ call, e = .outside call
      · obtain ⟨call, rfl⟩ := houtside
        obtain rfl := Option.some.inj hw
        exact bindingEffect_outside call
      · have hclient := Run.client_of_step hw fun call he => houtside ⟨call, he⟩
        exact .aside (congrArg (fun slot => { v.binding with slot := slot }) hclient)

private theorem closes_sendStep (h : v.sendStep k = some v') : v'.closes = v.closes := by
  obtain ⟨c, -, hturn⟩ := sendTurn_of_sendStep h
  cases hturn <;> rfl

private theorem reading_closeStep {j : Nat} (h : v.closeStep j = some v')
    (hk : v'.closes[k]? = some ⟨n, .going .removing⟩) :
    v.closes[k]? = some ⟨n, .going .removing⟩ ∨
      v.closes[k]? = some ⟨n, .going .reading⟩ ∧
        ∃ id, v.binding.slot = some (.owner id) ∧ v.binding.id? n = some id := by
  obtain ⟨c, hj, hturn⟩ := closeTurn_of_closeStep h
  have hother {c' : ClientClose} (hset : (v.closes.set j c')[k]? =
      some ⟨n, .going .removing⟩) (hstage : c'.stage ≠ .going .removing) :
      v.closes[k]? = some ⟨n, .going .removing⟩ := by
    rcases getElem?_set_cases hset with ⟨-, rfl⟩ | ⟨-, hold⟩
    · exact absurd rfl hstage
    · exact hold
  cases hturn with
  | hands | returns | done => exact .inl (hother hk fun heq => by cases heq)
  | next hs hstage hstep =>
      rcases getElem?_set_cases hk with ⟨rfl, hnew⟩ | ⟨-, hold⟩
      · obtain ⟨rfl, hgoing⟩ := ClientClose.mk.inj hnew
        obtain rfl := ShutStage.going.inj hgoing
        obtain ⟨rfl, hown⟩ := v.group.reading_of_closeStep hstep
        exact .inr ⟨by rw [hj, ← hs], hown⟩
      · exact .inl hold

/-- A close that is about to empty the slot was so before, or has just found its own
identity there. -/
private theorem reading_of_step (h : v.step? e = some v')
    (hk : v'.closes[k]? = some ⟨n, .going .removing⟩) :
    v.closes[k]? = some ⟨n, .going .removing⟩ ∨
      v.closes[k]? = some ⟨n, .going .reading⟩ ∧
        ∃ id, v.binding.slot = some (.owner id) ∧ v.binding.id? n = some id := by
  cases e with
  | bind id =>
      obtain ⟨-, rfl⟩ := fresh_of_bind h
      exact .inl hk
  | send call =>
      obtain rfl := Option.some.inj h
      exact .inl hk
  | close client forced =>
      obtain rfl := Option.some.inj h
      rcases getElem?_concat_cases hk with hold | ⟨-, hnew⟩
      · exact .inl hold
      · cases hnew
  | session e =>
      obtain ⟨-, w, -, rfl⟩ := run_of_session h
      exact .inl hk
  | sendStep j =>
      rw [closes_sendStep h] at hk
      exact .inl hk
  | closeStep j => exact reading_closeStep h hk

/-! ## Whole runs -/

/-- From one moment to a later one, when nobody but clients uses the client slot. -/
abbrev Kept : World → World → Prop :=
  Relation.ReflTransGen (Leads (sparing WorldEvent.sparesClient step?))

/-- The world is a moment in the life of a session whose client slot is left to its
clients. -/
abbrev Undisturbed (v : World) : Prop :=
  Reachable Begins (Leads (sparing WorldEvent.sparesClient step?)) v

/-- A close that is about to empty the slot has looked, and its own identity was there. -/
theorem Undisturbed.has_looked (h : v.Undisturbed)
    (hk : v.closes[k]? = some ⟨n, .going .removing⟩) :
    ∃ v₀ id, v₀.Undisturbed ∧ Kept v₀ v ∧ v₀.closes[k]? = some ⟨n, .going .reading⟩ ∧
      v₀.binding.id? n = some id ∧ v₀.binding.slot = some (.owner id) := by
  obtain ⟨_, ⟨label, remote, config, now⟩, hs⟩ := h
  induction hs with
  | refl => cases hk
  | tail hs he ih =>
      rename_i v₁ v₂
      have hstep : Kept v₁ v₂ := .single he
      obtain ⟨e, -, he⟩ := leads_sparing.1 he
      rcases reading_of_step he hk with hbefore | ⟨hreading, id, hslot, hid⟩
      · obtain ⟨v₀, id, hundisturbed, hkept, hrest⟩ := ih hbefore
        exact ⟨v₀, id, hundisturbed, hkept.trans hstep, hrest⟩
      · have hundisturbed : v₁.Undisturbed := ⟨_, .start label remote config now, hs⟩
        exact ⟨v₁, id, hundisturbed, hstep, hreading, hid, hslot⟩

/-- A client was bound to the session since, with an identity that nobody had had. -/
def Newcomer (v v' : World) (id : ClientId) : Prop :=
  (∀ n, v.binding.id? n ≠ some id) ∧
    ∃ m, v.binding.size ≤ m ∧ m < v'.binding.size ∧ v'.binding.id? m = some id

/-- What the slot may hold later: nothing, the same, or a client that was bound since.
Clients keep their identities. -/
theorem Kept.slot (hs : Kept v v') :
    (v.binding.size ≤ v'.binding.size ∧
      ∀ n id, v.binding.id? n = some id → v'.binding.id? n = some id) ∧
      (v'.binding.slot = none ∨ v'.binding.slot = v.binding.slot ∨
        ∃ id, v'.binding.slot = some (.owner id) ∧ v.Newcomer v' id) := by
  induction hs with
  | refl => exact ⟨⟨Nat.le_refl _, fun _ _ => id⟩, .inr (.inl rfl)⟩
  | tail hs he ih =>
      rename_i v₁ v₂
      obtain ⟨e, hspare, he⟩ := leads_sparing.1 he
      obtain ⟨⟨hle, hids⟩, hslot⟩ := ih
      cases bindingEffect_of_step he with
      | aside h =>
          unfold Newcomer
          rw [h]
          exact ⟨⟨hle, hids⟩, hslot⟩
      | empties _ h =>
          rw [h]
          exact ⟨⟨hle, hids⟩, .inl rfl⟩
      | binds new _ hfresh h =>
          have hnew : v₂.binding.id? v₁.binding.size = some new := by
            rw [h]
            exact if_pos rfl
          refine ⟨⟨?_, fun n id hid => ?_⟩, .inr (.inr ⟨new, by rw [h], ?_, ?_⟩)⟩
          · rw [h]
            exact Nat.le_succ_of_le hle
          · have hlt := v₁.group.id?_lt (hids n id hid)
            rw [h]
            exact (if_neg (Nat.ne_of_lt hlt)).trans (hids n id hid)
          · exact fun n hn => hfresh n (hids n new hn)
          · refine ⟨v₁.binding.size, hle, ?_, hnew⟩
            rw [h]
            exact Nat.lt_succ_self _
      | attaches value heq _ =>
          rw [heq] at hspare
          cases hspare

/-- A step of a close, forced or not, leaves the client slot as it is, or it empties it.
In that case the close has found its own identity there at an earlier moment, and what it
removes now is nothing, that identity, or the identity of a client that was bound
since, which is another one. -/
theorem close_unbinds_itself_or_a_newcomer (h : v.Undisturbed)
    (he : v.step? (.closeStep k) = some v') :
    v'.binding.slot = v.binding.slot ∨
      v'.binding.slot = none ∧ ∃ v₀ n id, v.closes[k]? = some ⟨n, .going .removing⟩ ∧
        v₀.Undisturbed ∧ Kept v₀ v ∧ v₀.closes[k]? = some ⟨n, .going .reading⟩ ∧
        v₀.binding.id? n = some id ∧ v.binding.id? n = some id ∧
        v₀.binding.slot = some (.owner id) ∧
        (v.binding.slot = none ∨ v.binding.slot = some (.owner id) ∨
          ∃ other, v.binding.slot = some (.owner other) ∧ other ≠ id ∧
            v₀.Newcomer v other) := by
  cases bindingEffect_of_step he with
  | aside hsame =>
      rw [hsame]
      exact .inl rfl
  | binds id heq _ _ => cases heq
  | attaches value heq _ => cases heq
  | empties hcause hempty =>
      right
      rcases hcause with heq | ⟨j, n, heq, hj⟩
      · cases heq
      · cases heq
        obtain ⟨v₀, id, hundisturbed, hkept, hreading, hid, hslot⟩ := h.has_looked hj
        obtain ⟨⟨-, hids⟩, hlater⟩ := Kept.slot hkept
        refine ⟨by rw [hempty], v₀, n, id, hj, hundisturbed, hkept, hreading, hid,
          hids n id hid, hslot, ?_⟩
        rcases hlater with hnone | hsame | ⟨other, hother, hnew⟩
        · exact .inl hnone
        · exact .inr (.inl (hsame.trans hslot))
        · refine .inr (.inr ⟨other, hother, ?_, hnew⟩)
          rintro rfl
          exact hnew.1 n hid

/-- A client closes, and has found its own identity in the slot. -/
def leaving : World :=
  (start "1" none {} default).after [.bind ⟨7⟩, .close 0 false, .closeStep 0, .closeStep 0]

private theorem undisturbed_leaving : leaving.Undisturbed :=
  ⟨_, .start _ _ _ _, steps_sparing_after (by decide) _⟩

theorem leaving_unbinds_itself :
    leaving.Undisturbed ∧ ∃ v' v₀ n id, leaving.step? (.closeStep 0) = some v' ∧
      leaving.binding.slot = some (.owner ⟨7⟩) ∧ v'.binding.slot = none ∧
      leaving.closes[0]? = some ⟨n, .going .removing⟩ ∧ Kept v₀ leaving ∧
      leaving.binding.id? n = some id ∧ v₀.binding.slot = some (.owner id) := by
  have hslot : leaving.binding.slot = some (.owner ⟨7⟩) := rfl
  obtain ⟨v', hstep, hempty⟩ :
      ∃ v', leaving.step? (.closeStep 0) = some v' ∧ v'.binding.slot = none := ⟨_, rfl, rfl⟩
  rcases close_unbinds_itself_or_a_newcomer undisturbed_leaving hstep with
    hsame | ⟨-, v₀, n, id, hat, -, hkept, -, -, hid, hfound, -⟩
  · rw [hempty, hslot] at hsame
    cases hsame
  · exact ⟨undisturbed_leaving, v', v₀, n, id, hstep, hslot, hempty, hat, hkept, hid, hfound⟩

/-- Another client is bound before the first one empties the slot. -/
def succeeded : World := leaving.after [.bind ⟨3⟩]

/-- The close of the first client unbinds the second, which is open, and so is the
session. -/
theorem close_unbinds_successor :
    succeeded.Undisturbed ∧
      succeeded.closes[0]? = some ⟨0, .going .removing⟩ ∧
      succeeded.binding.id? 0 = some ⟨7⟩ ∧ succeeded.binding.id? 1 = some ⟨3⟩ ∧
      succeeded.binding.slot = some (.owner ⟨3⟩) ∧
      (succeeded.group.client? 1).map (fun c => c.gate.isClosed) = some false ∧
      succeeded.run.session.closed = false ∧
      ∃ v', succeeded.step? (.closeStep 0) = some v' ∧ v'.binding.slot = none :=
  ⟨undisturbed_leaving.steps (steps_sparing_after (by decide) _), rfl, rfl, rfl, rfl, rfl, rfl, _,
    rfl, rfl⟩

end World

end PeerLink
