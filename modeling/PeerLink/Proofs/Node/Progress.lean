import PeerLink.Proofs.Node.Dispatch

/-!
# How a sending node stands

What a node has counted, and what its acks have noted, can be said without asking where
the node is: `Dispatch.Account` holds of it at every moment, and every step keeps it,
whether the node, its session or an ack takes it.

Where the node is, is the other half.  All its sends but the last were answered so that it
went on, and the last one may still be under way or have made the node stop.
`Dispatch.Shape` says this for each stage, and `Dispatch.Sound` has both halves, with the
reason why no send is turned away: nobody else closes the client while the node sends.

## Main results

* `Dispatch.Account.sendGoes` — a send counts itself, and its answer.
* `Dispatch.Account.hear_cases` — an ack leaves a note with the number of its send.
* `Dispatch.Reached.sound` — what holds of a node at every moment.
* `Dispatch.Sound.follows` — whatever `Sender.step` and `Sender.resolve` make of a node, it
  can come to by its own steps.
-/

namespace PeerLink

/-! ## How the node stands -/

namespace ClientSend

/-- The send was answered so that the node goes on with the next message. -/
def GoesOn (c : ClientSend) : Prop :=
  c.stage.answer? = some .accepted ∨ c.stage.answer? = some .inFlight

/-- The send was answered so that the node stops. -/
def Breaks (c : ClientSend) : Prop :=
  c.stage.answer? = some .reconnects ∨ c.stage.answer? = some .rejected

/-- The send is at a stage, where it may wait for the session, perhaps forever. -/
def IsAt (c : ClientSend) (stage : SendStage) : Prop :=
  c.stage = .going stage ∨ stage = .handing ∧ (c.stage = .handed ∨ c.stage = .aborted)

/-- A send that hands its payload over, or has done so, is at no other stage. -/
theorem IsAt.eq_handing {c : ClientSend} {stage : SendStage} (hat : c.IsAt stage)
    (h : c.stage = .going .handing ∨ c.stage = .handed) : stage = .handing := by
  rcases hat with hgoing | ⟨hstage, -⟩
  · rcases h with hhands | hhanded
    · exact (CallStage.going.inj (hhands.symm.trans hgoing)).symm
    · rw [hhanded] at hgoing
      cases hgoing
  · exact hstage

end ClientSend

/-- The close is at a stage, where it may wait for the session. -/
def ClientClose.IsAt (c : ClientClose) (stage : CloseStage) : Prop :=
  c.stage = .going stage ∨ stage = .closing ∧ ∃ i, c.stage = .handed i

namespace Dispatch

/-- How far the node is with its messages: all sends but the last were answered so that it went
on, and the last one is where the node is. -/
inductive Shape (sends : List ClientSend) (answered count : Nat) : SenderStage → Prop
  | between (hs : ∀ c ∈ sends, c.GoesOn) (ha : answered = sends.length) (hc : answered ≤ count) :
      Shape sends answered count .between
  | sending {earlier : List ClientSend} {c : ClientSend} {stage : SendStage}
      (hs : sends = earlier ++ [c]) (he : ∀ x ∈ earlier, x.GoesOn) (hat : c.IsAt stage)
      (ha : answered = earlier.length) (hc : answered < count) :
      Shape sends answered count (.sending stage)
  | closing {earlier : List ClientSend} {c : ClientSend} (stage : CloseStage)
      (hs : sends = earlier ++ [c]) (he : ∀ x ∈ earlier, x.GoesOn) (hb : c.Breaks)
      (ha : answered = earlier.length + 1) (hc : answered ≤ count) :
      Shape sends answered count (.closing stage)
  | broken {earlier : List ClientSend} {c : ClientSend}
      (hs : sends = earlier ++ [c]) (he : ∀ x ∈ earlier, x.GoesOn) (hb : c.Breaks)
      (ha : answered = earlier.length + 1) (hc : answered ≤ count) :
      Shape sends answered count (.ended true)
  | finished (hs : ∀ c ∈ sends, c.GoesOn) (ha : answered = sends.length)
      (hc : answered = count) : Shape sends answered count (.ended false)

/-- The note that the ack of a sending node leaves when it is run. -/
def noteOf (f : Firing) : Option AckNote :=
  match f.ack with
  | .watch k => some (.watched k f.result)
  | .silent | .tell _ _ _ => none

/-- What holds of the calls, the counters and the notes of a node, wherever it is. -/
structure Account (v : Dispatch) : Prop where
  world : v.world.Reached
  /-- Each send has a message and the ack with its number. -/
  calls : ∀ k c, v.sends[k]? = some c → c.call = { v.sender with answered := k }.call
  /-- The client of the node has counted the sends of the node. -/
  counted : ∃ c, v.sender.group.client? v.sender.client = some c ∧ ∀ f,
    c.stats.read f = v.sends.countP (·.stage.hasCounted f) % UInt64.size
  /-- The acks that were run have left their notes, up to some of them. -/
  notes : v.sender.group.notes = ((v.run.fired.take v.heard).filterMap noteOf).reverse
  heard : v.heard ≤ v.run.fired.length
  count : v.sender.count < UInt32.size

variable {v v' : Dispatch} {w : World}

namespace Account

/-- Where the node is does not matter. -/
theorem staged (h : v.Account) (answered : Nat) (stage : SenderStage) :
    Account { v with sender := { v.sender with answered := answered, stage := stage } } :=
  ⟨h.world, h.calls, h.counted, h.notes, h.heard, h.count⟩

theorem become (h : v.Account) (hsteps : World.Steps v.world w) (hnotes : w.group.notes = [])
    (hcalls : ∀ (k : Nat) (c : ClientSend), w.sends[k]? = some c →
      ∃ c₀ : ClientSend, v.sends[k]? = some c₀ ∧ c.call = c₀.call)
    (hcounted : ∃ c, w.group.client? v.sender.client = some c ∧ ∀ f,
      c.stats.read f = w.sends.countP (·.stage.hasCounted f) % UInt64.size) :
    (v.become w).Account where
  world := by
    rw [world_become hnotes]
    exact h.world.steps hsteps
  calls k c hk := by
    obtain ⟨c₀, hk₀, hcall⟩ := hcalls k c hk
    rw [hcall, h.calls k c₀ hk₀]
    rfl
  counted := hcounted
  notes := by
    have hprefix : v.run.fired <+: (v.become w).run.fired := hsteps.run.fired
    obtain ⟨more, hmore⟩ := hprefix
    have hsame : (v.become w).sender.group.notes = v.sender.group.notes := rfl
    have hheard : (v.become w).heard = v.heard := rfl
    rw [hsame, hheard, h.notes, ← hmore, List.take_append_of_le_length h.heard]
  heard := Nat.le_trans h.heard hsteps.run.fired.length_le
  count := h.count

/-- The session goes on by itself. -/
theorem quietly (h : v.Account) {w : Run} (hq : Run.Quietly v.run w) :
    (v.become (v.world.setRun w)).Account :=
  h.become (World.steps_of_quietly hq) rfl (fun _ c hk => ⟨c, hk, rfl⟩) h.counted

theorem log (h : v.Account) (e : LogEntry) : Account { v with sender := v.sender.log e } :=
  h.quietly (Run.quietly_of_step (e := .outside (.log e)) rfl rfl)

theorem beginClose (h : v.Account) (forced : Bool) : (v.beginClose forced).Account where
  world := h.world.step (e := .close v.sender.client forced) rfl
  calls := h.calls
  counted := h.counted
  notes := h.notes
  heard := h.heard
  count := h.count

theorem take (h : v.Account) (answer : SendAnswer) : (v.take answer).Account := by
  have htaken : Account { v with sender := v.sender.take answer } :=
    (h.log (v.sender.answerEntry answer)).staged (v.sender.answered + 1)
      (Sender.stageAfter answer)
  unfold Dispatch.take
  dsimp only
  split
  · exact htaken.beginClose _
  · exact htaken

/-- The node begins a send. -/
theorem begin (h : v.Account) (ha : v.sender.answered = v.sends.length) :
    Account { v with sends := v.sends ++ [{ call := v.sender.call }] } where
  world := h.world.step (e := .send v.sender.call) rfl
  calls k c hk := by
    rcases getElem?_concat_cases hk with hold | ⟨rfl, rfl⟩
    · exact h.calls k c hold
    · rw [← ha]
  counted := by
    obtain ⟨c, hc, hread⟩ := h.counted
    refine ⟨c, hc, fun f => ?_⟩
    have hopening : (CallStage.going .opening).hasCounted f = false := by cases f <;> rfl
    rw [List.countP_append, List.countP_singleton, hopening]
    exact hread f
  notes := h.notes
  heard := h.heard
  count := h.count

/-- A send counts itself, and its answer, with the client of the node. -/
theorem sendGoes (h : v.Account) {k : Nat} {c c' : ClientSend} {t : Stats → Stats} {hands : Bool}
    (hsteps : World.Steps v.world w) (hgoes : World.SendGoes v.world w k c c' t hands) :
    (v.become w).Account := by
  have hthere : v.sends[k]? = some c := hgoes.there
  have hsends : w.sends = v.sends.set k c' := hgoes.sends
  refine h.become hsteps hgoes.notes (fun k' d hd => ?_) ?_
  · rw [hsends] at hd
    rcases getElem?_set_cases hd with ⟨rfl, rfl⟩ | ⟨-, hold⟩
    · exact ⟨c, hthere, hgoes.call⟩
    · exact ⟨d, hold, rfl⟩
  · obtain ⟨client, hclient, hread⟩ := h.counted
    have hcall : c.call.client = v.sender.client := by rw [h.calls k c hthere]; rfl
    have hsame : v.world.group.client? v.sender.client = some client := hclient
    refine ⟨{ client with stats := t client.stats }, ?_, fun f => ?_⟩
    · rw [ClientGroup.client?_of_clients hgoes.clients, ClientGroup.client?_recount, hcall,
        if_pos rfl, hsame]
      rfl
    · have hcount := countP_set_add (fun x : ClientSend => x.stage.hasCounted f) c' hthere
      rw [hsends]
      show (t client.stats).read f = _
      rcases hgoes.moves.tallies f with ⟨hsame, hstats⟩ | ⟨hbefore, hafter, hstats⟩
      · rw [hsame] at hcount
        rw [hstats, hread, Nat.add_right_cancel hcount]
      · rw [hbefore, hafter] at hcount
        rw [hstats, hread, Stats.next, Nat.mod_add_mod]
        exact congrArg (· % _) hcount.symm

/-- A close counts nothing. -/
theorem closeGoes (h : v.Account) {k : Nat} {c c' : ClientClose}
    (hsteps : World.Steps v.world w) (hgoes : World.CloseGoes v.world w k c c') :
    (v.become w).Account := by
  have hsends : w.sends = v.sends := hgoes.sends
  refine h.become hsteps hgoes.notes (fun k c hk => ⟨c, hsends ▸ hk, rfl⟩) ?_
  rw [hsends]
  obtain ⟨client, hclient, hread⟩ := h.counted
  have hsame : v.world.group.client? v.sender.client = some client := hclient
  rcases hgoes.clients with hclients | ⟨n, hclients⟩
  · exact ⟨client, by rw [ClientGroup.client?_of_clients hclients, hsame], hread⟩
  · have hshut := v.world.group.client?_shut n v.sender.client
    rw [← ClientGroup.client?_of_clients hclients, hsame] at hshut
    by_cases hn : v.sender.client = n
    · rw [if_pos hn] at hshut
      exact ⟨_, hshut, hread⟩
    · rw [if_neg hn] at hshut
      exact ⟨_, hshut, hread⟩

/-- An ack that was run is that of a send which answers "in flight", and has its number. -/
theorem caller_of_fired (h : v.Account) {f : Firing} (hf : f ∈ v.run.fired) :
    ∃ (k : Nat) (c : ClientSend), v.sends[k]? = some c ∧ f.ack = .watch k ∧
      c.AnswersInFlight v.run f.operation f.ack := by
  obtain ⟨k, c, hk, hanswers⟩ := h.world.caller_of_fired hf
  have hasked := hanswers.asked
  rw [h.calls k c hk] at hasked
  exact ⟨k, c, hk, (Option.some.inj hasked).symm, hanswers⟩

end Account

theorem hear_watch (s : Sender Run) (k : Nat) (r : SendResult) :
    s.hear (.watch k) r = some ((Sender.ackEntry (.watched k r)).toList.foldl Sender.log
      { s with group := s.group.note (.watched k r) }) := by
  have hnew : (s.group.note (.watched k r)).notesSince s.group.notes.length =
      [.watched k r] := by
    simp [ClientGroup.notesSince, ClientGroup.note]
  have hentries : [AckNote.watched k r].filterMap Sender.ackEntry =
      (Sender.ackEntry (.watched k r)).toList := by
    cases r <;> rfl
  rw [← hentries, ← hnew]
  rfl

/-- An ack leaves its note, and changes nothing else but the log. -/
theorem Account.hear_cases (h : v.Account) (he : v.hear = some v') :
    v'.Account ∧ v'.sends = v.sends ∧ v'.closes = v.closes ∧
      v'.sender.group.clients = v.sender.group.clients ∧
      v'.sender.client = v.sender.client ∧ v'.sender.answered = v.sender.answered ∧
      v'.sender.count = v.sender.count ∧ v'.sender.stage = v.sender.stage := by
  unfold Dispatch.hear at he
  split at he
  · cases he
  · rename_i f hfired
    obtain ⟨k, c, hk, hack, -⟩ := h.caller_of_fired (List.mem_of_getElem? hfired)
    rw [hack, hear_watch, Option.map_some] at he
    have hnoted : Account { v with
        sender := { v.sender with group := v.sender.group.note (.watched k f.result) }
        heard := v.heard + 1 } := by
      refine ⟨h.world, h.calls, h.counted, ?_, ?_, h.count⟩
      · have hnotes : AckNote.watched k f.result :: v.sender.group.notes =
            ((v.run.fired.take (v.heard + 1)).filterMap noteOf).reverse := by
          rw [List.take_add_one, hfired, h.notes]
          simp [noteOf, hack]
        exact hnotes
      · exact (List.getElem?_eq_some_iff.1 hfired).1
    cases hr : f.result with
    | ok =>
        rw [hr] at he hnoted
        obtain rfl := Option.some.inj he
        exact ⟨hnoted, rfl, rfl, rfl, rfl, rfl, rfl, rfl⟩
    | error e =>
        rw [hr] at he hnoted
        obtain rfl := Option.some.inj he
        exact ⟨hnoted.log _, rfl, rfl, rfl, rfl, rfl, rfl, rfl⟩

/-- How far the node is with closing its client, before it is done with its messages. -/
def Shutting (closes : List ClientClose) (client : Nat) : SenderStage → Prop
  | .between | .sending _ => closes = []
  | .closing stage => ∃ c, closes = [c] ∧ c.client = client ∧ c.IsAt stage
  | .ended _ => True

/-- What holds of a node at every moment. -/
structure Sound (v : Dispatch) : Prop extends Account v where
  shape : Shape v.sends v.sender.answered v.sender.count v.sender.stage
  shutting : Shutting v.closes v.sender.client v.sender.stage
  /-- While the node sends, nobody has closed its client. -/
  isOpen : v.sender.stage.isLooping = true → v.sender.group.isOpen v.sender.client = true

namespace Sound

/-- Others leave the node where it is. -/
theorem aside (h : v.Sound) (ha : v'.Account) (hsends : v'.sends = v.sends)
    (hanswered : v'.sender.answered = v.sender.answered)
    (hcount : v'.sender.count = v.sender.count) (hstage : v'.sender.stage = v.sender.stage)
    (hshutting : Shutting v'.closes v'.sender.client v.sender.stage)
    (hopen : v.sender.stage.isLooping = true →
      v'.sender.group.isOpen v'.sender.client = v.sender.group.isOpen v.sender.client) :
    v'.Sound where
  toAccount := ha
  shape := by
    rw [hsends, hanswered, hcount, hstage]
    exact h.shape
  shutting := by
    rw [hstage]
    exact hshutting
  isOpen hlooping := by
    rw [hstage] at hlooping
    rw [hopen hlooping]
    exact h.isOpen hlooping

theorem hear (h : v.Sound) (he : v.hear = some v') : v'.Sound := by
  obtain ⟨ha, hsends, hcloses, hclients, hclient, hanswered, hcount, hstage⟩ := h.hear_cases he
  refine h.aside ha hsends hanswered hcount hstage ?_ fun _ => ?_
  · rw [hcloses, hclient]
    exact h.shutting
  · rw [hclient, ClientGroup.isOpen_of_clients hclients]

theorem session (h : v.Sound) {e : RunEvent} (he : v.step? (.session e) = some v') :
    v'.Sound := by
  obtain ⟨w, hw, rfl⟩ := Option.map_eq_some_iff.1 he
  simp only [World.step?] at hw
  split at hw
  · cases hw
  · rename_i hhooks
    obtain ⟨r, hr, rfl⟩ := Option.map_eq_some_iff.1 hw
    have hquietly := Run.quietly_of_step hr (by simpa using hhooks)
    exact h.aside (h.quietly hquietly) rfl rfl rfl rfl h.shutting fun _ => rfl

theorem not_isLooping_of_isEnded {stage : SenderStage} (h : stage.isEnded = true) :
    stage.isLooping = false := by
  cases stage with
  | ended early => rfl
  | between | sending s | closing s => cases h

/-- When the node is done with its messages, nothing is said of its closes any more. -/
theorem shutting_of_isEnded {stage : SenderStage} (h : stage.isEnded = true)
    {closes : List ClientClose} {client : Nat} : Shutting closes client stage := by
  cases stage with
  | ended early => trivial
  | between | sending s | closing s => cases h

theorem leave (h : v.Sound) {now : Duration} (he : v.step? (.leave now) = some v') :
    v'.Sound := by
  simp only [step?] at he
  split at he
  · rename_i hended
    obtain rfl := Option.some.inj he
    refine h.aside ((h.log _).beginClose false) rfl rfl rfl rfl ?_ fun _ => rfl
    exact shutting_of_isEnded hended
  · cases he

theorem leaveStep (h : v.Sound) {k : Nat} (he : v.step? (.leaveStep k) = some v') :
    v'.Sound := by
  simp only [step?] at he
  split at he
  · rename_i hended
    obtain ⟨w, hw, rfl⟩ := Option.map_eq_some_iff.1 he
    obtain ⟨c, c', hgoes⟩ := World.closeGoes_of_closeStep hw
    have hsteps : World.Steps v.world w := .single ⟨.closeStep k, hw⟩
    refine h.aside (h.closeGoes hsteps hgoes) hgoes.sends rfl rfl rfl
      (shutting_of_isEnded hended) fun hlooping => ?_
    rw [not_isLooping_of_isEnded hended] at hlooping
    cases hlooping
  · cases he

/-! ### The steps of the node -/

/-- The node closes its client. -/
theorem closing (h : v.Sound) {stage : CloseStage} (hs : v.sender.stage = .closing stage)
    (he : v.nodeStep = some v') : v'.Sound := by
  unfold nodeStep at he
  rw [hs] at he
  obtain ⟨w, hw, rfl⟩ := Option.map_eq_some_iff.1 he
  obtain ⟨c, c', hgoes⟩ := World.closeGoes_of_closeStep hw
  have hsteps : World.Steps v.world w := .single ⟨.closeStep 0, hw⟩
  have ha := h.closeGoes hsteps hgoes
  have hsends : (v.become w).sends = v.sends := hgoes.sends
  have hshutting := h.shutting
  rw [hs] at hshutting
  obtain ⟨d, honly, hclient, hat⟩ := hshutting
  have hthere : v.closes[0]? = some c := hgoes.there
  obtain rfl : d = c := by
    rw [honly] at hthere
    exact Option.some.inj hthere
  have hcloses : (v.become w).closes = [c'] := by
    have hset : (v.become w).closes = v.closes.set 0 c' := hgoes.closes
    rw [hset, honly]
    rfl
  have hlast : (v.become w).closes[0]? = some c' := by
    rw [hcloses]
    rfl
  have hclient' : c'.client = v.sender.client := hgoes.client.trans hclient
  have hshape := h.shape
  rw [hs] at hshape
  cases hshape with
  | closing _ hearlier hwent hbreaks hanswered hcount =>
      rw [← hsends] at hearlier
      rw [followClose_eq hlast]
      cases hafter : c'.stage with
      | going stage' =>
          exact ⟨ha.staged _ _, .closing _ hearlier hwent hbreaks hanswered hcount,
            ⟨c', hcloses, hclient', .inl hafter⟩, nofun⟩
      | returned answer =>
          exact ⟨ha.staged _ _, .broken hearlier hwent hbreaks hanswered hcount, trivial, nofun⟩
      | handed i =>
          have hstage : (v.become w).sender.stage = .closing stage := hs
          have hwaits : stage = .closing := by
            have hbefore := hgoes.waits i hafter
            rcases hat with hgoing | ⟨hclosing, -⟩
            · exact ShutStage.going.inj (hgoing.symm.trans hbefore)
            · exact hclosing
          refine ⟨ha, ?_, ?_, ?_⟩
          · rw [hstage]
            exact .closing _ hearlier hwent hbreaks hanswered hcount
          · rw [hstage]
            exact ⟨c', hcloses, hclient', .inr ⟨hwaits, i, hafter⟩⟩
          · rw [hstage]
            nofun

/-- The node begins the next send, or is done. -/
theorem between (h : v.Sound) (hs : v.sender.stage = .between) (he : v.nodeStep = some v') :
    v'.Sound := by
  unfold nodeStep at he
  rw [hs] at he
  have hshape := h.shape
  have hshutting := h.shutting
  rw [hs] at hshape hshutting
  cases hshape with
  | between hwent hanswered hcount =>
      by_cases hmore : v.sender.answered < v.sender.count
      · simp only [hmore, if_true] at he
        obtain rfl := Option.some.inj he
        have hopen : v.sender.group.isOpen v.sender.client = true := h.isOpen (by rw [hs]; rfl)
        exact ⟨(h.begin hanswered).staged v.sender.answered (.sending .opening),
          .sending rfl hwent (.inl rfl) hanswered hmore, hshutting, fun _ => hopen⟩
      · simp only [hmore, if_false] at he
        obtain rfl := Option.some.inj he
        exact ⟨h.staged v.sender.answered (.ended false),
          .finished hwent hanswered (Nat.le_antisymm hcount (Nat.le_of_not_lt hmore)), trivial,
          nofun⟩

/-- The node takes the answer of its last send. -/
theorem taken (ha : v.Account) (hopen : v.sender.group.isOpen v.sender.client = true)
    {earlier : List ClientSend} {c : ClientSend} {answer : SendAnswer}
    (hsends : v.sends = earlier ++ [c]) (hwent : ∀ x ∈ earlier, x.GoesOn)
    (hstage : c.stage = .returned answer) (hcounts : answer.counter? ≠ none)
    (hcloses : v.closes = []) (hanswered : v.sender.answered = earlier.length)
    (hcount : v.sender.answered < v.sender.count) : (v.take answer).Sound := by
  have hanswer : c.stage.answer? = answer.counter? := by rw [hstage]; rfl
  have hnext : v.sender.answered + 1 = earlier.length + 1 := congrArg (· + 1) hanswered
  -- An answer with which the node goes on is the last of those that it has so far.
  have hbetween (hc : c.GoesOn) :
      Shape v.sends (v.sender.answered + 1) v.sender.count .between := by
    refine .between (fun x hx => ?_) ?_ hcount
    · rw [hsends] at hx
      rcases List.mem_append.1 hx with hold | hlast
      · exact hwent x hold
      · rw [List.mem_singleton.1 hlast]
        exact hc
    · rw [hnext, hsends, List.length_append, List.length_singleton]
  cases answer with
  | ok outcome =>
      cases outcome with
      | accepted => exact ⟨ha.take _, hbetween (.inl hanswer), hcloses, fun _ => hopen⟩
      | inFlight => exact ⟨ha.take _, hbetween (.inr hanswer), hcloses, fun _ => hopen⟩
      | needsReconnect cause =>
          have honly : (v.take (.ok (.needsReconnect cause))).closes =
              [⟨v.sender.client, .going (.gate true)⟩] := congrArg (· ++ _) hcloses
          exact ⟨ha.take _, .closing _ hsends hwent (.inl hanswer) hnext hcount,
            ⟨_, honly, rfl, .inl rfl⟩, nofun⟩
  | error e =>
      cases e with
      | sendFailed client cause =>
          exact ⟨ha.take _, .broken hsends hwent (.inr hanswer) hnext hcount, trivial, nofun⟩
      | closed client | unsupported operation client | unexpectedTarget client target =>
          exact absurd rfl hcounts

/-- The node goes on with a send. -/
theorem sending (h : v.Sound) {stage : SendStage} (hs : v.sender.stage = .sending stage)
    (he : v.nodeStep = some v') : v'.Sound := by
  unfold nodeStep at he
  rw [hs] at he
  obtain ⟨w, hw, rfl⟩ := Option.map_eq_some_iff.1 he
  obtain ⟨c, c', t, hands, hgoes⟩ := World.sendGoes_of_sendStep hw
  have hsteps : World.Steps v.world w := .single ⟨.sendStep _, hw⟩
  have ha := h.sendGoes hsteps hgoes
  have hlooping : v.sender.group.isOpen v.sender.client = true := h.isOpen (by rw [hs]; rfl)
  have hopen : w.group.isOpen v.sender.client = true := by
    rw [ClientGroup.isOpen_of_clients hgoes.clients, ClientGroup.isOpen_recount]
    exact hlooping
  have hshape := h.shape
  have hcloses : (v.become w).closes = [] := by
    have hshutting := h.shutting
    rw [hs] at hshutting
    exact hgoes.closes.trans hshutting
  rw [hs] at hshape
  cases hshape with
  | sending hearlier hwent hat hanswered hcount =>
      rename_i earlier d
      have hthere : v.sends[v.sender.answered]? = some c := hgoes.there
      obtain rfl : d = c := by
        rw [hearlier, hanswered, List.getElem?_concat_length] at hthere
        exact Option.some.inj hthere
      have hsends : (v.become w).sends = earlier ++ [c'] := by
        have hset : (v.become w).sends = v.sends.set v.sender.answered c' := hgoes.sends
        rw [hset, hearlier, hanswered, List.set_append_right _ _ (Nat.le_refl _), Nat.sub_self]
        rfl
      have hlast : (v.become w).sends[(v.become w).sender.answered]? = some c' := by
        rw [hsends, show (v.become w).sender.answered = earlier.length from hanswered,
          List.getElem?_concat_length]
      have hgoing {stage' : SendStage} (hc' : c'.stage = .going stage') :
          ((v.become w).staged (.sending stage')).Sound :=
        ⟨ha.staged _ _, .sending hsends hwent (.inl hc') hanswered hcount, hcloses,
          fun _ => hopen⟩
      have hwaiting (hc : stage = .handing) (hc' : c'.stage = .handed ∨ c'.stage = .aborted) :
          (v.become w).Sound := by
        have hsame : (v.become w).sender.stage = .sending stage := hs
        refine ⟨ha, ?_, ?_, fun _ => hopen⟩
        · rw [hsame]
          exact .sending hsends hwent (.inr ⟨hc, hc'⟩) hanswered hcount
        · rw [hsame]
          exact hcloses
      rw [followSend_eq hlast]
      have hmoves := hgoes.moves
      generalize hbefore : d.stage = before at hmoves
      generalize hafter : c'.stage = after at hmoves
      cases hmoves with
      | opens | counts | gets | follows => exact hgoing hafter
      | hands => exact hwaiting (hat.eq_handing (.inl hbefore)) (.inl hafter)
      | aborts => exact hwaiting (hat.eq_handing (.inr hbefore)) (.inr hafter)
      | turned hturned =>
          -- The client is open, so the send is not turned away.
          have htarget : d.call.target = none := by rw [h.calls _ d hthere]; rfl
          have hclient : d.call.client = v.sender.client := by rw [h.calls _ d hthere]; rfl
          have hcounting := World.stage_of_opening hgoes.there hbefore htarget
            (by rw [hclient]; exact hlooping) hw hlast
          rw [hafter] at hcounting
          cases hcounting
      | answers hfollows hcounts =>
          exact taken ha hopen hsends hwent hafter hcounts hcloses hanswered hcount

theorem step (h : v.Sound) {e : DispatchEvent} (he : v.step? e = some v') : v'.Sound := by
  cases e with
  | node =>
      cases hs : v.sender.stage with
      | between => exact h.between hs he
      | sending stage => exact h.sending hs he
      | closing stage => exact h.closing hs he
      | ended early =>
          simp only [step?, nodeStep, hs] at he
          cases he
  | hear => exact h.hear he
  | session e => exact h.session he
  | leave now => exact h.leave he
  | leaveStep k => exact h.leaveStep he

end Sound

theorem notes_bind (g : ClientGroup Run) : g.bind.2.notes = g.notes := by
  unfold ClientGroup.bind ClientGroup.bindAs
  dsimp only
  split <;> rfl

theorem sound_start {w r : Run} (count : UInt32) (payload : Bytes) (hw : w.Begins)
    (hq : Run.Quietly w r) : (start r count payload).Sound := by
  let g : ClientGroup Run := { session := r }
  have hworld : (start r count payload).world.Reached := by
    obtain ⟨label, remote, config, now⟩ := hw
    let e : LogEntry := { level := .info, message := s!"Connected {g.bind.2.describeAt g.bind.1}" }
    have hquiet : World.Steps (.start label remote config now) { group := g } :=
      World.steps_of_quietly hq
    have hbound : World.Steps _ { group := g.bind.2 } := hquiet.tail ⟨.bind ⟨0⟩, rfl⟩
    have hlogged := hbound.tail ⟨.session (.outside (.log e)), rfl⟩
    have hnotes : g.bind.2.notes = [] := notes_bind g
    refine ⟨_, .start label remote config now, ?_⟩
    simp only [World.setRun, hnotes] at hlogged
    exact hlogged
  have hclient : (start r count payload).sender.group.client?
      (start r count payload).sender.client = some { id := ⟨0⟩ } := g.client?_bindAs ⟨0⟩ 0
  refine ⟨⟨hworld, fun k c hk => (by cases hk), ⟨_, hclient, fun f => ?_⟩, ?_, Nat.zero_le _,
    count.toNat_lt⟩, .between (fun c hc => by cases hc) rfl (Nat.zero_le _), rfl, fun _ => ?_⟩
  · cases f <;> rfl
  · exact notes_bind g
  · unfold ClientGroup.isOpen
    rw [hclient]
    rfl

/-! ### What the node does by itself -/

/-- No call of the node waits for the session. -/
structure Ready (v : Dispatch) : Prop where
  sends : ∀ c ∈ v.sends, c.stage ≠ .handed ∧ c.stage ≠ .aborted
  closes : ∀ c ∈ v.closes, ∀ i, c.stage ≠ .handed i

/-- The node goes on as `Sender` says. -/
structure Follows (v : Dispatch) : Prop where
  /-- Its step is `Sender.step`, where the session has no part in it. -/
  nodeStep : v.sender.stage ≠ .sending .handing → v.sender.stage ≠ .closing .closing →
    v.sender.stage.isEnded = false → v.nodeStep.map Dispatch.sender = v.sender.step
  /-- Where the session has its part, the steps of both together are. -/
  steps : v.Ready → ∀ s, v.sender.step = some s → ∃ v', Steps v v' ∧ v'.sender = s
  /-- An ack that is heard leaves what `Sender.resolve` leaves when it ends the operation. -/
  hears : ∀ operation result ack board,
    v.run.session.board.complete operation result = (.recorded (some ack), board) →
      v.sender.resolve operation result = ({ v.sender with group := { v.sender.group with
        session := SessionHost.setBoard v.run board } } : Sender Run).hear ack result

/-- While the node sends, its last send is where the node is. -/
theorem Sound.send_at (h : v.Sound) {stage : SendStage} (hs : v.sender.stage = .sending stage) :
    ∃ c, v.sends[v.sender.answered]? = some c ∧ c.call = v.sender.call ∧ c.IsAt stage := by
  have hshape := h.shape
  rw [hs] at hshape
  cases hshape with
  | sending hearlier hwent hat hanswered hcount =>
      rename_i earlier c
      have hthere : v.sends[v.sender.answered]? = some c := by
        rw [hearlier, hanswered, List.getElem?_concat_length]
      exact ⟨c, hthere, h.calls _ c hthere, hat⟩

theorem Sound.close_at (h : v.Sound) {stage : CloseStage}
    (hs : v.sender.stage = .closing stage) :
    ∃ c, v.closes[0]? = some c ∧ c.client = v.sender.client ∧ c.IsAt stage := by
  have hshutting := h.shutting
  rw [hs] at hshutting
  obtain ⟨c, hcloses, hclient, hat⟩ := hshutting
  exact ⟨c, by rw [hcloses]; rfl, hclient, hat⟩

theorem Sound.sender_nodeStep (h : v.Sound) (hhanding : v.sender.stage ≠ .sending .handing)
    (hclosing : v.sender.stage ≠ .closing .closing) (hended : v.sender.stage.isEnded = false) :
    v.nodeStep.map Dispatch.sender = v.sender.step := by
  cases hs : v.sender.stage with
  | between => exact sender_of_between hs
  | sending stage =>
      have hne : stage ≠ .handing := fun heq => hhanding (heq ▸ hs)
      obtain ⟨c, hc, hcall, hgoing | ⟨heq, -⟩⟩ := h.send_at hs
      · exact sender_of_sending hs hc hcall hgoing hne
      · exact absurd heq hne
  | closing stage =>
      have hne : stage ≠ .closing := fun heq => hclosing (heq ▸ hs)
      obtain ⟨⟨client, s⟩, hc, rfl, hgoing | ⟨heq, -⟩⟩ := h.close_at hs
      · obtain rfl : s = .going stage := hgoing
        exact sender_of_closing hs hc hne
      · exact absurd heq hne
  | ended early =>
      rw [hs] at hended
      cases hended

theorem Sound.steps_step (h : v.Sound) (hready : v.Ready) {s : Sender Run}
    (hstep : v.sender.step = some s) : ∃ v', Steps v v' ∧ v'.sender = s := by
  by_cases hhanding : v.sender.stage = .sending .handing
  · obtain ⟨c, hc, hcall, hat⟩ := h.send_at hhanding
    obtain ⟨hhanded, haborted⟩ := hready.sends c (List.mem_of_getElem? hc)
    rcases hat with hgoing | ⟨-, hwaits | hwaits⟩
    · exact steps_handing hhanding hc hcall hgoing hstep
    · exact absurd hwaits hhanded
    · exact absurd hwaits haborted
  · by_cases hclosing : v.sender.stage = .closing .closing
    · obtain ⟨⟨client, shut⟩, hc, rfl, hat⟩ := h.close_at hclosing
      rcases hat with hgoing | ⟨-, i, hwaits⟩
      · obtain rfl : shut = .going .closing := hgoing
        exact steps_closing hclosing hc hstep
      · exact absurd hwaits (hready.closes _ (List.mem_of_getElem? hc) i)
    · cases hended : v.sender.stage.isEnded with
      | true =>
          have hsame : v.sender.step = some v.sender := by
            unfold Sender.step
            cases hs : v.sender.stage with
            | ended early => rfl
            | between | sending stage | closing stage =>
                rw [hs] at hended
                cases hended
          exact ⟨v, .refl, Option.some.inj (hsame.symm.trans hstep)⟩
      | false =>
          have hmap := h.sender_nodeStep hhanding hclosing hended
          rw [hstep] at hmap
          obtain ⟨v', hv', hsender⟩ := Option.map_eq_some_iff.1 hmap
          exact ⟨v', .single ⟨.node, hv'⟩, hsender⟩

theorem Sound.follows (h : v.Sound) : v.Follows where
  nodeStep := h.sender_nodeStep
  steps hready _ := h.steps_step hready
  hears _ _ _ _ hrecorded := Sender.resolve_of_recorded hrecorded

theorem Reached.sound (h : v.Reached) : v.Sound := by
  obtain ⟨_, ⟨hw, hq, count, payload⟩, hs⟩ := h
  induction hs with
  | refl => exact sound_start count payload hw hq
  | tail _ he ih =>
      obtain ⟨e, he⟩ := he
      exact ih.step he

end Dispatch

end PeerLink
