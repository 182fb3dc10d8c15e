import PeerLink.Client.Scripted
import PeerLink.Proofs.Client.Nested

/-!
# The counters of a client balance

A send counts itself before it hands its payload over, and counts its answer in its last
step.  It does each once, whichever way it takes in between.  So at every moment each
counter shows the number of sends that have come to that answer, modulo 2^64, and what is
missing between the sends that were issued and the answers is the number of sends that are
still to answer.  A send whose caller the session aborts never answers, and is missing for
good.

Nobody but a send touches the counters.  The end of an operation, and a close, count
nothing by themselves; the sends that an ack makes count as all others do.

## Main results

* `SendMoves.tallies` — a step of a send moves a counter exactly when it changes
  what the send counts as.
* `Dealings.Reached.balanced` — at every moment every counter shows its sends.
* `Dealings.counters_balance` — the counters of every client add up, and over all clients
  they show what the session has received.
-/

namespace PeerLink

/-! ## What a send counts as -/

namespace CallStage

/-- The counter of the answer. -/
def answer? : CallStage → Option Counter
  | .returned answer => answer.counter?
  | .going _ | .handed | .aborted => none

/-- The send has counted itself and not yet an answer. -/
def isUndecided : CallStage → Bool
  | .going .opening | .going .counting | .returned _ => false
  | .going _ | .handed | .aborted => true

/-- The send has handed its payload to the session. -/
def isHanded : CallStage → Bool
  | .going .opening | .going .counting | .going .handing => false
  | .going _ | .handed | .aborted => true
  | .returned answer => answer.counter?.isSome

/-- The session aborted the caller. -/
def isAborted : CallStage → Bool
  | .aborted => true
  | .going _ | .handed | .returned _ => false

/-- The send has moved this counter. -/
def hasCounted (f : Counter) (stage : CallStage) : Bool :=
  match f with
  | .issued => stage.isUndecided || stage.answer?.isSome
  | f => stage.answer? == some f

end CallStage

namespace Stats

theorem read_countIssued (s : Stats) (f : Counter) :
    s.countIssued.read f = if f = .issued then next (s.read f) else s.read f := by
  cases f <;> rfl

theorem read_countAnswer (s : Stats) (answer : SendAnswer) (f : Counter) :
    (s.countAnswer answer).read f =
      if answer.counter? = some f then next (s.read f) else s.read f := by
  cases answer with
  | ok outcome => cases outcome <;> cases f <;> rfl
  | error e => cases e <;> cases f <;> rfl

end Stats

theorem SendAnswer.counter?_ne_issued (answer : SendAnswer) :
    answer.counter? ≠ some .issued := by
  cases answer with
  | ok outcome => cases outcome <;> simp [counter?]
  | error e => cases e <;> simp [counter?]

theorem SendCall.isFollowing_afterHanding (call : SendCall) (n : Nat) :
    (call.afterHanding n).isFollowing = true := by
  unfold afterHanding
  cases call.ack <;> rfl

/-- A send that follows its operation has counted itself, and no answer. -/
private theorem hasCounted_of_isFollowing {s : SendStage} (hs : s.isFollowing = true)
    (f : Counter) : (CallStage.going s).hasCounted f = (f == .issued) := by
  cases s with
  | opening | counting | handing => cases hs
  | registering n | refused n | looking n | settling result => cases f <;> rfl

/-- A step of a send moves a counter exactly when it changes what the send counts as. -/
theorem SendMoves.tallies {s s' : CallStage} {t : Stats → Stats} {hands : Bool}
    (h : SendMoves s s' t hands) (f : Counter) :
    (s'.hasCounted f = s.hasCounted f ∧ ∀ x, (t x).read f = x.read f) ∨
      (s.hasCounted f = false ∧ s'.hasCounted f = true ∧
        ∀ x, (t x).read f = Stats.next (x.read f)) := by
  cases h with
  | opens => exact .inl ⟨by cases f <;> rfl, fun _ => rfl⟩
  | turned ha =>
      refine .inl ⟨?_, fun _ => rfl⟩
      cases f <;> simp [CallStage.hasCounted, CallStage.answer?, CallStage.isUndecided, ha]
  | counts =>
      by_cases hf : f = .issued
      · subst hf
        exact .inr ⟨rfl, rfl, fun x => x.read_countIssued _⟩
      · refine .inl ⟨?_, fun x => (x.read_countIssued f).trans (if_neg hf)⟩
        cases f <;> first | exact absurd rfl hf | rfl
  | hands => exact .inl ⟨by cases f <;> rfl, fun _ => rfl⟩
  | gets call n =>
      refine .inl ⟨?_, fun _ => rfl⟩
      rw [hasCounted_of_isFollowing (call.isFollowing_afterHanding n)]
      cases f <;> rfl
  | aborts => exact .inl ⟨by cases f <;> rfl, fun _ => rfl⟩
  | follows hs hs' =>
      refine .inl ⟨?_, fun _ => rfl⟩
      rw [hasCounted_of_isFollowing hs, hasCounted_of_isFollowing hs']
  | answers hs ha =>
      rename_i stage answer
      rw [hasCounted_of_isFollowing hs]
      by_cases hf : answer.counter? = some f
      · have hother : f ≠ .issued := by
          rintro rfl
          exact answer.counter?_ne_issued hf
        refine .inr ⟨by simpa using hother, ?_, fun x => ?_⟩
        · cases f <;> simp_all [CallStage.hasCounted, CallStage.answer?]
        · exact (x.read_countAnswer answer f).trans (if_pos hf)
      · refine .inl ⟨?_, fun x => (x.read_countAnswer answer f).trans (if_neg hf)⟩
        cases f <;>
          simp_all [CallStage.hasCounted, CallStage.answer?, CallStage.isUndecided,
            Option.isSome_iff_ne_none]

/-- The step in which a send hands its payload over is the one that says so. -/
theorem SendMoves.isHanded {s s' : CallStage} {t : Stats → Stats} {hands : Bool}
    (h : SendMoves s s' t hands) : s'.isHanded.toNat = s.isHanded.toNat + hands.toNat := by
  have hfollowing {s : SendStage} (hs : s.isFollowing = true) :
      (CallStage.going s).isHanded = true := by
    cases s with
    | opening | counting | handing => cases hs
    | registering n | refused n | looking n | settling result => rfl
  cases h with
  | turned ha => simp [CallStage.isHanded, ha]
  | gets call n => rw [hfollowing (call.isFollowing_afterHanding n)]; rfl
  | follows hs hs' => rw [hfollowing hs, hfollowing hs']; rfl
  | answers hs ha =>
      rw [hfollowing hs]
      simp [CallStage.isHanded, Option.isSome_iff_ne_none.2 ha]
  | _ => rfl

/-! ## What all clients have issued -/

namespace ClientGroup

variable {σ : Type} {g g' : ClientGroup σ} {n : Nat} {c : Client}

/-- The sum of what all clients have issued that were ever bound to the session. -/
def issuedTotal (g : ClientGroup σ) : Nat :=
  g.clients.toList.foldr (fun c total => c.stats.issued + total) 0

theorem issuedTotal_of_clients (h : g'.clients = g.clients) : g'.issuedTotal = g.issuedTotal := by
  unfold issuedTotal
  rw [h]

theorem issuedTotal_modify (f : Client → Client) (h : g.client? n = some c) :
    (g.modify n f).issuedTotal + c.stats.issued = g.issuedTotal + (f c).stats.issued := by
  have hlist : ∀ (l : List Client) (n : Nat), l[n]? = some c →
      (l.modify n f).foldr (fun c total => c.stats.issued + total) 0 + c.stats.issued =
        l.foldr (fun c total => c.stats.issued + total) 0 + (f c).stats.issued := by
    intro l
    induction l with
    | nil => nofun
    | cons x xs ih =>
        intro n hn
        cases n with
        | zero =>
            obtain rfl := Option.some.inj hn
            rw [List.modify_zero_cons, List.foldr_cons, List.foldr_cons]
            omega
        | succ n =>
            have hrest := ih n hn
            rw [List.modify_succ_cons, List.foldr_cons, List.foldr_cons]
            omega
  unfold issuedTotal modify
  rw [Array.toList_modify]
  exact hlist _ n (by simpa [client?] using h)

theorem issuedTotal_shut (g : ClientGroup σ) (n : Nat) :
    (g.shut n).issuedTotal = g.issuedTotal := by
  cases hn : g.client? n with
  | some c =>
      have hsame := issuedTotal_modify (fun c => { c with gate := ⟨true⟩ }) hn
      exact Nat.add_right_cancel hsame
  | none =>
      refine issuedTotal_of_clients (g.clients_shut_of_not_isOpen ?_)
      unfold isOpen
      rw [hn]
      rfl

end ClientGroup

/-! ## Every counter shows its sends -/

namespace Dealings

variable {σ : Type} {v v' : Dealings σ} {n : Nat}

/-- The sends of a client that have moved a counter. -/
def tally (v : Dealings σ) (n : Nat) (f : Counter) : Nat :=
  v.sends.countP fun c => c.call.client == n && c.stage.hasCounted f

/-- The counters show what the sends have counted. -/
structure Balanced (v : Dealings σ) : Prop where
  clients : ∀ c ∈ v.sends, c.call.client < v.group.clients.size
  counters : ∀ n c, v.group.client? n = some c → ∀ f,
    c.stats.read f = v.tally n f % UInt64.size
  handed : v.handed.length = v.sends.countP (·.stage.isHanded)
  total : v.group.issuedTotal % UInt64.size =
    v.sends.countP (·.stage.hasCounted .issued) % UInt64.size

namespace Balanced

/-- The clients keep what they have counted. -/
private theorem aside (h : v.Balanced) {g : ClientGroup σ}
    (hsize : v.group.clients.size ≤ g.clients.size)
    (hclients : ∀ n c, g.client? n = some c → ∃ c', v.group.client? n = some c' ∧
      c'.stats = c.stats)
    (htotal : g.issuedTotal = v.group.issuedTotal) : Balanced { v with group := g } where
  clients c hc := Nat.lt_of_lt_of_le (h.clients c hc) hsize
  counters n c hc f := by
    obtain ⟨c', hc', hstats⟩ := hclients n c hc
    rw [← hstats]
    exact h.counters n c' hc' f
  handed := h.handed
  total := by
    show g.issuedTotal % _ = _
    rw [htotal]
    exact h.total

private theorem same (h : v.Balanced) {g : ClientGroup σ} (hg : g.clients = v.group.clients) :
    Balanced { v with group := g } := by
  refine h.aside (Nat.le_of_eq (congrArg Array.size hg.symm)) (fun n c hc => ⟨c, ?_, rfl⟩)
    (ClientGroup.issuedTotal_of_clients hg)
  rw [← ClientGroup.client?_of_clients hg]
  exact hc

private theorem shut (h : v.Balanced) {g : ClientGroup σ}
    (hg : g.clients = (v.group.shut n).clients) : Balanced { v with group := g } := by
  have hsize := (congrArg Array.size hg).trans (v.group.size_shut n)
  refine h.aside (Nat.le_of_eq hsize.symm) (fun m c hc => ?_)
    ((ClientGroup.issuedTotal_of_clients hg).trans (v.group.issuedTotal_shut n))
  rw [ClientGroup.client?_of_clients hg, ClientGroup.client?_shut] at hc
  split at hc
  · obtain ⟨c', hc', rfl⟩ := Option.map_eq_some_iff.1 hc
    exact ⟨c', hc', rfl⟩
  · exact ⟨c, hc, rfl⟩

private theorem binds (h : v.Balanced) {g : ClientGroup σ} {id : ClientId}
    (hg : g.clients = v.group.clients.push { id := id }) :
    Balanced { v with group := g } where
  clients c hc := by
    have hlt := h.clients c hc
    show c.call.client < g.clients.size
    rw [hg, Array.size_push]
    omega
  counters n c hc f := by
    have hclient := ClientGroup.client?_of_push hg n
    rw [show Dealings.group { v with group := g } = g from rfl, hclient] at hc
    split at hc
    · rename_i hn
      obtain rfl := Option.some.inj hc
      have hnone : v.tally n f = 0 := by
        refine List.countP_eq_zero.2 fun c hc => ?_
        have hlt := h.clients c hc
        have hother : c.call.client ≠ n := by omega
        simp [hother]
      show _ = v.tally n f % _
      rw [hnone]
      cases f <;> rfl
    · exact h.counters n c hc f
  handed := h.handed
  total := by
    have hsame : g.issuedTotal = v.group.issuedTotal := by
      unfold ClientGroup.issuedTotal
      rw [hg, Array.toList_push, List.foldr_append]
      rfl
    show g.issuedTotal % _ = _
    rw [hsame]
    exact h.total

/-- A counter that moves shows one send more. -/
private theorem next_eq {a b : Nat} (h : a = b % UInt64.size) :
    Stats.next a = (b + 1) % UInt64.size := by
  rw [Stats.next, h, Nat.mod_add_mod]

private theorem sendMoves (h : v.Balanced) {k : Nat} {c : Send} {stage : CallStage}
    {t : Stats → Stats} {hands : Bool} {g : ClientGroup σ} (hk : v.sends[k]? = some c)
    (hm : SendMoves c.stage stage t hands)
    (hg : g.clients = (v.group.recount c.call.client t).clients) :
    Balanced { v with
      group := g
      sends := v.sends.set k { c with stage := stage }
      handed := if hands then v.handed ++ [k] else v.handed } where
  clients d hd := by
    show d.call.client < g.clients.size
    rw [hg, ClientGroup.size_recount]
    rcases List.mem_or_eq_of_mem_set hd with hold | rfl
    · exact h.clients d hold
    · exact h.clients c (List.mem_of_getElem? hk)
  counters n d hd f := by
    have hset := countP_set_add (fun c : Send => c.call.client == n && c.stage.hasCounted f)
      { c with stage := stage } hk
    dsimp only at hset
    have hclient := ClientGroup.client?_of_clients hg n
    rw [show Dealings.group { v with
        group := g
        sends := v.sends.set k { c with stage := stage }
        handed := if hands then v.handed ++ [k] else v.handed } = g from rfl,
      hclient, ClientGroup.client?_recount] at hd
    show d.stats.read f = (List.countP _ (v.sends.set k { c with stage := stage })) % _
    split at hd
    · rename_i hn
      obtain ⟨d', hd', rfl⟩ := Option.map_eq_some_iff.1 hd
      have hbefore := h.counters n d' hd' f
      have hsame : (c.call.client == n) = true := by simpa using hn.symm
      rw [hsame, Bool.true_and, Bool.true_and] at hset
      rcases hm.tallies f with ⟨hcounted, hread⟩ | ⟨hfalse, htrue, hread⟩
      · rw [hcounted] at hset
        rw [hread, Nat.add_right_cancel hset]
        exact hbefore
      · rw [hfalse, htrue] at hset
        rw [hread, show List.countP _ _ = _ + 1 from hset]
        exact next_eq hbefore
    · rename_i hn
      have hother : (c.call.client == n) = false := by simpa using Ne.symm hn
      rw [hother, Bool.false_and, Bool.false_and] at hset
      rw [Nat.add_right_cancel hset]
      exact h.counters n d hd f
  handed := by
    have hset := countP_set_add (fun c : Send => c.stage.isHanded) { c with stage := stage } hk
    dsimp only at hset
    have hself := hm.isHanded
    have hold := h.handed
    show (if hands then v.handed ++ [k] else v.handed).length =
      List.countP _ (v.sends.set k { c with stage := stage })
    have hlength : (if hands then v.handed ++ [k] else v.handed).length =
        v.handed.length + hands.toNat := by
      cases hands with
      | true => exact List.length_append
      | false => rfl
    omega
  total := by
    have hset := countP_set_add (fun c : Send => c.stage.hasCounted .issued)
      { c with stage := stage } hk
    dsimp only at hset
    have hlt := h.clients c (List.mem_of_getElem? hk)
    have hd : v.group.client? c.call.client = some v.group.clients[c.call.client] :=
      Array.getElem?_eq_getElem hlt
    have htotal := ClientGroup.issuedTotal_modify (g := v.group)
      (fun d => { d with stats := t d.stats }) hd
    have hold := h.total
    show g.issuedTotal % _ = (List.countP _ (v.sends.set k { c with stage := stage })) % _
    rw [ClientGroup.issuedTotal_of_clients hg]
    rcases hm.tallies .issued with ⟨hcounted, hread⟩ | ⟨hfalse, htrue, hread⟩
    · have hissued : (t (v.group.clients[c.call.client]).stats).issued =
          (v.group.clients[c.call.client]).stats.issued := hread _
      rw [hcounted] at hset
      rw [hissued] at htotal
      rw [Nat.add_right_cancel hset, ← hold]
      exact congrArg (· % _) (Nat.add_right_cancel htotal)
    · have hissued : (t (v.group.clients[c.call.client]).stats).issued =
          Stats.next (v.group.clients[c.call.client]).stats.issued := hread _
      rw [hfalse, htrue] at hset
      rw [hissued, Stats.next] at htotal
      rw [show List.countP _ _ = _ + 1 from hset]
      unfold ClientGroup.recount
      simp only [UInt64.size] at htotal hold ⊢
      omega

theorem step (h : v.Balanced) (hs : v.Effect v') : v'.Balanced := by
  cases hs with
  | aside g hg => exact h.same hg
  | binds g id hg => exact h.binds hg
  | sends call hn =>
      have hnothing (p : Send → Bool) (hp : p { call := call } = false) :
          List.countP p (v.sends ++ [{ call := call }]) = v.sends.countP p := by
        rw [List.countP_append, List.countP_singleton, hp]
        rfl
      have hopening (f : Counter) : (CallStage.going .opening).hasCounted f = false := by
        cases f <;> rfl
      refine ⟨fun c hc => ?_, fun n c hc f => ?_, ?_, ?_⟩
      · rcases List.mem_append.1 hc with hold | hnew
        · exact h.clients c hold
        · rw [List.mem_singleton.1 hnew]
          exact hn
      · refine (h.counters n c hc f).trans (congrArg (· % _) (hnothing _ ?_).symm)
        rw [hopening, Bool.and_false]
      · exact h.handed.trans (hnothing _ rfl).symm
      · exact h.total.trans (congrArg (· % _) (hnothing _ (hopening _)).symm)
  | sendMoves g hk hm hg => exact h.sendMoves hk hm hg
  | closes n forced hn => exact ⟨h.clients, h.counters, h.handed, h.total⟩
  | closeMoves g hj hm hg =>
      rename_i j c stage arrives closes
      have hbalanced : Balanced { v with group := g } := by
        cases arrives with
        | true => exact h.shut hg
        | false => exact h.same hg
      exact ⟨hbalanced.clients, hbalanced.counters, hbalanced.handed, hbalanced.total⟩

end Balanced

/-! ## How the counters add up -/

/-- The sends of a client that have counted themselves and no answer. -/
def undecided (v : Dealings σ) (n : Nat) : Nat :=
  v.sends.countP fun c => c.call.client == n && c.stage.isUndecided

/-- The sends of a client that came to an answer which this counter counts. -/
def answered (v : Dealings σ) (n : Nat) (f : Counter) : Nat :=
  v.sends.countP fun c => c.call.client == n && c.stage.answer? == some f

/-- The sends of a client that never answer, since the session aborted the caller. -/
def aborted (v : Dealings σ) (n : Nat) : Nat :=
  v.sends.countP fun c => c.call.client == n && c.stage.isAborted

/-- No send is under way. -/
def IsIdle (v : Dealings σ) : Prop :=
  ∀ c ∈ v.sends, (∃ answer, c.stage = .returned answer) ∨ c.stage = .aborted

/-- A send that has counted itself is undecided, or has one answer. -/
private theorem hasCounted_issued (stage : CallStage) :
    (if stage.hasCounted .issued = true then 1 else 0) =
      (if (stage.answer? == some .accepted) = true then 1 else 0) +
      (if (stage.answer? == some .inFlight) = true then 1 else 0) +
      (if (stage.answer? == some .reconnects) = true then 1 else 0) +
      (if (stage.answer? == some .rejected) = true then 1 else 0) +
      (if stage.isUndecided = true then 1 else 0) := by
  cases stage with
  | going s => cases s <;> rfl
  | handed | aborted => rfl
  | returned answer =>
      have hissued := answer.counter?_ne_issued
      cases hf : answer.counter? with
      | none => simp [CallStage.hasCounted, CallStage.answer?, CallStage.isUndecided, hf]
      | some f =>
          cases f with
          | issued => exact absurd hf hissued
          | accepted | inFlight | reconnects | rejected =>
              simp [CallStage.hasCounted, CallStage.answer?, CallStage.isUndecided, hf]

theorem tally_issued (v : Dealings σ) (n : Nat) :
    v.tally n .issued = v.answered n .accepted + v.answered n .inFlight +
      v.answered n .reconnects + v.answered n .rejected + v.undecided n := by
  unfold tally answered undecided
  induction v.sends with
  | nil => rfl
  | cons c l ih =>
      have hself := hasCounted_issued c.stage
      simp only [List.countP_cons]
      cases c.call.client == n with
      | false => simpa using ih
      | true =>
          simp only [Bool.true_and]
          omega

theorem IsIdle.undecided (h : v.IsIdle) (n : Nat) : v.undecided n = v.aborted n := by
  refine List.countP_congr fun c hc => ?_
  rcases h c hc with ⟨answer, hs⟩ | hs <;> rw [hs] <;> rfl

/-- When all sends of a client have returned, none is still to answer. -/
theorem undecided_eq_zero
    (h : ∀ c ∈ v.sends, c.call.client = n → ∃ answer, c.stage = .returned answer) :
    v.undecided n = 0 := by
  refine List.countP_eq_zero.2 fun c hc hcounted => ?_
  rw [Bool.and_eq_true, beq_iff_eq] at hcounted
  obtain ⟨answer, hs⟩ := h c hc hcounted.1
  rw [hs] at hcounted
  cases hcounted.2

theorem Balanced.issuedTotal_of_idle (h : v.Balanced) (hidle : v.IsIdle) :
    v.group.issuedTotal % UInt64.size = v.handed.length % UInt64.size := by
  rw [h.total, h.handed]
  refine congrArg (· % _) (List.countP_congr fun c hc => ?_)
  rcases hidle c hc with ⟨answer, hs⟩ | hs <;> rw [hs] <;> rfl

variable [SessionHost σ]

theorem Reached.balanced (h : v.Reached) : v.Balanced := by
  refine h.invariant (P := Balanced) ?_ fun _ _ _ hs hv => hv.step (effect_of_step hs)
  rintro _ ⟨s⟩
  refine ⟨fun c hc => absurd hc List.not_mem_nil, fun n c hc => ?_, rfl, rfl⟩
  simp [ClientGroup.client?] at hc

/-! ## Calls that are made in one go -/

/-- From these clients to those, only these sends were counted. -/
def CountsOnly (v : Dealings σ) (g : ClientGroup σ) (calls : List SendCall) : Prop :=
  ∃ made : List Send, (made.map Send.call).Sublist calls ∧
    (∀ c ∈ made, ∃ answer, c.stage = .returned answer) ∧
    ∀ n c, v.group.client? n = some c → ∃ c', g.client? n = some c' ∧ ∀ f,
      c'.stats.read f = (c.stats.read f +
        made.countP fun s => s.call.client == n && s.stage.hasCounted f) % UInt64.size

theorem Reached.countsOnly (h : v.Reached) {g : ClientGroup σ} {calls : List SendCall}
    (hg : v.LeadsTo g calls) : v.CountsOnly g calls := by
  obtain ⟨v', made, hsteps, rfl, hsends, hcalls, hover⟩ := hg
  refine ⟨made, hcalls, hover, fun n c hc => ?_⟩
  have hlt : n < v'.group.clients.size :=
    Nat.lt_of_lt_of_le (Array.getElem?_eq_some_iff.1 hc).1 hsteps.grows.2
  refine ⟨v'.group.clients[n], Array.getElem?_eq_getElem hlt, fun f => ?_⟩
  rw [(Reached.balanced (h.steps hsteps)).counters n _ (Array.getElem?_eq_getElem hlt) f,
    h.balanced.counters n c hc f, Nat.mod_add_mod]
  unfold tally
  rw [hsends, List.countP_append]

/-! ## The balance -/

/-- At every moment the counters of every client balance, modulo 2^64: what it issued is
what was accepted, left in flight, answered with the advice to connect anew or rejected,
and the sends that are still to answer.  Each of these counters shows how many sends came
to that answer.  When all sends of a client have returned, none is still to answer.  When
no send is under way at all, none is but those that the session aborted, and all clients
together have issued what the session has received.
The end of an operation, however it ends, counts nothing but the sends that the ack makes
which waits for it, and a close counts nothing. -/
theorem counters_balance [LawfulHost σ] (h : v.Reached) :
    (∀ n c, v.group.client? n = some c →
      c.stats.issued = (c.stats.accepted + c.stats.inFlight + c.stats.reconnects +
        c.stats.rejected + v.undecided n) % UInt64.size ∧
      ∀ f, f ≠ .issued → c.stats.read f = v.answered n f % UInt64.size) ∧
    (∀ n, (∀ c ∈ v.sends, c.call.client = n → ∃ answer, c.stage = .returned answer) →
      v.undecided n = 0) ∧
    (v.IsIdle → (∀ n, v.undecided n = v.aborted n) ∧
      v.group.issuedTotal % UInt64.size = v.handed.length % UInt64.size) ∧
    (∀ operation result answer g,
      v.group.complete operation result = some (answer, g) →
        v.CountsOnly g (v.sendsAt operation)) ∧
    (∀ operation answer g, v.group.cancel operation = some (answer, g) →
      v.CountsOnly g (v.sendsAt operation)) ∧
    (∀ n forced m c, v.group.client? m = some c →
      ∃ c', (v.group.runClose n (.gate forced)).2.client? m = some c' ∧ c'.stats = c.stats) := by
  have hbalanced := h.balanced
  refine ⟨fun n c hc => ?_, fun n => undecided_eq_zero, fun hidle => ?_, ?_, ?_, ?_⟩
  · have hcounters := hbalanced.counters n c hc
    have hother : ∀ f, f ≠ .issued → c.stats.read f = v.answered n f % UInt64.size := by
      intro f hf
      refine (hcounters f).trans ?_
      cases f <;> first | exact absurd rfl hf | rfl
    refine ⟨?_, hother⟩
    have hissued : c.stats.issued = v.tally n .issued % UInt64.size := hcounters .issued
    have haccepted : c.stats.accepted = _ := hother .accepted nofun
    have hinFlight : c.stats.inFlight = _ := hother .inFlight nofun
    have hreconnects : c.stats.reconnects = _ := hother .reconnects nofun
    have hrejected : c.stats.rejected = _ := hother .rejected nofun
    rw [hissued, haccepted, hinFlight, hreconnects, hrejected, tally_issued]
    simp only [UInt64.size]
    omega
  · exact ⟨hidle.undecided, hbalanced.issuedTotal_of_idle hidle⟩
  · exact fun operation result answer g hg => h.countsOnly (leadsTo_complete hg)
  · exact fun operation answer g hg => h.countsOnly (leadsTo_cancel hg)
  · intro n forced m c hc
    rw [ClientGroup.client?_of_clients (v.group.runClose_shuts n (.gate forced)),
      ClientGroup.client?_shut, hc]
    split <;> exact ⟨_, rfl, rfl⟩

/-! ### An ack that sends -/

/-- A send does its next steps, up to a number of them. -/
abbrev sendFor (v : Dealings σ) (k m : Nat) : Dealings σ := repeated (·.sendOn k) v m

/-- The session takes the payload of the send that waits for it, and returns. -/
def sendTaken (v : Dealings σ) (k : Nat) : Dealings σ :=
  match v.sends[k]? with
  | some ⟨call, .handed⟩ =>
    match SessionHost.send v.group.session call.payload with
    | some (n, s) =>
      { v with
        group := { v.group with session := s }
        sends := v.sends.set k ⟨call, .going (call.afterHanding n)⟩ }
    | none => v
  | _ => v

theorem steps_sendFor (v : Dealings σ) (k m : Nat) : Steps v (v.sendFor k m) :=
  steps_repeated (fun _ _ => .sendGoes) v m

theorem steps_sendTaken (v : Dealings σ) (k : Nat) : Steps v (v.sendTaken k) := by
  unfold sendTaken
  split
  · rename_i call hk
    split
    · rename_i n s hsend
      have htaken : Steps v _ := .single (.session s v.group.notes)
      exact htaken.tail (.sendReturns (c := ⟨call, .handed⟩) n (by exact hk) rfl)
    · exact .refl
  · exact .refl

/-- A scripted session with one client, whose send has begun.  Its ack sends again. -/
def beginning : Dealings ScriptedSession where
  group := (ClientGroup.bind
    { session := { id := 0, remote := none, script := [.pending], otherwise := .auto } }).2
  sends := [{ call :=
    { client := 0
      payload := .message (.ofBody 1 [])
      ack := some (.tell "first" 0 (some (.sendBuffer []))) } }]

/-- The send is pending. -/
def expecting : Dealings ScriptedSession :=
  ((beginning.sendFor 0 3).sendTaken 0).sendFor 0 4

theorem reached_expecting : expecting.Reached := by
  have hbound : Steps (σ := ScriptedSession) { group := { session :=
    { id := 0, remote := none, script := [.pending], otherwise := .auto } } } _ :=
    .single (.binds ⟨0⟩)
  have hbegun : Steps _ beginning := hbound.tail (.sends _ (by decide))
  have hsent : Steps beginning expecting :=
    ((steps_sendFor _ 0 3).trans (steps_sendTaken _ 0)).trans (steps_sendFor _ 0 4)
  exact ⟨_, .start _, hbegun.trans hsent⟩

/-- The send is in flight, and the client has issued one.  When its operation ends, the ack
sends once more, and that is all that is counted. -/
theorem expecting_balances :
    expecting.undecided 0 = 0 ∧
      expecting.group.issuedTotal % UInt64.size = expecting.handed.length % UInt64.size ∧
      ∃ answer g, expecting.group.complete 0 .succeeded = some (answer, g) ∧
        (g.client? 0).map (·.stats) = some ⟨2, 1, 1, 0, 0⟩ ∧
        expecting.CountsOnly g [{ client := 0, payload := .buffer [] }] := by
  obtain ⟨-, hreturned, htotal, hcomplete, -⟩ := counters_balance reached_expecting
  have hstages : expecting.sends.map (·.stage) = [.returned (.ok .inFlight)] := rfl
  have hover : ∀ c ∈ expecting.sends, ∃ answer, c.stage = .returned answer := by
    intro c hc
    have hstage := List.mem_map_of_mem (f := fun c : Send => c.stage) hc
    rw [hstages] at hstage
    exact ⟨_, List.mem_singleton.1 hstage⟩
  have hafter : (expecting.group.complete 0 .succeeded).bind
      (fun x => (x.2.client? 0).map (·.stats)) = some ⟨2, 1, 1, 0, 0⟩ := by decide +kernel
  obtain ⟨⟨answer, g⟩, hg, hstats⟩ := Option.bind_eq_some_iff.1 hafter
  have hundecided := hreturned 0 fun c hc _ => hover c hc
  obtain ⟨-, hsum⟩ := htotal fun c hc => .inl (hover c hc)
  exact ⟨hundecided, hsum, answer, g, hg, hstats, hcomplete 0 .succeeded answer g hg⟩

end Dealings

end PeerLink
