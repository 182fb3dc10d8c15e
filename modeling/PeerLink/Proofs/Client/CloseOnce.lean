import PeerLink.Client.Scripted
import PeerLink.Proofs.Client.Dealings

/-!
# A client is closed once

Any number of callers close a client at the same time, from any thread and from
inside acks, some of them by force.  Each comes to the gate once.  Who comes first
decides: an unforced close that is the first of all answers "yes", and every other
unforced close finds the gate shut and answers "no" without touching the session.
A forced close goes on in any case.

So for each stage of a close it is known whether it has come to the gate, whether it
was let in there, and how often it has called the session's close
(`Dealings.CloseHolds`).  The others only add to the lists of the observer, and what
a close knows stays true.

## Main results

* `Dealings.Reached.orderly` — every close knows what belongs to its stage, and the
  gate of a client is shut exactly when some close has come to it.
* `Dealings.closes_once` — one close at most answers "yes"; one does exactly when a
  close comes to the gate before all forced ones; a gate never opens again; and the
  session's close is called once for the winner and once for every forced close.
-/

namespace PeerLink

namespace Dealings

variable {σ : Type} {v v' : Dealings σ} {j n : Nat} {c : Close}

/-! ## Who came first -/

/-- The first close that came to the gate of a client. -/
def first? (v : Dealings σ) (n : Nat) : Option CloseMark := v.arrivals.find? (·.client == n)

/-- An unforced close came to the gate before every forced one. -/
def BeatsForced (v : Dealings σ) (n : Nat) : Prop :=
  ∃ (i : Nat) (m : CloseMark), v.arrivals[i]? = some m ∧ m.client = n ∧ m.forced = false ∧
    ∀ (i' : Nat) (m' : CloseMark), v.arrivals[i']? = some m' → m'.client = n →
      m'.forced = true → i < i'

/-- An unforced close of the client answered that it closed it. -/
def Won (v : Dealings σ) (n j : Nat) : Prop := v.closes[j]? = some ⟨n, false, .returned true⟩

/-- All closes of the client have returned. -/
def IsOver (v : Dealings σ) (n : Nat) : Prop :=
  ∀ c ∈ v.closes, c.client = n → ∃ answer, c.stage = .returned answer

/-- The close was let in at the gate: it is forced, or was the first to come. -/
def LetIn (v : Dealings σ) (m : CloseMark) : Prop :=
  m ∈ v.arrivals ∧ (m.forced = true ∨ v.first? m.client = some m)

/-- What is known of a close at its stage. -/
def CloseHolds (v : Dealings σ) (j : Nat) (c : Close) : Prop :=
  match c.stage with
  | .going (.gate forced) =>
    c.forced = forced ∧ c.mark j ∉ v.arrivals ∧ c.mark j ∉ v.closings
  | .going _ => v.LetIn (c.mark j) ∧ c.mark j ∉ v.closings
  | .handed _ | .returned true => v.LetIn (c.mark j) ∧ v.closings.count (c.mark j) = 1
  | .returned false =>
    c.forced = false ∧ c.mark j ∈ v.arrivals ∧ v.first? c.client ≠ some (c.mark j) ∧
      c.mark j ∉ v.closings

theorem first?_mem {m : CloseMark} (h : v.first? n = some m) :
    m ∈ v.arrivals ∧ m.client = n :=
  ⟨List.mem_of_find?_eq_some h, by simpa using List.find?_some h⟩

theorem first?_ne_none {m : CloseMark} (h : m ∈ v.arrivals) : v.first? m.client ≠ none := by
  intro hnone
  have hno := List.find?_eq_none.1 hnone m h
  simp at hno

/-- Who is first stays first, whoever comes later. -/
theorem first?_later {m : CloseMark} (h : v.arrivals <+: v'.arrivals)
    (hm : v.first? n = some m) : v'.first? n = some m := by
  obtain ⟨later, heq⟩ := h
  unfold first? at hm ⊢
  rw [← heq, List.find?_append, hm]
  rfl

theorem LetIn.later {m : CloseMark} (hm : v.LetIn m) (h : v.arrivals <+: v'.arrivals) :
    v'.LetIn m := by
  obtain ⟨hmem, hforced | hfirst⟩ := hm
  · exact ⟨h.subset hmem, .inl hforced⟩
  · exact ⟨h.subset hmem, .inr (first?_later h hfirst)⟩

/-- Others come to their gates and call the session's close; what is known of a close
stays true. -/
theorem CloseHolds.mono (h : v.CloseHolds j c) (ha : v.arrivals <+: v'.arrivals)
    (harrived : c.mark j ∈ v'.arrivals → c.mark j ∈ v.arrivals)
    (hclosings : v'.closings.count (c.mark j) = v.closings.count (c.mark j)) :
    v'.CloseHolds j c := by
  have hcalled : c.mark j ∉ v.closings → c.mark j ∉ v'.closings := fun hno => by
    rw [← List.count_eq_zero] at hno ⊢
    rw [hclosings, hno]
  unfold CloseHolds at h ⊢
  split at h
  · exact ⟨h.1, fun hmem => h.2.1 (harrived hmem), hcalled h.2.2⟩
  · exact ⟨h.1.later ha, hcalled h.2⟩
  · exact ⟨h.1.later ha, hclosings.trans h.2⟩
  · exact ⟨h.1.later ha, hclosings.trans h.2⟩
  · obtain ⟨hforced, hmem, hother, hno⟩ := h
    refine ⟨hforced, ha.subset hmem, fun hfirst => ?_, hcalled hno⟩
    cases hold : v.first? c.client with
    | none => exact absurd hold (first?_ne_none hmem)
    | some m =>
        rw [first?_later ha hold] at hfirst
        exact hother (hold.trans hfirst)

/-! ## Every close knows what belongs to its stage -/

/-- The closes, the gates and the lists of the observer fit. -/
structure Orderly (v : Dealings σ) : Prop where
  closes : ∀ j c, v.closes[j]? = some c → v.CloseHolds j c
  /-- The client of a close is there. -/
  clients : ∀ c ∈ v.closes, c.client < v.group.clients.size
  arrivals : ∀ m ∈ v.arrivals, ∃ c, v.closes[m.number]? = some c ∧ c.mark m.number = m
  closings : ∀ m ∈ v.closings, ∃ c, v.closes[m.number]? = some c ∧ c.mark m.number = m
  /-- A gate is shut exactly if some close has come to it. -/
  gates : ∀ n, n < v.group.clients.size → (v.group.isOpen n = false ↔ v.first? n ≠ none)

namespace Orderly

/-- A close that was not yet begun has not come to any gate. -/
private theorem not_mem_of_length (c : Close) {marks : List CloseMark}
    (h : ∀ m ∈ marks, ∃ c, v.closes[m.number]? = some c ∧ c.mark m.number = m) :
    c.mark v.closes.length ∉ marks := by
  intro hmem
  obtain ⟨c', hc', -⟩ := h _ hmem
  have hlt := (List.getElem?_eq_some_iff.1 hc').1
  exact absurd hlt (Nat.lt_irrefl _)

/-- The marks of closes are those of closes also after more were begun. -/
private theorem marks_append (c : Close) {marks : List CloseMark}
    (h : ∀ m ∈ marks, ∃ c, v.closes[m.number]? = some c ∧ c.mark m.number = m) :
    ∀ m ∈ marks, ∃ c', (v.closes ++ [c])[m.number]? = some c' ∧ c'.mark m.number = m := by
  intro m hm
  obtain ⟨c', hc', heq⟩ := h m hm
  have hlt := (List.getElem?_eq_some_iff.1 hc').1
  exact ⟨c', (List.getElem?_append_left hlt).trans hc', heq⟩

/-- The close at a number keeps its mark, whatever stage it is at. -/
private theorem mark_set (hj : v.closes[j]? = some c) (stage : ShutStage) {m : CloseMark}
    (h : ∃ c, v.closes[m.number]? = some c ∧ c.mark m.number = m) :
    ∃ c', (v.closes.set j { c with stage := stage })[m.number]? = some c' ∧
      c'.mark m.number = m := by
  obtain ⟨c', hc', heq⟩ := h
  have hlt := (List.getElem?_eq_some_iff.1 hj).1
  by_cases hjm : j = m.number
  · rw [← hjm, hj] at hc'
    obtain rfl := Option.some.inj hc'
    rw [← hjm] at heq ⊢
    exact ⟨_, List.getElem?_set_self hlt, heq⟩
  · exact ⟨c', (List.getElem?_set_ne hjm).trans hc', heq⟩

/-- Nobody comes to the gate of a client before the client is there. -/
theorem first?_of_absent (h : v.Orderly) (hn : v.group.clients.size ≤ n) :
    v.first? n = none := by
  cases hfirst : v.first? n with
  | none => rfl
  | some m =>
      obtain ⟨hm, rfl⟩ := first?_mem hfirst
      obtain ⟨c, hc, heq⟩ := h.arrivals m hm
      have hlt := h.clients c (List.mem_of_getElem? hc)
      have hclient : c.client = m.client := congrArg CloseMark.client heq
      omega

theorem binds (h : v.Orderly) {g : ClientGroup σ} {id : ClientId}
    (hg : g.clients = v.group.clients.push { id := id }) :
    Orderly { v with group := g } where
  closes := h.closes
  clients c hc := by
    have hlt := h.clients c hc
    show c.client < g.clients.size
    rw [hg, Array.size_push]
    omega
  arrivals := h.arrivals
  closings := h.closings
  gates n hn := by
    have hclient := ClientGroup.client?_of_push hg n
    by_cases hlast : n = v.group.clients.size
    · have hopen : g.isOpen n = true := by
        unfold ClientGroup.isOpen
        rw [hclient, if_pos hlast]
        rfl
      have hnone : v.first? n = none := h.first?_of_absent (Nat.le_of_eq hlast.symm)
      show g.isOpen n = false ↔ v.first? n ≠ none
      rw [hopen, hnone]
      simp
    · have hsame : g.isOpen n = v.group.isOpen n := by
        unfold ClientGroup.isOpen
        rw [hclient, if_neg hlast]
      have hlt : n < v.group.clients.size := by
        have hsize : n < g.clients.size := hn
        rw [hg, Array.size_push] at hsize
        omega
      show g.isOpen n = false ↔ v.first? n ≠ none
      rw [hsame]
      exact h.gates n hlt

/-- Another close comes to its gate, or calls the session's close. -/
private theorem holds_other (h : v.Orderly) {i : Nat} {d : Close} {stage : ShutStage}
    (hd : v.closes[i]? = some d) (hij : i ≠ j) (arrives closes : Bool) (g : ClientGroup σ) :
    CloseHolds { v with
      group := g
      closes := v.closes.set j { c with stage := stage }
      arrivals := if arrives then v.arrivals ++ [c.mark j] else v.arrivals
      closings := if closes then v.closings ++ [c.mark j] else v.closings } i d := by
  have hne : d.mark i ≠ c.mark j := fun heq => hij (congrArg CloseMark.number heq)
  refine (h.closes i d hd).mono ?_ ?_ ?_
  · cases arrives with
    | true => exact List.prefix_append _ _
    | false => exact List.prefix_rfl
  · cases arrives with
    | true =>
        intro hmem
        rcases List.mem_append.1 hmem with hold | hnew
        · exact hold
        · exact absurd (List.mem_singleton.1 hnew) hne
    | false => exact id
  · cases closes with
    | true =>
        show (v.closings ++ [c.mark j]).count (d.mark i) = _
        rw [List.count_append, List.count_singleton, if_neg (by simpa using hne.symm)]
        rfl
    | false => rfl

/-- Who comes to a gate is the first there if nobody was before. -/
private theorem find?_concat (marks : List CloseMark) (m : CloseMark) (n : Nat) :
    (marks ++ [m]).find? (·.client == n) =
      (marks.find? (·.client == n)).or (if m.client = n then some m else none) := by
  rw [List.find?_append]
  by_cases hm : m.client = n <;> simp [hm]

/-- What a close knows after its own step. -/
private theorem holds_self (h : v.Orderly) (hj : v.closes[j]? = some c) {stage : ShutStage}
    {arrives closes : Bool}
    (hm : CloseMoves (v.group.isOpen c.client) c.stage stage arrives closes)
    (g : ClientGroup σ) :
    CloseHolds { v with
      group := g
      closes := v.closes.set j { c with stage := stage }
      arrivals := if arrives then v.arrivals ++ [c.mark j] else v.arrivals
      closings := if closes then v.closings ++ [c.mark j] else v.closings } j
      { c with stage := stage } := by
  have hc := h.closes j c hj
  have hgate := h.gates c.client (h.clients c (List.mem_of_getElem? hj))
  have hlast : c.mark j ∈ v.arrivals ++ [c.mark j] :=
    List.mem_append_right _ (List.mem_singleton.2 rfl)
  unfold CloseHolds at hc
  generalize hstage : c.stage = before at hm hc
  cases hm with
  | forces =>
      obtain ⟨hforced, -, hno⟩ := hc
      exact ⟨⟨hlast, .inl hforced⟩, hno⟩
  | wins hopen =>
      obtain ⟨hforced, -, hno⟩ := hc
      have hnone : v.first? c.client = none := by
        by_contra hsome
        rw [hgate.2 hsome] at hopen
        cases hopen
      refine ⟨⟨hlast, .inr ?_⟩, hno⟩
      refine (find?_concat v.arrivals (c.mark j) c.client).trans ?_
      rw [show v.arrivals.find? (·.client == c.client) = none from hnone]
      exact if_pos rfl
  | loses hopen =>
      obtain ⟨hforced, hnew, hno⟩ := hc
      refine ⟨hforced, hlast, fun hfirst => ?_, hno⟩
      have hsome := hgate.1 hopen
      cases hold : v.first? c.client with
      | none => exact hsome hold
      | some m =>
          have hstill := (find?_concat v.arrivals (c.mark j) c.client).symm.trans hfirst
          rw [show v.arrivals.find? (·.client == c.client) = some m from hold] at hstill
          obtain rfl := Option.some.inj hstill
          exact hnew (first?_mem hold).1
  | goes hs hs' =>
      have hin : v.LetIn (c.mark j) ∧ c.mark j ∉ v.closings := by
        rcases hs with rfl | rfl <;> exact hc
      rcases hs' with rfl | rfl <;> exact hin
  | closes i =>
      obtain ⟨hin, hno⟩ := hc
      refine ⟨hin, ?_⟩
      show (v.closings ++ [c.mark j]).count (c.mark j) = 1
      rw [List.count_append, List.count_eq_zero.2 hno, List.count_singleton_self]
  | returns i => exact hc

theorem closeMoves (h : v.Orderly) {g : ClientGroup σ} (hj : v.closes[j]? = some c)
    {stage : ShutStage} {arrives closes : Bool}
    (hm : CloseMoves (v.group.isOpen c.client) c.stage stage arrives closes)
    (hg : g.clients = if arrives then (v.group.shut c.client).clients else v.group.clients) :
    Orderly { v with
      group := g
      closes := v.closes.set j { c with stage := stage }
      arrivals := if arrives then v.arrivals ++ [c.mark j] else v.arrivals
      closings := if closes then v.closings ++ [c.mark j] else v.closings } where
  closes i d hd := by
    by_cases hij : i = j
    · subst hij
      have hlt := (List.getElem?_eq_some_iff.1 hj).1
      obtain rfl := Option.some.inj ((List.getElem?_set_self hlt).symm.trans hd)
      exact h.holds_self hj hm g
    · have hold : v.closes[i]? = some d := (List.getElem?_set_ne (Ne.symm hij)).symm.trans hd
      exact h.holds_other hold hij arrives closes g
  clients d hd := by
    have hsize : g.clients.size = v.group.clients.size := by
      rw [hg]
      cases arrives with
      | true => exact v.group.size_shut c.client
      | false => rfl
    show d.client < g.clients.size
    rw [hsize]
    rcases List.mem_or_eq_of_mem_set hd with hold | rfl
    · exact h.clients d hold
    · exact h.clients c (List.mem_of_getElem? hj)
  arrivals m hm' := by
    refine mark_set hj stage ?_
    cases arrives with
    | true =>
        rcases List.mem_append.1 hm' with hold | hnew
        · exact h.arrivals m hold
        · rw [List.mem_singleton.1 hnew]
          exact ⟨c, hj, rfl⟩
    | false => exact h.arrivals m hm'
  closings m hm' := by
    refine mark_set hj stage ?_
    cases closes with
    | true =>
        rcases List.mem_append.1 hm' with hold | hnew
        · exact h.closings m hold
        · rw [List.mem_singleton.1 hnew]
          exact ⟨c, hj, rfl⟩
    | false => exact h.closings m hm'
  gates n hn := by
    cases arrives with
    | false =>
        have hsize : n < g.clients.size := hn
        rw [hg] at hsize
        show g.isOpen n = false ↔ _
        rw [ClientGroup.isOpen_of_clients hg]
        exact h.gates n hsize
    | true =>
        have hsize : n < g.clients.size := hn
        rw [hg, if_pos rfl, ClientGroup.size_shut] at hsize
        show g.isOpen n = false ↔ (v.arrivals ++ [c.mark j]).find? (·.client == n) ≠ none
        rw [ClientGroup.isOpen_of_clients hg, ClientGroup.isOpen_shut, find?_concat]
        by_cases hclient : n = c.client
        · rw [if_pos hclient, if_pos (show (c.mark j).client = n from hclient.symm)]
          cases v.arrivals.find? (·.client == n) <;> simp
        · rw [if_neg hclient, if_neg (show (c.mark j).client ≠ n from Ne.symm hclient),
            Option.or_none]
          exact h.gates n hsize

theorem step (h : v.Orderly) (hs : v.Effect v') : v'.Orderly := by
  cases hs with
  | aside g hg =>
      refine ⟨h.closes, fun c hc => ?_, h.arrivals, h.closings, fun n hn => ?_⟩
      · rw [hg]
        exact h.clients c hc
      · rw [hg] at hn
        rw [ClientGroup.isOpen_of_clients hg]
        exact h.gates n hn
  | binds g id hg => exact h.binds hg
  | sends call hn => exact ⟨h.closes, h.clients, h.arrivals, h.closings, h.gates⟩
  | sendMoves g hk hm hg =>
      refine ⟨h.closes, fun c hc => ?_, h.arrivals, h.closings, fun n hn => ?_⟩
      · rw [hg, ClientGroup.size_recount]
        exact h.clients c hc
      · rw [hg, ClientGroup.size_recount] at hn
        rw [ClientGroup.isOpen_of_clients hg, ClientGroup.isOpen_recount]
        exact h.gates n hn
  | closes n forced hn =>
      refine ⟨fun j c hj => ?_, fun c hc => ?_, ?_, ?_, h.gates⟩
      · by_cases hlt : j < v.closes.length
        · exact h.closes j c ((List.getElem?_append_left hlt).symm.trans hj)
        · have hlast : j = v.closes.length := by
            have hle := (List.getElem?_eq_some_iff.1 hj).1
            rw [List.length_append, List.length_singleton] at hle
            omega
          subst hlast
          obtain rfl := Option.some.inj (List.getElem?_concat_length.symm.trans hj)
          exact ⟨rfl, not_mem_of_length _ h.arrivals, not_mem_of_length _ h.closings⟩
      · rcases List.mem_append.1 hc with hold | hnew
        · exact h.clients c hold
        · rw [List.mem_singleton.1 hnew]
          exact hn
      · exact marks_append _ h.arrivals
      · exact marks_append _ h.closings
  | closeMoves g hj hm hg => exact h.closeMoves hj hm hg

end Orderly

variable [SessionHost σ]

theorem Reached.orderly (h : v.Reached) : v.Orderly := by
  refine h.invariant (P := Orderly) ?_ fun _ _ _ hs hv => hv.step (effect_of_step hs)
  rintro _ ⟨s⟩
  refine ⟨nofun, nofun, nofun, nofun, fun n hn => ?_⟩
  exact absurd hn (Nat.not_lt_zero n)

/-! ## Later moments -/

/-- A gate that is shut stays shut. -/
theorem Reached.shut_steps (h : v.Reached) (hs : Steps v v') (hn : n < v.group.clients.size)
    (hshut : v.group.isOpen n = false) : v'.group.isOpen n = false := by
  obtain ⟨hmore, hsize⟩ := hs.grows
  have hsome := (h.orderly.gates n hn).1 hshut
  refine ((Reached.orderly (h.steps hs)).gates n (Nat.lt_of_lt_of_le hn hsize)).2 fun hnone => ?_
  cases hfirst : v.first? n with
  | none => exact hsome hfirst
  | some m =>
      rw [first?_later hmore hfirst] at hnone
      cases hnone

/-! ## The winner -/

omit [SessionHost σ] in
/-- The first to come is an unforced close exactly if one comes before all forced ones. -/
theorem beatsForced_iff :
    v.BeatsForced n ↔ ∃ m, v.first? n = some m ∧ m.forced = false := by
  constructor
  · rintro ⟨i, m, hi, hclient, hunforced, hbefore⟩
    cases hfirst : v.first? n with
    | none =>
        rw [← hclient] at hfirst
        exact absurd hfirst (first?_ne_none (List.mem_of_getElem? hi))
    | some m₀ =>
        refine ⟨m₀, rfl, ?_⟩
        obtain ⟨hclient₀, i₀, hlt, hi₀, hleast⟩ := List.find?_eq_some_iff_getElem.1 hfirst
        cases hforced : m₀.forced with
        | false => rfl
        | true =>
            have hfirst₀ : v.arrivals[i₀]? = some m₀ := List.getElem?_eq_some_iff.2 ⟨hlt, hi₀⟩
            have hi_lt := hbefore i₀ m₀ hfirst₀ (by simpa using hclient₀) hforced
            obtain ⟨hlt', hi'⟩ := List.getElem?_eq_some_iff.1 hi
            have hother := hleast i hi_lt
            simp [hi', hclient] at hother
  · rintro ⟨m, hfirst, hunforced⟩
    obtain ⟨hclient, i, hlt, hi, hleast⟩ := List.find?_eq_some_iff_getElem.1 hfirst
    refine ⟨i, m, List.getElem?_eq_some_iff.2 ⟨hlt, hi⟩, by simpa using hclient, hunforced, ?_⟩
    intro i' m' hi' hclient' hforced'
    obtain ⟨hlt', heq⟩ := List.getElem?_eq_some_iff.1 hi'
    rcases Nat.lt_trichotomy i i' with hbefore | rfl | hafter
    · exact hbefore
    · rw [hi] at heq
      rw [heq, hforced'] at hunforced
      cases hunforced
    · have hother := hleast i' hafter
      simp [heq, hclient'] at hother

omit [SessionHost σ] in
/-- Whoever closed the client was the first to come. -/
theorem Orderly.first?_of_won (h : v.Orderly) (hwon : v.Won n j) :
    v.first? n = some ⟨j, n, false⟩ := by
  obtain ⟨⟨-, hforced | hfirst⟩, -⟩ := h.closes j _ hwon
  · cases hforced
  · exact hfirst

omit [SessionHost σ] in
/-- An unforced close that was the first to come and is over closed the client. -/
theorem Orderly.won_of_first? (h : v.Orderly) {m : CloseMark} (hm : v.first? n = some m)
    (hunforced : m.forced = false) (hover : v.IsOver n) : v.Won n m.number := by
  obtain ⟨hmem, rfl⟩ := first?_mem hm
  obtain ⟨c, hc, hmark⟩ := h.arrivals m hmem
  have hclient : c.client = m.client := congrArg CloseMark.client hmark
  have hforced : c.forced = false := (congrArg CloseMark.forced hmark).trans hunforced
  obtain ⟨answer, hanswer⟩ := hover c (List.mem_of_getElem? hc) hclient
  cases answer with
  | true =>
      rw [Won, hc, ← hclient, ← hforced, ← hanswer]
  | false =>
      have hholds := h.closes _ c hc
      unfold CloseHolds at hholds
      rw [hanswer] at hholds
      rw [hclient, hmark] at hholds
      exact absurd hm hholds.2.2.1

/-! ## How often the session is closed -/

/-- The close has called the session's close. -/
def Close.hasCalled (c : Close) : Bool :=
  match c.stage with
  | .going _ | .returned false => false
  | .handed _ | .returned true => true

/-- The unforced close answered that it closed the client. -/
def Close.isWinner (c : Close) : Bool :=
  match c.stage with
  | .returned true => !c.forced
  | _ => false

omit [SessionHost σ] in
/-- The session's close is called by the closes that say so. -/
theorem Effect.called (hs : v.Effect v')
    (h : v.closings.countP (·.client == n) =
      v.closes.countP fun c => c.client == n && c.hasCalled) :
    v'.closings.countP (·.client == n) =
      v'.closes.countP fun c => c.client == n && c.hasCalled := by
  cases hs with
  | closes m forced hn =>
      rw [List.countP_append, ← h]
      simp [Close.hasCalled]
  | closeMoves g hj hm hg =>
      rename_i j c stage arrives closes
      have hset := countP_set_add (fun c : Close => c.client == n && c.hasCalled)
        { c with stage := stage } hj
      dsimp only at hset
      have hself : (c.client == n && Close.hasCalled { c with stage := stage }).toNat =
          (c.client == n && c.hasCalled).toNat + (closes && c.client == n).toNat := by
        unfold Close.hasCalled
        generalize c.stage = before at hm
        cases hm <;> cases c.client == n <;> rfl
      have hadded : (if closes then v.closings ++ [c.mark j] else v.closings).countP
          (·.client == n) = v.closings.countP (·.client == n) + (closes && c.client == n).toNat := by
        cases closes with
        | true =>
            rw [if_pos rfl, List.countP_append, List.countP_singleton]
            cases hc : c.client == n <;> simp [Close.mark, hc]
        | false => rfl
      show List.countP _ (if closes then v.closings ++ [c.mark j] else v.closings) =
        List.countP _ (v.closes.set j { c with stage := stage })
      omega
  | _ => exact h

theorem Reached.called (h : v.Reached) (n : Nat) :
    v.closings.countP (·.client == n) =
      v.closes.countP fun c => c.client == n && c.hasCalled := by
  refine h.invariant (P := fun v => v.closings.countP (·.client == n) =
    v.closes.countP fun c => c.client == n && c.hasCalled) ?_ ?_
  · rintro _ ⟨s⟩
    rfl
  · exact fun _ _ _ hs hv => (effect_of_step hs).called hv

omit [SessionHost σ] in
/-- When all its closes have returned, the session's close was called by the forced ones
and by those that closed the client. -/
theorem Orderly.countP_hasCalled (h : v.Orderly) (hover : v.IsOver n) :
    (v.closes.countP fun c => c.client == n && c.hasCalled) =
      (v.closes.countP fun c => c.client == n && c.forced) +
        v.closes.countP fun c => c.client == n && c.isWinner := by
  refine countP_eq_add fun c hc => ?_
  obtain ⟨j, hj⟩ := List.getElem?_of_mem hc
  by_cases hclient : c.client = n
  · obtain ⟨answer, hanswer⟩ := hover c hc hclient
    have hholds := h.closes j c hj
    unfold CloseHolds at hholds
    rw [hanswer] at hholds
    unfold Close.hasCalled Close.isWinner
    rw [hanswer]
    cases answer with
    | true => cases c.forced <;> cases c.client == n <;> rfl
    | false =>
        rw [hholds.1]
        cases c.client == n <;> rfl
  · have hother : (c.client == n) = false := by simpa using hclient
    rw [hother]
    rfl

private theorem countP_le_one {α : Type} {p : α → Bool} {l : List α}
    (h : ∀ (i j : Nat) (a b : α), l[i]? = some a → l[j]? = some b → p a = true → p b = true →
      i = j) : l.countP p ≤ 1 := by
  induction l with
  | nil => exact Nat.zero_le 1
  | cons x xs ih =>
      by_cases hx : p x = true
      · have hnone : xs.countP p = 0 := by
          refine List.countP_eq_zero.2 fun a ha hpa => ?_
          obtain ⟨i, hi⟩ := List.getElem?_of_mem ha
          have hzero := h 0 (i + 1) x a rfl hi hx hpa
          omega
        refine Nat.le_of_eq ?_
        rw [List.countP_cons_of_pos hx, hnone]
      · have hrest := ih fun i j a b hi hj ha hb =>
          Nat.succ.inj (h (i + 1) (j + 1) a b hi hj ha hb)
        rw [List.countP_cons_of_neg hx]
        exact hrest

omit [SessionHost σ] in
theorem won_of_isWinner (hj : v.closes[j]? = some c) (hclient : c.client = n)
    (hc : c.isWinner = true) : v.Won n j := by
  obtain ⟨m, forced, stage⟩ := c
  obtain rfl : m = n := hclient
  cases stage with
  | returned answer =>
      cases answer with
      | true =>
          obtain rfl : forced = false := by simpa [Close.isWinner] using hc
          exact hj
      | false => cases hc
  | _ => cases hc

omit [SessionHost σ] in
/-- How often a close that has returned has called the session's close. -/
theorem Orderly.count_closings (h : v.Orderly) (hj : v.closes[j]? = some c) {answer : Bool}
    (hs : c.stage = .returned answer) :
    v.closings.count (c.mark j) ≤ 1 ∧
      (v.closings.count (c.mark j) = 1 ↔ c.forced = true ∨ v.Won c.client j) := by
  have hholds := h.closes j c hj
  unfold CloseHolds at hholds
  rw [hs] at hholds
  cases answer with
  | true =>
      refine ⟨Nat.le_of_eq hholds.2, iff_of_true hholds.2 ?_⟩
      cases hforced : c.forced with
      | true => exact .inl rfl
      | false =>
          refine .inr (won_of_isWinner hj rfl ?_)
          unfold Close.isWinner
          rw [hs, hforced]
          rfl
  | false =>
      obtain ⟨hforced, -, -, hno⟩ := hholds
      have hzero := List.count_eq_zero.2 hno
      refine ⟨by omega, iff_of_false (by omega) ?_⟩
      rintro (hyes | hwon)
      · rw [hforced] at hyes
        cases hyes
      · rw [Won, hj] at hwon
        rw [Option.some.inj hwon] at hs
        cases hs

/-! ## Closing once -/

/-- A client is closed once.  Of all unforced closes of a client one at most answers
"yes", and it was at the gate before every other close.  A gate never opens again.
When all closes of the client have returned, one of them has answered "yes" exactly if
an unforced close came to the gate before every forced one; and each of them has called
the session's close once if it was forced or answered "yes", and never otherwise. -/
theorem closes_once (h : v.Reached) (n : Nat) :
    (∀ j j', v.Won n j → v.Won n j' → j = j') ∧
    (∀ j, v.Won n j → v.BeatsForced n) ∧
    (∀ v', Steps v v' → n < v.group.clients.size → v.group.isOpen n = false →
      v'.group.isOpen n = false) ∧
    (v.IsOver n →
      ((∃ j, v.Won n j) ↔ v.BeatsForced n) ∧
      (∀ j c, v.closes[j]? = some c → c.client = n →
        v.closings.count (c.mark j) ≤ 1 ∧
        (v.closings.count (c.mark j) = 1 ↔ c.forced = true ∨ v.Won n j)) ∧
      v.closings.countP (·.client == n) =
        (v.closes.countP fun c => c.client == n && c.forced) +
          (v.closes.countP fun c => c.client == n && c.isWinner) ∧
      (v.closes.countP fun c => c.client == n && c.isWinner) ≤ 1) := by
  have horderly := h.orderly
  have hunique : ∀ j j', v.Won n j → v.Won n j' → j = j' := by
    intro j j' hj hj'
    have hsame := (horderly.first?_of_won hj).symm.trans (horderly.first?_of_won hj')
    exact congrArg CloseMark.number (Option.some.inj hsame)
  have hbeats : ∀ j, v.Won n j → v.BeatsForced n := fun j hj =>
    beatsForced_iff.2 ⟨_, horderly.first?_of_won hj, rfl⟩
  refine ⟨hunique, hbeats, fun v' hs => h.shut_steps hs, fun hover => ⟨?_, ?_, ?_, ?_⟩⟩
  · constructor
    · rintro ⟨j, hj⟩
      exact hbeats j hj
    · intro hbeat
      obtain ⟨m, hm, hunforced⟩ := beatsForced_iff.1 hbeat
      exact ⟨m.number, horderly.won_of_first? hm hunforced hover⟩
  · rintro j c hj rfl
    obtain ⟨answer, hanswer⟩ := hover c (List.mem_of_getElem? hj) rfl
    exact horderly.count_closings hj hanswer
  · rw [h.called n, horderly.countP_hasCalled hover]
  · refine countP_le_one fun i j a b hi hj ha hb => ?_
    rw [Bool.and_eq_true, beq_iff_eq] at ha hb
    exact hunique i j (won_of_isWinner hi ha.1 ha.2) (won_of_isWinner hj hb.1 hb.2)

/-! ### A race -/

/-- A close does its next steps, up to a number of them. -/
abbrev closeFor (v : Dealings σ) (j m : Nat) : Dealings σ := repeated (·.closeOn j) v m

/-- The session closes and returns to the close that waits for it. -/
def closeEnded (v : Dealings σ) (j : Nat) : Dealings σ :=
  match v.closes[j]? with
  | some ⟨n, forced, .handed _⟩ =>
    { v with
      group := { v.group with session := (SessionHost.close v.group.session).2 }
      closes := v.closes.set j ⟨n, forced, .returned true⟩ }
  | _ => v

theorem steps_closeFor (v : Dealings σ) (j m : Nat) : Steps v (v.closeFor j m) :=
  steps_repeated (fun _ _ => .closeGoes) v m

theorem steps_closeEnded (v : Dealings σ) (j : Nat) : Steps v (v.closeEnded j) := by
  unfold closeEnded
  split
  · rename_i n forced i hj
    have hclosed : Steps v _ :=
      .single (.session (SessionHost.close v.group.session).2 v.group.notes)
    exact hclosed.tail (.closeReturns (c := ⟨n, forced, .handed i⟩) (by exact hj) rfl)
  · exact .refl

/-- A scripted session with one client, that three callers begin to close, the second
by force. -/
def assailed : Dealings ScriptedSession where
  group := (ClientGroup.bind
    { session := { id := 0, remote := none, script := [], otherwise := .auto } }).2
  closes := [⟨0, false, .going (.gate false)⟩, ⟨0, true, .going (.gate true)⟩,
    ⟨0, false, .going (.gate false)⟩]

/-- They come to the gate one after the other; then the forced one goes on before the
winner. -/
def raced : Dealings ScriptedSession :=
  ((((assailed.closeFor 0 1).closeFor 1 1).closeFor 2 1).closeFor 1 3).closeFor 0 3

/-- The session has closed for those who asked for it. -/
def shutTwice : Dealings ScriptedSession := (raced.closeEnded 0).closeEnded 1

theorem reached_shutTwice : shutTwice.Reached := by
  have hbound : Steps (σ := ScriptedSession) { group := { session :=
    { id := 0, remote := none, script := [], otherwise := .auto } } } _ := .single (.binds ⟨0⟩)
  have hbegun : Steps _ assailed := ((hbound.tail (.closes 0 false (by decide))).tail
    (.closes 0 true (by decide))).tail (.closes 0 false (by decide))
  have hraced : Steps assailed raced :=
    ((((steps_closeFor _ 0 1).trans (steps_closeFor _ 1 1)).trans (steps_closeFor _ 2 1)).trans
      (steps_closeFor _ 1 3)).trans (steps_closeFor _ 0 3)
  have hclosed : Steps raced shutTwice := (steps_closeEnded _ 0).trans (steps_closeEnded _ 1)
  exact ⟨_, .start _, (hbegun.trans hraced).trans hclosed⟩

theorem shutTwice_is_closed_once :
    shutTwice.BeatsForced 0 ∧ (∀ j, shutTwice.Won 0 j → j = 0) ∧
      shutTwice.closings.count ⟨0, 0, false⟩ = 1 ∧
      shutTwice.closings = [⟨1, 0, true⟩, ⟨0, 0, false⟩] ∧
      shutTwice.group.session.closeCalls = 2 := by
  obtain ⟨hunique, hbeats, -, hover⟩ := closes_once reached_shutTwice 0
  have hwon : shutTwice.Won 0 0 := rfl
  have hstages : shutTwice.closes.map (·.stage) =
      [.returned true, .returned true, .returned false] := rfl
  have hall : shutTwice.IsOver 0 := by
    intro c hc _
    have hstage := List.mem_map_of_mem (f := fun c : Close => c.stage) hc
    rw [hstages] at hstage
    simp only [List.mem_cons, List.not_mem_nil, or_false, or_self_left] at hstage
    rcases hstage with hstage | hstage
    · exact ⟨true, hstage⟩
    · exact ⟨false, hstage⟩
  obtain ⟨-, hcounts, -⟩ := hover hall
  exact ⟨hbeats 0 hwon, fun j hj => hunique j 0 hj hwon, (hcounts 0 _ rfl rfl).2.2 (.inr hwon),
    rfl, rfl⟩

end Dealings

end PeerLink
