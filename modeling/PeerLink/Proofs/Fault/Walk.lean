import PeerLink.Fault.Chain

/-!
# How far the walk through an error report reaches

An error report is a row of links.  Whoever looks for a stream failure in it goes from
source to source, and that is not from link to link: a stream failure hands on the source
of what it wraps, so what it wraps is stepped over.  The failure at the front is never
looked at either.

So the walk comes to a link if and only if the link before it is a plain one, and behind
a transport error at the end to the stream failure that this one carries.

## Main results

* `Failure.search_iff` — the search comes to an end, with one answer.
* `Failure.hasIoSource_iff_links` — when a stream failure is found.
* `Failure.sources_of_links` — behind stream failures only, a link is not looked at.
-/

namespace PeerLink

/-! ## Sources are smaller -/

mutual

private theorem sizeOf_sources_transport : (e : TransportError) → ∀ fault ∈ e.sources,
    sizeOf fault < sizeOf e
  | .io fault => by
      intro fault' h
      rw [TransportError.sources] at h
      rcases List.mem_cons.1 h with rfl | h
      · simp
      · have hlt := sizeOf_sources_fault fault fault' h
        simp only [TransportError.io.sizeOf_spec]
        omega
  | .sessionClosed | .frameTooLarge _ _ | .encode _ | .malformed | .canceled => by
      intro fault' h
      simp [TransportError.sources] at h

private theorem sizeOf_sources_fault : (f : IoFault) → ∀ fault ∈ f.sources,
    sizeOf fault < sizeOf f
  | .wrapping kind cause => by
      intro fault' h
      rw [IoFault.sources] at h
      have hlt := sizeOf_sources_transport cause fault' h
      simp only [IoFault.wrapping.sizeOf_spec]
      omega
  | .bare _ | .told _ _ | .system _ _ _ => by
      intro fault' h
      simp [IoFault.sources] at h

end

namespace Failure

theorem sizeOf_lt_of_mem_sources {f g : Failure} (h : g ∈ f.sources) : sizeOf g < sizeOf f := by
  induction f with
  | plain text => simp [sources] at h
  | caused text cause ih =>
      rw [sources] at h
      rcases List.mem_cons.1 h with rfl | h
      · simp only [caused.sizeOf_spec]
        omega
      · have hlt := ih h
        simp only [caused.sizeOf_spec]
        omega
  | around inner ih =>
      have hlt := ih h
      simp only [around.sizeOf_spec]
      omega
  | io fault =>
      obtain ⟨fault', hmem, rfl⟩ := List.mem_map.1 h
      have hlt := sizeOf_sources_fault fault fault' hmem
      simp only [io.sizeOf_spec]
      omega
  | transport error =>
      obtain ⟨fault, hmem, rfl⟩ := List.mem_map.1 h
      have hlt := sizeOf_sources_transport error fault hmem
      simp only [io.sizeOf_spec, transport.sizeOf_spec]
      omega

/-- No failure was raised for itself. -/
theorem not_mem_sources (f : Failure) : f ∉ f.sources :=
  fun h => Nat.lt_irrefl _ (sizeOf_lt_of_mem_sources h)

/-! ## The search -/

/-- The search for a stream failure, from the failure that is looked at next.  It ends
where there is none, or where it has found one. -/
inductive Search : Option Failure → Bool → Prop
  | ends : Search none false
  | finds {f : Failure} (hf : f.isIo = true) : Search (some f) true
  | goesOn {f : Failure} {answer : Bool} (hf : f.isIo = false) (h : Search f.source? answer) :
      Search (some f) answer

theorem Search.unique {f? : Option Failure} {answer answer' : Bool} (h : Search f? answer)
    (h' : Search f? answer') : answer = answer' := by
  induction h with
  | ends =>
      cases h'
      rfl
  | finds hf =>
      cases h' with
      | finds => rfl
      | goesOn hf' => rw [hf] at hf'; cases hf'
  | goesOn hf _ ih =>
      cases h' with
      | finds hf' => rw [hf] at hf'; cases hf'
      | goesOn _ h' => exact ih h'

/-- The search that begins with the source of a failure looks at its sources one by one. -/
theorem search_sources (f : Failure) : Search f.source? f.hasIoSource := by
  induction hrow : f.sources generalizing f with
  | nil =>
      have hsources := f.sources_eq
      rw [hrow] at hsources
      cases hf : f.source? with
      | none =>
          rw [hasIoSource, hrow]
          exact .ends
      | some cause =>
          rw [hf] at hsources
          cases hsources
  | cons g rest ih =>
      have hsources := f.sources_eq
      rw [hrow] at hsources
      cases hf : f.source? with
      | none =>
          rw [hf] at hsources
          cases hsources
      | some cause =>
          rw [hf] at hsources
          obtain ⟨rfl, rfl⟩ := List.cons.inj hsources
          have hany : f.hasIoSource = (g.isIo || g.hasIoSource) := by
            rw [hasIoSource, hrow, List.any_cons]
            rfl
          rw [hany]
          cases hio : g.isIo with
          | true => exact .finds hio
          | false => exact .goesOn hio (ih g rfl)

theorem search_iff (f : Failure) (answer : Bool) :
    Search f.source? answer ↔ answer = f.hasIoSource := by
  constructor
  · intro h
    exact h.unique f.search_sources
  · rintro rfl
    exact f.search_sources

/-! ## Links -/

/-- The failure is neither one of a stream nor a transport error. -/
def isPlain : Failure → Bool
  | plain _ | caused _ _ => true
  | _ => false

/-- The links of an error report, outermost first.  A transport error is the last one. -/
def links : Failure → List Failure
  | plain text => [plain text]
  | caused text cause => caused text cause :: cause.links
  | around inner => around inner :: inner.links
  | io (.wrapping kind cause) => [io (.wrapping kind cause), transport cause]
  | io fault => [io fault]
  | transport error => [transport error]

/-- Somewhere in the row a plain link is followed by one of a stream. -/
def IsIoBehindPlain (row : List Failure) : Prop :=
  ∃ a b, [a, b] <:+: row ∧ a.isPlain = true ∧ b.isIo = true

theorem head?_links (f : Failure) : f.links.head? = some f := by
  cases f with
  | io fault => cases fault <;> rfl
  | _ => rfl

theorem exists_links (f : Failure) : ∃ rest, f.links = f :: rest := by
  cases h : f.links with
  | nil =>
      have hhead := f.head?_links
      rw [h] at hhead
      cases hhead
  | cons g rest =>
      have hhead := f.head?_links
      rw [h] at hhead
      obtain rfl := Option.some.inj hhead
      exact ⟨rest, rfl⟩

theorem not_isIoBehindPlain_singleton (f : Failure) : ¬ IsIoBehindPlain [f] := by
  rintro ⟨a, b, hinfix, -⟩
  have hlength : 2 ≤ 1 := hinfix.length_le
  omega

theorem isIoBehindPlain_cons (f g : Failure) (rest : List Failure) :
    IsIoBehindPlain (f :: g :: rest) ↔
      f.isPlain = true ∧ g.isIo = true ∨ IsIoBehindPlain (g :: rest) := by
  constructor
  · rintro ⟨a, b, hinfix, ha, hb⟩
    rcases List.infix_cons_iff.1 hinfix with hprefix | hinfix
    · obtain ⟨rfl, htail⟩ := List.cons_prefix_cons.1 hprefix
      obtain ⟨rfl, -⟩ := List.cons_prefix_cons.1 htail
      exact .inl ⟨ha, hb⟩
    · exact .inr ⟨a, b, hinfix, ha, hb⟩
  · rintro (⟨hf, hg⟩ | ⟨a, b, hinfix, ha, hb⟩)
    · have hprefix : [f, g] <+: f :: g :: rest := ⟨rest, rfl⟩
      exact ⟨f, g, hprefix.isInfix, hf, hg⟩
    · exact ⟨a, b, List.infix_cons hinfix, ha, hb⟩

/-- A link in front of a row is seen by what it does to the row. -/
private theorem isIoBehindPlain_links (f g : Failure) :
    IsIoBehindPlain (f :: g.links) ↔
      f.isPlain = true ∧ g.isIo = true ∨ IsIoBehindPlain g.links := by
  obtain ⟨rest, hrest⟩ := g.exists_links
  rw [hrest]
  exact isIoBehindPlain_cons f g rest

private theorem getLast?_cons_links (f g : Failure) :
    (f :: g.links).getLast? = g.links.getLast? := by
  obtain ⟨rest, hrest⟩ := g.exists_links
  rw [hrest]
  exact List.getLast?_cons_cons

private theorem hasIoSource_transport_iff (e : TransportError) :
    (transport e).hasIoSource = true ↔ ∃ fault, e = .io fault := by
  rw [hasIoSource_transport]
  cases e <;> simp [TransportError.hasIoSource, TransportError.sources]

/-- A stream failure is found behind a plain link, or in a transport error at the end. -/
theorem hasIoSource_iff_links (f : Failure) :
    f.hasIoSource = true ↔
      IsIoBehindPlain f.links ∨ ∃ fault, f.links.getLast? = some (transport (.io fault)) := by
  induction f with
  | plain text =>
      have hnot := not_isIoBehindPlain_singleton (plain text)
      simp [hasIoSource, sources, links, hnot]
  | caused text cause ih =>
      have hany : (caused text cause).hasIoSource = (cause.isIo || cause.hasIoSource) := by
        rw [hasIoSource, sources, List.any_cons]
        rfl
      rw [hany, Bool.or_eq_true, ih, links, isIoBehindPlain_links, getLast?_cons_links]
      simp [isPlain, or_assoc]
  | around inner ih =>
      have hsame : (around inner).hasIoSource = inner.hasIoSource := rfl
      rw [hsame, ih, links, isIoBehindPlain_links, getLast?_cons_links]
      simp [isPlain]
  | io fault =>
      cases fault with
      | wrapping kind cause =>
          have hsame : (io (.wrapping kind cause)).hasIoSource = (transport cause).hasIoSource := by
            rw [hasIoSource, hasIoSource, sources, sources, IoFault.sources]
          have hnot := not_isIoBehindPlain_singleton (transport cause)
          rw [hsame, hasIoSource_transport_iff, links, isIoBehindPlain_cons]
          simp [isPlain, hnot]
      | _ =>
          simp [hasIoSource, sources, IoFault.sources, links, not_isIoBehindPlain_singleton]
  | transport error =>
      rw [hasIoSource_transport_iff, links]
      simp [not_isIoBehindPlain_singleton]

theorem links_inj {f g : Failure} (h : f.links = g.links) : f = g := by
  have hhead := f.head?_links
  rw [h, head?_links] at hhead
  exact (Option.some.inj hhead).symm

/-- What stands behind stream failures only is stepped over: the walk goes on as if it had
begun there, and a walk does not look at where it begins. -/
theorem sources_of_links {f g : Failure} {before : List Failure}
    (h : f.links = before ++ g.links) (hbefore : ∀ l ∈ before, l.isIo = true) :
    f.sources = g.sources ∧ g ∉ f.sources := by
  suffices hsame : f.sources = g.sources by
    refine ⟨hsame, ?_⟩
    rw [hsame]
    exact g.not_mem_sources
  induction before generalizing f with
  | nil => rw [links_inj h]
  | cons l before ih =>
      obtain ⟨hl, hrest⟩ := List.forall_mem_cons.1 hbefore
      have hhead := f.head?_links
      rw [h] at hhead
      obtain rfl := Option.some.inj hhead
      cases l with
      | plain text | caused text cause | transport error => cases hl
      | around inner =>
          have hsame : (around inner).sources = inner.sources := rfl
          rw [hsame]
          exact ih (List.cons.inj h).2 hrest
      | io fault =>
          cases fault with
          | wrapping kind cause =>
              have htail : (transport cause).links = before ++ g.links := (List.cons.inj h).2
              have hsame : (io (.wrapping kind cause)).sources = (transport cause).sources := by
                rw [sources, sources, IoFault.sources]
              rw [hsame]
              exact ih htail hrest
          | _ =>
              obtain ⟨rest, hlinks⟩ := g.exists_links
              have htail : [] = before ++ g.links := (List.cons.inj h).2
              rw [hlinks] at htail
              exact absurd htail.symm (List.append_ne_nil_of_right_ne_nil _ (List.cons_ne_nil _ _))

end Failure

end PeerLink
