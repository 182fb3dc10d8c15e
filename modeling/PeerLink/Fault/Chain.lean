import PeerLink.Fault.Basic

/-!
# Chains of failures

An error report is a chain: each failure may have been raised for another one. Such a chain is
walked by asking each failure for its source. An i/o failure raised around another failure takes
that failure's text and hands on that failure's source, so the walk steps over what it wraps.

## Main results

* `Failure.sources_eq` — the walk is the source, followed by the walk from there;
* `Failure.hasIoSource_transport` — of the transport errors, exactly the i/o ones have an i/o
  failure among their sources.
-/

namespace PeerLink

/-- A failure in an error report. -/
inductive Failure
  /-- A failure that is only told. -/
  | plain (text : String)
  /-- A failure that was raised for another one. -/
  | caused (text : String) (cause : Failure)
  /-- A stream failure raised around another failure. -/
  | around (inner : Failure)
  /-- A stream failure. -/
  | io (fault : IoFault)
  /-- A transport error. -/
  | transport (error : TransportError)

namespace Failure

/-- The text of a failure. -/
def message : Failure → String
  | plain text | caused text _ => text
  | around inner => inner.message
  | io fault => fault.message
  | transport error => error.message

/-- The failure is one of a stream. -/
def isIo : Failure → Bool
  | around _ | io _ => true
  | _ => false

/-- What the failure was raised for. -/
def source? : Failure → Option Failure
  | plain _ => none
  | caused _ cause => some cause
  | around inner => inner.source?
  | io fault => fault.sources.head?.map io
  | transport error => error.source?.map io

/-- Every failure met on the way from source to source. -/
def sources : Failure → List Failure
  | plain _ => []
  | caused _ cause => cause :: cause.sources
  | around inner => inner.sources
  | io fault => fault.sources.map io
  | transport error => error.sources.map io

/-- Some failure on the way is one of a stream. -/
def hasIoSource (f : Failure) : Bool :=
  f.sources.any isIo

/-- The texts from the failure itself to the end of the walk. -/
def walk (f : Failure) : List String :=
  (f :: f.sources).map message

mutual

private theorem sources_transport : (e : TransportError) →
    e.sources = match e.sources.head? with
      | none => []
      | some fault => fault :: fault.sources
  | .io fault => by simp [TransportError.sources]
  | .sessionClosed | .frameTooLarge _ _ | .encode _ | .malformed | .canceled => by
    simp [TransportError.sources]

private theorem sources_fault : (f : IoFault) →
    f.sources = match f.sources.head? with
      | none => []
      | some fault => fault :: fault.sources
  | .wrapping _ cause => by simpa [IoFault.sources] using sources_transport cause
  | .bare _ | .told _ _ | .system _ _ _ => by simp [IoFault.sources]

end

private theorem map_io_sources {walk : List IoFault}
    (h : walk = match walk.head? with
      | none => []
      | some fault => fault :: fault.sources) :
    walk.map io = match walk.head?.map io with
      | none => []
      | some cause => cause :: cause.sources := by
  cases walk with
  | nil => rfl
  | cons fault rest =>
    simp only [List.head?_cons, List.cons.injEq, true_and] at h
    simp [sources, h]

theorem sources_eq (f : Failure) :
    f.sources = match f.source? with
      | none => []
      | some cause => cause :: cause.sources := by
  induction f with
  | plain text => simp [sources, source?]
  | caused text cause _ => simp [sources, source?]
  | around inner ih => simpa [sources, source?] using ih
  | io fault => exact map_io_sources (sources_fault fault)
  | transport error => exact map_io_sources (sources_transport error)

theorem hasIoSource_transport (e : TransportError) :
    (transport e).hasIoSource = e.hasIoSource := by
  cases e <;> simp [hasIoSource, sources, TransportError.hasIoSource, TransportError.sources,
    isIo]

end Failure

end PeerLink
