import PeerLink.Fault.Kind
import PeerLink.Text.Quoted

/-!
# Transport errors

A send ends well or with a `TransportError`. One of its cases carries an i/o fault of the stream,
and such a fault may itself have been raised around another transport error, so the two types are
defined together.

## Main results

* `TransportError.isIoFault_iff` — exactly i/o failures and closed sessions count as faults of
  the connection, whatever is nested inside them.
-/

namespace PeerLink

mutual

/-- Why a send, a receive or a connect failed. -/
inductive TransportError
  /-- The stream underneath failed. -/
  | io (fault : IoFault)
  /-- The session was closed before the send could be written. -/
  | sessionClosed
  /-- A frame of `size` bytes where at most `limit` are allowed. -/
  | frameTooLarge (size limit : Nat)
  /-- The message could not be written as a frame. -/
  | encode (text : String)
  /-- An inbound frame too short to hold a type code. -/
  | malformed
  /-- The send was given up by whoever had to resolve it. -/
  | canceled

/-- What is known about a failure of the stream. -/
inductive IoFault
  /-- Only its kind. -/
  | bare (kind : IoKind)
  /-- Its kind and a text. -/
  | told (kind : IoKind) (text : String)
  /-- The error code of the system, with the kind and the text the system has for it. -/
  | system (kind : IoKind) (code : Nat) (text : String)
  /-- Its kind and the error it was raised for. -/
  | wrapping (kind : IoKind) (cause : TransportError)

end

deriving instance DecidableEq, Repr for IoFault, TransportError

instance : Inhabited TransportError := ⟨.canceled⟩

/-- The kind of a stream failure. -/
def IoFault.kind : IoFault → IoKind
  | .bare k | .told k _ | .system k _ _ | .wrapping k _ => k

/-! ## Texts -/

mutual

/-- The text of a transport error. -/
def TransportError.message : TransportError → String
  | .io fault => "i/o error: " ++ fault.message
  | .sessionClosed => "session closed"
  | .frameTooLarge size limit => s!"frame too large: {size} bytes (limit {limit})"
  | .encode text => "encode failed: " ++ text
  | .malformed => "malformed frame"
  | .canceled => "send canceled"

/-- The text of a stream failure. -/
def IoFault.message : IoFault → String
  | .bare kind => kind.description
  | .told _ text => text
  | .system _ code text => s!"{text} (os error {code})"
  | .wrapping _ cause => cause.message

end

mutual

/-- A transport error as a nested term. -/
def TransportError.debugText : TransportError → String
  | .io fault => s!"Io({fault.debugText})"
  | .sessionClosed => "SessionClosed"
  | .frameTooLarge size limit =>
    s!"FrameTooLarge \x7b size: {size}, limit: {limit} \x7d"
  | .encode text => s!"Encode({Text.quote text})"
  | .malformed => "Malformed"
  | .canceled => "Canceled"

/-- A stream failure as a nested term. -/
def IoFault.debugText : IoFault → String
  | .bare kind => s!"Kind({kind.name})"
  | .told kind text => s!"Custom \x7b kind: {kind.name}, error: {Text.quote text} \x7d"
  | .system kind code text =>
    s!"Os \x7b code: {code}, kind: {kind.name}, message: {Text.quote text} \x7d"
  | .wrapping kind cause => s!"Custom \x7b kind: {kind.name}, error: {cause.debugText} \x7d"

end

/-! ## Sources

The source of an error is the error it was raised for. An i/o failure that wraps an error passes
on that error's source and not the error itself. -/

mutual

/-- Every error that walking from source to source meets, the error itself left out. -/
def TransportError.sources : TransportError → List IoFault
  | .io fault => fault :: fault.sources
  | _ => []

/-- Every error that walking from source to source meets, the failure itself left out. -/
def IoFault.sources : IoFault → List IoFault
  | .wrapping _ cause => cause.sources
  | _ => []

end

namespace TransportError

/-- The error this one was raised for. -/
def source? (e : TransportError) : Option IoFault :=
  e.sources.head?

/-- Some source of the error is a failure of a stream. -/
def hasIoSource (e : TransportError) : Bool :=
  !e.sources.isEmpty

/-- The connection is to blame, so the send may be tried again on another one. -/
def isIoFault : TransportError → Bool
  | .io _ | .sessionClosed => true
  | e => e.hasIoSource

theorem isIoFault_iff (e : TransportError) :
    e.isIoFault = true ↔ (∃ fault, e = .io fault) ∨ e = .sessionClosed := by
  cases e <;> simp [isIoFault, hasIoSource, sources]

end TransportError

/-- How a send ended. -/
abbrev SendResult := Except TransportError Unit

namespace SendResult

/-- The send reached the stream. -/
def succeeded : SendResult := .ok ()

/-- The result as a nested term. -/
def debugText : SendResult → String
  | .ok () => "Ok(())"
  | .error e => s!"Err({e.debugText})"

end SendResult

end PeerLink
