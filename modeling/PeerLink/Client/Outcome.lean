import PeerLink.Fault.Chain

/-!
# What a call of a client answers

A send through a client is accepted, still under way, or has met a fault of the connection that
tells the caller to connect anew. Everything else is an error of the call.

## Main results

* `ClientError.hasIoSource_iff` — an i/o failure is among the sources of a client error exactly
  when the error reports an i/o failure.
-/

namespace PeerLink

/-- Why a call of a client failed. The client is named by its description. -/
inductive ClientError
  /-- The client has been closed. -/
  | closed (client : String)
  /-- The send failed, and the connection is not to blame. -/
  | sendFailed (client : String) (cause : TransportError)
  /-- Clients of this kind do not do that. -/
  | unsupported (operation client : String)
  /-- A target was given, but the session already has one. -/
  | unexpectedTarget (client target : String)
  deriving DecidableEq, Repr

namespace ClientError

/-- The text of a client error. -/
def message : ClientError → String
  | closed client => s!"Client was closed: {client}"
  | sendFailed client _ => s!"Failed to send message [client={client}]"
  | unsupported operation client => s!"Operation '{operation}' is not supported by {client}"
  | unexpectedTarget client target =>
    s!"Session-bound client {client} does not accept an explicit target ({target})"

/-- The client had been closed. -/
def isClosed : ClientError → Bool
  | closed _ => true
  | _ => false

/-- The operation is none of this kind of client. -/
def isUnsupported : ClientError → Bool
  | unsupported _ _ => true
  | _ => false

/-- The error this one was raised for. -/
def source? : ClientError → Option TransportError
  | sendFailed _ cause => some cause
  | _ => none

/-- The error as an error report sees it. -/
def toFailure (e : ClientError) : Failure :=
  match e.source? with
  | none => .plain e.message
  | some cause => .caused e.message (.transport cause)

/-- Some source of the error is a failure of a stream. -/
def hasIoSource (e : ClientError) : Bool := e.toFailure.hasIoSource

theorem hasIoSource_iff (e : ClientError) :
    e.hasIoSource = true ↔ ∃ client fault, e = sendFailed client (.io fault) := by
  cases e with
  | sendFailed client cause =>
    cases cause <;>
      simp [hasIoSource, toFailure, source?, Failure.hasIoSource, Failure.sources,
        TransportError.sources, Failure.isIo]
  | _ => simp [hasIoSource, toFailure, source?, Failure.hasIoSource, Failure.sources]

end ClientError

/-- What became of a send by the time the call returned. -/
inductive SendOutcome
  /-- It ended well. -/
  | accepted
  /-- It has not ended. -/
  | inFlight
  /-- The connection is at fault; the send may be tried again on another one. -/
  | needsReconnect (cause : TransportError)
  deriving DecidableEq, Repr

namespace SendOutcome

/-- The caller should connect anew. -/
def isReconnect : SendOutcome → Bool
  | needsReconnect _ => true
  | _ => false

/-- The session has taken the send on. -/
def isAccepted : SendOutcome → Bool
  | accepted | inFlight => true
  | needsReconnect _ => false

end SendOutcome

/-- The answer of a send through a client. -/
abbrev SendAnswer := Except ClientError SendOutcome

/-- How often the sends of a client came to each end, modulo 2^64. -/
structure Stats where
  /-- Handed to the session. -/
  issued : Nat := 0
  /-- Ended well before the call returned. -/
  accepted : Nat := 0
  /-- Not ended when the call returned. -/
  inFlight : Nat := 0
  /-- Answered with the advice to connect anew. -/
  reconnects : Nat := 0
  /-- Answered with an error. -/
  rejected : Nat := 0
  deriving DecidableEq, Repr, Inhabited

end PeerLink
