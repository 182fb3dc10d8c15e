import PeerLink.Duration

/-!
# Activity of a session

A session remembers when it last received a message, last took on a send and last finished one.
Each of these stamps is kept in whole milliseconds and only moves forward, so it does not matter
in which order racing events are recorded. A session has been idle since the latest of the three.

## Main results

* `Stamps.nanos_idleAt` — the idle time is the time since the latest stamp, zero if that stamp
  lies ahead.
-/

namespace PeerLink

/-- When something last happened on a session, in time since the clock started. -/
structure Stamps where
  receive : Duration
  schedule : Duration
  send : Duration
  deriving DecidableEq, Repr, Inhabited

namespace Stamps

/-- The largest number of milliseconds a stamp can hold. -/
def maxMillis : Nat := UInt64.size - 1

/-- The stamp for a reading of the clock. -/
def stamp (now : Duration) : Duration := .ofMillis (min now.millis maxMillis)

/-- All three stamps at one reading of the clock. -/
def started (now : Duration) : Stamps := ⟨stamp now, stamp now, stamp now⟩

/-- A message has been received. -/
def touchReceive (s : Stamps) (now : Duration) : Stamps :=
  { s with receive := max s.receive (stamp now) }

/-- A send has been taken on. -/
def touchSchedule (s : Stamps) (now : Duration) : Stamps :=
  { s with schedule := max s.schedule (stamp now) }

/-- A send has been written. -/
def touchSend (s : Stamps) (now : Duration) : Stamps :=
  { s with send := max s.send (stamp now) }

/-- How long nothing has happened at `now`. -/
def idleAt (s : Stamps) (now : Duration) : Duration :=
  min (min (now - s.receive) (now - s.schedule)) (now - s.send)

theorem nanos_idleAt (s : Stamps) (now : Duration) :
    (s.idleAt now).nanos =
      now.nanos - max (max s.receive.nanos s.schedule.nanos) s.send.nanos := by
  simp only [idleAt, Duration.nanos_min, Duration.nanos_sub]
  omega

end Stamps

end PeerLink
