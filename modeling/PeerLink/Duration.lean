/-!
# Durations

Spans of time in whole nanoseconds, and the text that shows one with the largest unit it reaches.

## Main results

* `Duration.nanos_ofParts` — a span given as seconds and nanoseconds is their sum;
* `Duration.nanos_sub` — a difference of spans stops at zero.
-/

namespace PeerLink

/-- A span of time. -/
structure Duration where
  /-- Its length in nanoseconds. -/
  nanos : Nat
  deriving DecidableEq, Repr, Inhabited

namespace Duration

/-- A span of `seconds` and `nanos`. -/
def ofParts (seconds nanos : Nat) : Duration := ⟨seconds * 1_000_000_000 + nanos⟩

/-- A span in milliseconds. -/
def ofMillis (ms : Nat) : Duration := ⟨ms * 1_000_000⟩

/-- The whole seconds of a span. -/
def seconds (d : Duration) : Nat := d.nanos / 1_000_000_000

/-- What is left of a span beyond its whole seconds, in nanoseconds. -/
def subsecNanos (d : Duration) : Nat := d.nanos % 1_000_000_000

/-- The whole milliseconds of a span. -/
def millis (d : Duration) : Nat := d.nanos / 1_000_000

instance : LE Duration := ⟨fun a b => a.nanos ≤ b.nanos⟩
instance : LT Duration := ⟨fun a b => a.nanos < b.nanos⟩
instance (a b : Duration) : Decidable (a ≤ b) := inferInstanceAs (Decidable (a.nanos ≤ b.nanos))
instance (a b : Duration) : Decidable (a < b) := inferInstanceAs (Decidable (a.nanos < b.nanos))
instance : Min Duration := ⟨fun a b => if a ≤ b then a else b⟩
instance : Max Duration := ⟨fun a b => if a ≤ b then b else a⟩
/-- A difference of spans stops at zero. -/
instance : Sub Duration := ⟨fun a b => ⟨a.nanos - b.nanos⟩⟩

@[simp] theorem nanos_ofParts (s n : Nat) : (ofParts s n).nanos = s * 1_000_000_000 + n := rfl

@[simp] theorem nanos_sub (a b : Duration) : (a - b).nanos = a.nanos - b.nanos := rfl

theorem nanos_min (a b : Duration) : (min a b).nanos = min a.nanos b.nanos := by
  change (if a.nanos ≤ b.nanos then a else b).nanos = _
  split <;> omega

theorem nanos_max (a b : Duration) : (max a b).nanos = max a.nanos b.nanos := by
  change (if a.nanos ≤ b.nanos then b else a).nanos = _
  split <;> omega

/-! ## Text -/

/-- The digits of a fraction of `unit`, where `unit` is a power of ten, less trailing zeros. -/
def fractionDigits (part unit : Nat) : List Char :=
  let digits := (Nat.toDigits 10 (unit + part)).drop 1
  (digits.reverse.dropWhile (· == '0')).reverse

/-- A number of units with the fraction that remains. -/
def decimalText (nanos unit : Nat) (name : String) : String :=
  let digits := fractionDigits (nanos % unit) unit
  let fraction := if digits.isEmpty then "" else "." ++ String.ofList digits
  s!"{nanos / unit}{fraction}{name}"

/-- The span in the largest of the units s, ms, µs and ns that it reaches. -/
def text (d : Duration) : String :=
  if 1_000_000_000 ≤ d.nanos then decimalText d.nanos 1_000_000_000 "s"
  else if 1_000_000 ≤ d.nanos then decimalText d.nanos 1_000_000 "ms"
  else if 1_000 ≤ d.nanos then decimalText d.nanos 1_000 "µs"
  else s!"{d.nanos}ns"

end Duration

end PeerLink
