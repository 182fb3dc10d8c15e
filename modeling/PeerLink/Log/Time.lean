import Std.Time.DateTime.PlainDateTime

/-!
# The time of a log line

A log line begins with the date and the time of day, down to the millisecond.  Every part has its
own width, so all times are equally wide as long as years have four digits.  Other years have a
sign in front and as many digits as they need, four at least.

## Main results

* `Log.length_timeText` — a time with a year of four digits is 23 characters wide.
-/

namespace PeerLink.Log

/-- The last decimal digits of a number, as many as there are to be. -/
def lastDigits : Nat → Nat → List Char
  | 0, _ => []
  | width + 1, n => lastDigits width (n / 10) ++ [Nat.digitChar (n % 10)]

@[simp] theorem length_lastDigits (width n : Nat) : (lastDigits width n).length = width := by
  induction width generalizing n with
  | zero => rfl
  | succ width ih => rw [lastDigits, List.length_append, ih, List.length_singleton]

/-- A year: four digits, or a sign and all the digits that it needs. -/
def yearText (year : Int) : List Char :=
  if 0 ≤ year ∧ year ≤ 9999 then lastDigits 4 year.toNat
  else
    let digits := Nat.toDigits 10 year.natAbs
    (if year < 0 then '-' else '+') :: List.replicate (4 - digits.length) '0' ++ digits

theorem length_yearText {year : Int} (h : 0 ≤ year ∧ year ≤ 9999) :
    (yearText year).length = 4 := by
  rw [yearText, if_pos h, length_lastDigits]

/-- The date and the time of day. -/
def timeText (t : Std.Time.PlainDateTime) : String :=
  String.ofList <| yearText t.date.year.toInt ++ '-' :: lastDigits 2 t.date.month.toNat ++
    '-' :: lastDigits 2 t.date.day.toNat ++ ' ' :: lastDigits 2 t.time.hour.toNat ++
    ':' :: lastDigits 2 t.time.minute.toNat ++ ':' :: lastDigits 2 t.time.second.toNat ++
    '.' :: lastDigits 3 (t.time.nanosecond.toNat / 1000000)

theorem length_timeText {t : Std.Time.PlainDateTime}
    (h : 0 ≤ t.date.year.toInt ∧ t.date.year.toInt ≤ 9999) : (timeText t).length = 23 := by
  have hyear := length_yearText h
  simp only [timeText, String.length_ofList, List.length_append, List.length_cons,
    length_lastDigits, hyear]

example : timeText ⟨.ofYearMonthDayClip 2024 5 1, ⟨8, 30, 0, 125000000⟩⟩ =
    "2024-05-01 08:30:00.125" := by decide

end PeerLink.Log
