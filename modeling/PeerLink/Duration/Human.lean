import PeerLink.Duration
import PeerLink.Text.Quoted
import PeerLink.Text.Space

/-!
# Durations as people write them

A span of time is written as numbers with units, `1h 30min` or `2.5s`, which are added up. Space
may stand between them. A number may have a fraction if the span is a whole number of the
nanoseconds or seconds that its unit is made of.

The text is read one character at a time; `HumanStage` says what has been read of the term at hand.
-/

namespace PeerLink.Duration

/-- Why a text is no span of time. Places are counted in bytes. -/
inductive HumanError
  | empty
  | numberExpected (place : Nat)
  | invalidCharacter (place : Nat)
  /-- The last number has no unit. -/
  | unitNeeded (value : Nat)
  | unknownUnit (name : String)
  /-- The span is too long, or not a whole number of nanoseconds. -/
  | outOfRange
  deriving DecidableEq, Repr

/-- The text of the cause. -/
def HumanError.message : HumanError → String
  | empty => "value was empty"
  | numberExpected place => s!"expected number at {place}"
  | invalidCharacter place => s!"invalid character at {place}"
  | unitNeeded value => s!"time unit needed, for example {value}sec or {value}ms"
  | unknownUnit name =>
    "unknown time unit " ++ Text.quote name ++ ", supported units: ns, us/µs, ms, sec, min, "
      ++ "hours, days, weeks, months, years (and few variations)"
  | outOfRange =>
    "number is too large or cannot be represented without a lack of precision "
      ++ "(values below 1ns are not supported)"

/-! ## Units -/

/-- A unit of time. -/
inductive TimeUnit
  | nanosecond
  | microsecond
  | millisecond
  | second
  | minute
  | hour
  | day
  | week
  | month
  | year
  deriving DecidableEq, Repr

namespace TimeUnit

/-- The names of a unit. -/
def names : TimeUnit → List String
  | nanosecond => ["nanos", "nsec", "ns"]
  | microsecond => ["usec", "us", "µs"]
  | millisecond => ["millis", "msec", "ms"]
  | second => ["seconds", "second", "secs", "sec", "s"]
  | minute => ["minutes", "minute", "min", "mins", "m"]
  | hour => ["hours", "hour", "hrs", "hr", "h"]
  | day => ["days", "day", "d"]
  | week => ["weeks", "week", "wk", "wks", "w"]
  | month => ["months", "month", "M"]
  | year => ["years", "year", "yrs", "yr", "y"]

/-- All units. -/
def all : List TimeUnit :=
  [nanosecond, microsecond, millisecond, second, minute, hour, day, week, month, year]

/-- The unit with a name. -/
def ofName? (name : String) : Option TimeUnit := all.find? fun u => u.names.contains name

/-- A number of seconds or of nanoseconds. -/
inductive Amount
  | seconds (n : Nat)
  | nanos (n : Nat)

/-- What a unit is made of. A month is 30.44 days, and a year 365.25 days. -/
def length : TimeUnit → Amount
  | nanosecond => .nanos 1
  | microsecond => .nanos 1000
  | millisecond => .nanos 1000000
  | second => .seconds 1
  | minute => .seconds 60
  | hour => .seconds 3600
  | day => .seconds 86400
  | week => .seconds (7 * 86400)
  | month => .seconds 2630016
  | year => .seconds 31557600

/-- What fractions of a unit are made of. -/
def fine : TimeUnit → Option Amount
  | nanosecond => none
  | microsecond => some (.nanos 1000)
  | millisecond => some (.nanos 1000000)
  | second => some (.nanos 1000000000)
  | minute => some (.nanos 60000000000)
  | unit => some unit.length

end TimeUnit

/-! ## Adding up -/

/-- The largest number of a span. -/
def maxHuman : Nat := UInt64.size - 1

/-- A number within the range, or an error. -/
def inRange (n : Nat) : Except HumanError Nat :=
  if n ≤ maxHuman then .ok n else .error .outOfRange

/-- The span that has been read so far. -/
structure HumanSpan where
  seconds : Nat := 0
  /-- Less than a second. -/
  nanos : Nat := 0
  deriving DecidableEq, Repr

namespace HumanSpan

/-- Adds seconds and nanoseconds. -/
def add (s : HumanSpan) (seconds nanos : Nat) : Except HumanError HumanSpan := do
  let nanos ← inRange (s.nanos + nanos)
  let seconds ← inRange (s.seconds + seconds + nanos / 1_000_000_000)
  return ⟨seconds, nanos % 1_000_000_000⟩

/-- Adds an amount. -/
def addAmount (s : HumanSpan) : TimeUnit.Amount → Except HumanError HumanSpan
  | .seconds n => do s.add (← inRange n) 0
  | .nanos n => do s.add 0 (← inRange n)

end HumanSpan

/-- A fraction that is written behind a point. -/
structure Fraction where
  numerator : Nat := 0
  denominator : Nat := 1
  deriving DecidableEq, Repr

/-- The amount times a fraction, if it is a whole one. -/
def Fraction.of (f : Fraction) (amount : TimeUnit.Amount) :
    Except HumanError TimeUnit.Amount := do
  let divide (n : Nat) : Except HumanError Nat := do
    let n ← inRange (f.numerator * n)
    if n % f.denominator = 0 then return n / f.denominator else throw .outOfRange
  match amount with
  | .seconds n => return .seconds (← divide n)
  | .nanos n => return .nanos (← divide n)

/-- Adds a number of units, with a fraction. -/
def HumanSpan.addTerm (s : HumanSpan) (value : Nat) (fraction : Option Fraction) (name : String) :
    Except HumanError HumanSpan := do
  let some unit := TimeUnit.ofName? name
    | throw (if name.isEmpty then .unitNeeded value else .unknownUnit name)
  let s ← s.addAmount (match unit.length with
    | .seconds n => .seconds (value * n)
    | .nanos n => .nanos (value * n))
  match fraction, unit.fine with
  | none, _ => return s
  | some _, none => throw .outOfRange
  | some f, some amount => s.addAmount (← f.of amount)

/-! ## Reading -/

/-- What has been read of a term. -/
inductive HumanStage
  /-- Nothing; `any` if a term came before. -/
  | start (any : Bool)
  /-- Digits in front of a point. -/
  | number (value : Nat)
  /-- Digits behind a point; what was last understood ends at `place`. -/
  | fraction (value : Nat) (fraction : Fraction) (place : Nat)
  /-- Letters of a unit, the last one first. -/
  | unit (value : Nat) (fraction : Option Fraction) (letters : List Char)
  deriving Repr

/-- A letter of a unit. -/
def isUnitLetter (c : Char) : Bool := c.isAlpha || c == 'µ'

/-- The value of a digit. -/
def digitValue (c : Char) : Nat := c.toNat - '0'.toNat

/-- The fraction with one more digit. -/
def Fraction.push (f : Fraction) (digit : Nat) : Except HumanError Fraction := do
  return ⟨← inRange (f.numerator * 10 + digit), ← inRange (f.denominator * 10)⟩

/-- Reads the character at a place. -/
def HumanStage.feed (stage : HumanStage) (s : HumanSpan) (place : Nat) (c : Char) :
    Except HumanError (HumanStage × HumanSpan) := do
  match stage with
  | start any =>
    if c.isDigit then return (number (digitValue c), s)
    else if Text.isSpace c then return (start any, s)
    else throw (.numberExpected place)
  | number value =>
    if c.isDigit then return (number (← inRange (value * 10 + digitValue c)), s)
    else if Text.isSpace c then return (stage, s)
    else if isUnitLetter c then return (unit value none [c], s)
    else if c == '.' then return (fraction value {} place, s)
    else throw (.invalidCharacter place)
  | fraction value f known =>
    if c.isDigit then return (fraction value (← f.push (digitValue c)) (place + c.utf8Size), s)
    else if Text.isSpace c then return (fraction value f (place + c.utf8Size), s)
    else if isUnitLetter c && f.denominator != 1 then return (unit value (some f) [c], s)
    else throw (.invalidCharacter known)
  | unit value f letters =>
    if c.isDigit then
      let s ← s.addTerm value f (String.ofList letters.reverse)
      return (number (digitValue c), s)
    else if Text.isSpace c then
      let s ← s.addTerm value f (String.ofList letters.reverse)
      return (start true, s)
    else if isUnitLetter c then return (unit value f (c :: letters), s)
    else throw (.invalidCharacter place)

/-- The span, once the text has ended. -/
def HumanStage.finish (stage : HumanStage) (s : HumanSpan) : Except HumanError HumanSpan :=
  match stage with
  | start any => if any then .ok s else .error .empty
  | number value => .error (.unitNeeded value)
  | fraction value f known =>
    if f.denominator = 1 then .error (.invalidCharacter known) else .error (.unitNeeded value)
  | unit value f letters => s.addTerm value f (String.ofList letters.reverse)

/-- Reads the rest of a text. -/
def readHuman (stage : HumanStage) (s : HumanSpan) (place : Nat) :
    List Char → Except HumanError HumanSpan
  | [] => stage.finish s
  | c :: rest =>
    match stage.feed s place c with
    | .error e => .error e
    | .ok (stage, s) => readHuman stage s (place + c.utf8Size) rest

/-- The span that a text stands for. A zero needs no unit. -/
def ofHuman (text : String) : Except HumanError Duration :=
  if text == "0" then .ok ⟨0⟩
  else (readHuman (.start false) {} 0 text.toList).map fun s => ofParts s.seconds s.nanos

end PeerLink.Duration
