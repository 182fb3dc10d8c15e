import PeerLink.Address.Basic
import PeerLink.Text.Number

/-!
# Reading addresses

An address is written as four octets and a port, `127.0.0.1:80`, or as an IPv6 address in
brackets and a port, `[fe80::1%3]:80`. Octets have no leading zeros. In an IPv6 address one run of
zero groups may be left out, and the last two groups may be given as octets.

Each reader takes what it reads off the front of a text and returns the rest.
-/

namespace PeerLink.Address

/-- A reader of something at the front of a text. -/
abbrev Reader (α : Type) := List Char → Option (α × List Char)

/-- Reads one given character. -/
def expect (c : Char) : Reader Unit
  | [] => none
  | d :: rest => if d = c then some ((), rest) else none

/-- Splits the digits off the front of a text and gives their values. -/
def spanDigits (base : Nat) : List Char → List Nat × List Char
  | [] => ([], [])
  | c :: rest =>
    match Text.digit? base c with
    | none => ([], c :: rest)
    | some d =>
      let (ds, rest) := spanDigits base rest
      (d :: ds, rest)

/-- Reads all digits there are as a number up to `max`; at most `width` of them if that is
given, and no leading zero unless it is allowed. -/
def number (base max : Nat) (width : Option Nat) (leadingZeros : Bool) : Reader Nat := fun s =>
  let (digits, rest) := spanDigits base s
  let tooWide := match width with
    | none => false
    | some w => w < digits.length
  let value := digits.foldl (fun acc d => acc * base + d) 0
  if digits.isEmpty || tooWide || (!leadingZeros && digits.length > 1 && digits.head? == some 0)
      || max < value then none
  else some (value, rest)

/-- Reads something behind a separator, which the first of a series does without. -/
def separated {α : Type} (sep : Char) (first : Bool) (item : Reader α) : Reader α := fun s =>
  if first then item s
  else do
    let ((), s) ← expect sep s
    item s

/-- Reads one octet. -/
def octet (first : Bool) : Reader UInt8 := fun s => do
  let (n, s) ← separated '.' first (number 10 255 (some 3) false) s
  some (UInt8.ofNat n, s)

/-- Reads four octets. -/
def octets : Reader (List UInt8) := fun s => do
  let (a, s) ← octet true s
  let (b, s) ← octet false s
  let (c, s) ← octet false s
  let (d, s) ← octet false s
  some ([a, b, c, d], s)

/-- The group two octets make. -/
def group (hi lo : UInt8) : UInt16 := hi.toUInt16 * 256 + lo.toUInt16

/-- What a series of groups was read as. -/
structure GroupSeries where
  groups : List UInt16
  /-- It ended in octets. -/
  embedded : Bool
  rest : List Char

/-- Reads up to `count` groups; where at least two are still to come, four octets may stand for
the last two. -/
def readGroups (count : Nat) (first : Bool) (s : List Char) : GroupSeries :=
  match count with
  | 0 => ⟨[], false, s⟩
  | count + 1 =>
    match if 0 < count then separated ':' first octets s else none with
    | some ([a, b, c, d], rest) => ⟨[group a b, group c d], true, rest⟩
    | _ =>
      match separated ':' first (number 16 0xffff (some 4) true) s with
      | none => ⟨[], false, s⟩
      | some (n, rest) =>
        let more := readGroups count false rest
        { more with groups := UInt16.ofNat n :: more.groups }

/-- Reads the eight groups of an IPv6 address. -/
def groups : Reader (List UInt16) := fun s => do
  let head := readGroups 8 true s
  if head.groups.length = 8 then some (head.groups, head.rest)
  else if head.embedded then none
  else
    let ((), s) ← expect ':' head.rest
    let ((), s) ← expect ':' s
    let tail := readGroups (7 - head.groups.length) true s
    let zeros := 8 - head.groups.length - tail.groups.length
    some (head.groups ++ List.replicate zeros 0 ++ tail.groups, tail.rest)

/-- Reads a port. -/
def portNumber : Reader UInt16 := fun s => do
  let ((), s) ← expect ':' s
  let (n, s) ← number 10 0xffff none true s
  some (UInt16.ofNat n, s)

/-- Reads the scope of an IPv6 address. -/
def scope : Reader UInt32 := fun s => do
  let ((), s) ← expect '%' s
  let (n, s) ← number 10 0xffffffff none true s
  some (UInt32.ofNat n, s)

/-- Reads an IPv4 address and a port. -/
def readV4 : Reader Address := fun s => do
  let (ip, s) ← octets s
  let (port, s) ← portNumber s
  some (.v4 ip port, s)

/-- Reads an IPv6 address in brackets and a port. -/
def readV6 : Reader Address := fun s => do
  let ((), s) ← expect '[' s
  let (ip, s) ← groups s
  let (zone, s) := (scope s).getD (0, s)
  let ((), s) ← expect ']' s
  let (port, s) ← portNumber s
  some (.v6 ip zone port, s)

/-- The address that a whole text is. -/
def parse? (s : String) : Option Address :=
  match (readV4 s.toList).or (readV6 s.toList) with
  | some (address, []) => some address
  | _ => none

end PeerLink.Address
