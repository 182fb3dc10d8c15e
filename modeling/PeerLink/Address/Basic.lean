/-!
# Network addresses

The address of a peer: an IPv4 or IPv6 address and a port. An IPv4 address is four octets. An
IPv6 address is eight groups of sixteen bits, and may name the scope it is meant in.
-/

namespace PeerLink

/-- Where a peer can be reached. -/
inductive Address
  | v4 (octets : List UInt8) (port : UInt16)
  | v6 (groups : List UInt16) (scope : UInt32) (port : UInt16)
  deriving DecidableEq, Repr, Inhabited

namespace Address

/-- The port of an address. -/
def port : Address → UInt16
  | v4 _ port | v6 _ _ port => port

/-- The address with another port. -/
def withPort (a : Address) (port : UInt16) : Address :=
  match a with
  | v4 octets _ => v4 octets port
  | v6 groups scope _ => v6 groups scope port

/-- Every address of the machine. -/
def unspecified (port : UInt16) : Address := .v4 [0, 0, 0, 0] port

/-- The machine itself. -/
def loopback (port : UInt16) : Address := .v4 [127, 0, 0, 1] port

/-! ## Text -/

/-- Octets with points between them. -/
def dotted (octets : List UInt8) : String :=
  ".".intercalate (octets.map fun o => toString o.toNat)

/-- Groups in hexadecimal with colons between them. -/
def colonSeparated (groups : List UInt16) : String :=
  ":".intercalate (groups.map fun g => String.ofList (Nat.toDigits 16 g.toNat))

/-- The number of zero groups at the front. -/
def zeroRun (groups : List UInt16) : Nat := (groups.takeWhile (· == 0)).length

/-- Where the longest run of zero groups starts, and its length; the first one of several. -/
def longestZeroRun (groups : List UInt16) : Nat × Nat :=
  (List.range groups.length).foldl
    (fun best i =>
      let run := zeroRun (groups.drop i)
      if best.2 < run then (i, run) else best)
    (0, 0)

/-- An IPv6 address: an IPv4 address embedded behind five zero groups and a full one is shown as
such, and otherwise the longest run of two or more zero groups is left out. -/
def groupText (groups : List UInt16) : String :=
  match groups with
  | [0, 0, 0, 0, 0, 0xffff, hi, lo] =>
    "::ffff:" ++ dotted [(hi >>> 8).toUInt8, hi.toUInt8, (lo >>> 8).toUInt8, lo.toUInt8]
  | groups =>
    let (start, run) := longestZeroRun groups
    if run ≤ 1 then colonSeparated groups
    else colonSeparated (groups.take start) ++ "::" ++ colonSeparated (groups.drop (start + run))

/-- The text of an address. -/
def text : Address → String
  | v4 octets port => s!"{dotted octets}:{port.toNat}"
  | v6 groups scope port =>
    let scopeText := if scope = 0 then "" else s!"%{scope.toNat}"
    s!"[{groupText groups}{scopeText}]:{port.toNat}"

instance : ToString Address := ⟨text⟩

end Address

end PeerLink
