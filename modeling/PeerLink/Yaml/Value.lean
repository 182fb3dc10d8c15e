import PeerLink.Text.Number
import PeerLink.Yaml.Tree

/-!
# Values of nodes

What the nodes of a document mean where a value of some kind is expected. A plain scalar is
whatever its text can be read as; a quoted scalar is a text and nothing else; and a literal block
is a number or a flag only if its tag says so.
-/

namespace PeerLink.Yaml

/-! ## Numbers and flags -/

/-- Digits without a sign, in a base, as a number up to `max`. -/
def unsigned? (base max : Nat) (s : List Char) : Option Nat :=
  if s.head?.any (fun c => c == '+' || c == '-') then none else (Text.natural? base max s).toOption

/-- A number up to `max`: in base ten without leading zeros, or in base sixteen, eight or two
behind the sign of the base. -/
def magnitude? (max : Nat) : List Char → Option Nat
  | '0' :: 'x' :: digits => unsigned? 16 max digits
  | '0' :: 'o' :: digits => unsigned? 8 max digits
  | '0' :: 'b' :: digits => unsigned? 2 max digits
  | digits =>
    if 1 < digits.length && digits.head? == some '0' && digits.all Char.isDigit then none
    else unsigned? 10 max digits

/-- A number up to `max` with an optional plus sign. -/
def plainNatural? (max : Nat) (s : List Char) : Option Nat :=
  magnitude? max (if s.head? == some '+' then s.drop 1 else s)

/-- The names of the truth values. -/
def plainFlag? (s : String) : Option Bool :=
  if ["true", "True", "TRUE"].contains s then some true
  else if ["false", "False", "FALSE"].contains s then some false
  else none

/-- The names of the absence of a value. -/
def isNullName (s : String) : Bool := ["null", "Null", "NULL", "~"].contains s

/-! ## Tags -/

/-- The tag of a type that the format knows. -/
def coreTag (name : String) : Bytes := utf8 ("tag:yaml.org,2002:" ++ name).toList

/-- The scalar may be something else than a text: it is plain, or a literal block with the tag of
the type. -/
def Scalar.isTyped (s : Scalar) (type : String) : Bool :=
  match s.style with
  | .plain => true
  | .literal => s.tag == some (coreTag type)
  | _ => false

namespace Document

/-! ## Readers

Each gives nothing where the node has no value of its kind. -/

/-- A text: that of any scalar. -/
def text? (d : Document) (n : Node) : Option String :=
  match d.resolve n with
  | .scalar _ s => some s.text
  | _ => none

/-- A number up to `max`. -/
def natural? (d : Document) (max : Nat) (n : Node) : Option Nat :=
  match d.resolve n with
  | .scalar _ s => if s.isTyped "int" then plainNatural? max s.text.toList else none
  | _ => none

/-- A truth value. -/
def flag? (d : Document) (n : Node) : Option Bool :=
  match d.resolve n with
  | .scalar _ s => if s.isTyped "bool" then plainFlag? s.text else none
  | _ => none

/-- A value that may be absent: a plain scalar that is empty or a name of absence says so. With the
tag of absence, nothing else may stand there; with another tag, the value is there. -/
def optional? {α : Type} (d : Document) (read : Node → Option α) (n : Node) : Option (Option α) :=
  match d.resolve n with
  | .scalar number s =>
    let present := (read (.scalar number s)).map some
    if s.style != .plain then present
    else
      match s.tag with
      | none => if s.text.isEmpty || isNullName s.text then some none else present
      | some tag =>
        if tag != coreTag "null" then present
        else if isNullName s.text then some none
        else none
  | n => (read n).map some

/-- The values of the known keys of a mapping, none of which may occur twice. All keys are texts;
others than the known ones are passed over. -/
def knownEntries? (d : Document) (known : List String) :
    List (Node × Node) → Option (List (String × Node))
  | [] => some []
  | (k, v) :: entries => do
    let key ← d.text? k
    let others ← d.knownEntries? known entries
    if !known.contains key then return others
    else if others.any (·.1 == key) then none
    else return (key, v) :: others

/-- The fields of a record: those of a mapping, and none where a plain scalar is empty. -/
def fields? (d : Document) (known : List String) (n : Node) : Option (List (String × Node)) :=
  match d.resolve n with
  | .mapping _ entries => d.knownEntries? known entries
  | .scalar _ s => if s.style == .plain && s.text.isEmpty then some [] else none
  | _ => none

/-- A field of a record, with a value for the case that it is missing. -/
def field? {α : Type} (fields : List (String × Node)) (name : String) (read : Node → Option α)
    (otherwise : α) : Option α :=
  match fields.find? (·.1 == name) with
  | none => some otherwise
  | some (_, n) => read n

end Document

end PeerLink.Yaml
