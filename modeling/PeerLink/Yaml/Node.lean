import PeerLink.Yaml.Token

/-!
# Nodes

A YAML document as a tree of scalars, sequences and mappings. A node may have a number, by which
other places of the document refer to it.
-/

namespace PeerLink.Yaml

/-- A text with its style and its tag. -/
structure Scalar where
  text : String
  style : ScalarStyle
  tag : Option Bytes
  deriving DecidableEq, Repr, Inhabited

/-- The scalar of a place that was left empty. -/
def Scalar.empty (tag : Option Bytes) : Scalar := ⟨"", .plain, tag⟩

/-- A node of a document. -/
inductive Node
  | scalar (number : Option Nat) (s : Scalar)
  | sequence (number : Option Nat) (items : List Node)
  | mapping (number : Option Nat) (entries : List (Node × Node))
  /-- The node with a number. -/
  | alias (number : Nat)
  deriving Repr, Inhabited

namespace Node

/-- The node of a place that was left empty. -/
def empty : Node := .scalar none (.empty none)

/-- A node that may have a number, with the number. -/
def numbered (number : Option Nat) (n : Node) : List (Nat × Node) :=
  (number.map fun i => (i, n)).toList

mutual

/-- The nodes that have numbers, in the order in which they start. -/
def marked : Node → List (Nat × Node)
  | .scalar number s => numbered number (.scalar number s)
  | .sequence number items => numbered number (.sequence number items) ++ markedItems items
  | .mapping number entries =>
    numbered number (.mapping number entries) ++ markedEntries entries
  | .alias _ => []

/-- The nodes of a list that have numbers. -/
def markedItems : List Node → List (Nat × Node)
  | [] => []
  | n :: ns => marked n ++ markedItems ns

/-- The nodes of a list of entries that have numbers. -/
def markedEntries : List (Node × Node) → List (Nat × Node)
  | [] => []
  | (k, v) :: es => marked k ++ marked v ++ markedEntries es

end

end Node

/-- A document: its root, if it has any. -/
structure Document where
  root : Option Node
  deriving Repr, Inhabited

/-- What a node refers to: of several nodes with one number, to the one that starts last. -/
def Document.resolve (d : Document) (n : Node) : Node :=
  match n, d.root with
  | .alias i, some root => ((root.marked.reverse.find? (·.1 == i)).map (·.2)).getD n
  | n, _ => n

end PeerLink.Yaml
