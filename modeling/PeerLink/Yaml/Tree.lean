import PeerLink.Yaml.Node

/-!
# Reading a document

Tokens become a document one at a time. The state is the stack of the collections that are open,
and each of them knows what may come next. A place where a node may stand can be left empty, and
some collections end only when a token comes that does not belong to them; that token is then
handed on to the collection around.
-/

namespace PeerLink.Yaml

/-- What an open mapping expects. -/
inductive MappingStage
  /-- A key sign or the end. -/
  | entry
  /-- The key. -/
  | key
  /-- A value sign, behind a key. -/
  | colon (key : Node)
  /-- The value of a key. -/
  | value (key : Node)
  deriving Inhabited

/-- What an open collection in flow style expects. -/
inductive FlowStage
  /-- An item, a key sign or the end. -/
  | item
  /-- A comma or the end. -/
  | comma
  deriving DecidableEq, Inhabited

/-- What an open mapping in flow style expects. -/
inductive FlowMappingStage
  | item
  | comma
  /-- The key behind a key sign. -/
  | key
  /-- A value sign, behind a key. -/
  | colon (key : Node)
  /-- The value of a key. -/
  | value (key : Node)
  deriving Inhabited

/-- A collection that is open. Its items are kept with the last one first. -/
inductive Frame
  /-- The document itself; `explicit` if a marker started it, `ended` if the text has ended. -/
  | document (explicit : Bool) (root : Option Node) (ended : Bool)
  /-- A sequence in block style; `due` behind a dash. -/
  | blockSequence (number : Option Nat) (items : List Node) (due : Bool)
  /-- A sequence whose dashes are not indented. -/
  | dashes (number : Option Nat) (items : List Node) (due : Bool)
  | blockMapping (number : Option Nat) (entries : List (Node × Node)) (stage : MappingStage)
  | flowSequence (number : Option Nat) (items : List Node) (stage : FlowStage)
  /-- A mapping of one entry that is an item of a sequence in flow style. -/
  | pair (entries : List (Node × Node)) (stage : MappingStage)
  | flowMapping (number : Option Nat) (entries : List (Node × Node)) (stage : FlowMappingStage)
  deriving Inhabited

/-- What a token does to the innermost collection. -/
inductive Effect
  /-- The collection goes on. -/
  | stay (f : Frame)
  /-- The collection goes on, and a new one opens within it. -/
  | enter (f inner : Frame)
  /-- The collection ends with this token. -/
  | close (n : Node)
  /-- The collection has ended, and the token belongs to the one around it. -/
  | release (n : Node)
  /-- A node starts here. -/
  | node
  | refuse

namespace Frame

/-- The frame behind a node that it was waiting for. -/
def attach (n : Node) : Frame → Frame
  | document explicit _ ended => document explicit (some n) ended
  | blockSequence number items _ => blockSequence number (n :: items) false
  | dashes number items _ => dashes number (n :: items) false
  | blockMapping number entries stage =>
    match stage with
    | .value k => blockMapping number ((k, n) :: entries) .entry
    | _ => blockMapping number entries (.colon n)
  | flowSequence number items _ => flowSequence number (n :: items) .comma
  | pair entries stage =>
    match stage with
    | .value k => pair ((k, n) :: entries) .entry
    | _ => pair entries (.colon n)
  | flowMapping number entries stage =>
    match stage with
    | .key => flowMapping number entries (.colon n)
    | .value k => flowMapping number ((k, n) :: entries) .comma
    | _ => flowMapping number ((n, .empty) :: entries) .comma

/-- Collections in block style may start where the frame waits for a node. -/
def inBlock : Frame → Bool
  | document .. | blockSequence .. | dashes .. | blockMapping .. => true
  | _ => false

/-- A sequence may start with a dash that is not indented. -/
def allowsDashes : Frame → Bool
  | blockMapping .. => true
  | _ => false

/-! ## One token -/

/-- Once it has its root, a document ends. -/
def afterRoot (explicit : Bool) (root : Node) : Token → Effect
  | .documentEnd => .stay (.document explicit (some root) false)
  | .endOfText => .stay (.document explicit (some root) true)
  | _ => .refuse

/-- Without a root, only a document that was started by a marker may end. -/
def beforeRoot (t : Token) : Effect :=
  match t with
  | .directive _ | .documentStart | .documentEnd | .endOfText => afterRoot true .empty t
  | _ => .node

def afterItem (number : Option Nat) (items : List Node) : Token → Effect
  | .blockEntry => .stay (.blockSequence number items true)
  | .blockEnd => .close (.sequence number items.reverse)
  | _ => .refuse

def beforeItem (number : Option Nat) (items : List Node) (t : Token) : Effect :=
  match t with
  | .blockEntry | .blockEnd => afterItem number (.empty :: items) t
  | _ => .node

def afterDash (number : Option Nat) (items : List Node) : Token → Effect
  | .blockEntry => .stay (.dashes number items true)
  | _ => .release (.sequence number items.reverse)

def beforeDash (number : Option Nat) (items : List Node) (t : Token) : Effect :=
  match t with
  | .blockEntry | .key | .value | .blockEnd => afterDash number (.empty :: items) t
  | _ => .node

def betweenEntries (number : Option Nat) (entries : List (Node × Node)) : Token → Effect
  | .key => .stay (.blockMapping number entries .key)
  | .blockEnd => .close (.mapping number entries.reverse)
  | _ => .refuse

def afterKey (number : Option Nat) (entries : List (Node × Node)) (k : Node) (t : Token) :
    Effect :=
  match t with
  | .value => .stay (.blockMapping number entries (.value k))
  | _ => betweenEntries number ((k, .empty) :: entries) t

def inMapping (number : Option Nat) (entries : List (Node × Node)) (stage : MappingStage)
    (t : Token) : Effect :=
  match stage, t with
  | .entry, t => betweenEntries number entries t
  | .colon k, t => afterKey number entries k t
  | .key, .key | .key, .value | .key, .blockEnd => afterKey number entries .empty t
  | .value k, .key | .value k, .value | .value k, .blockEnd =>
    betweenEntries number ((k, .empty) :: entries) t
  | .key, _ | .value _, _ => .node

def inFlowSequence (number : Option Nat) (items : List Node) (stage : FlowStage) (t : Token) :
    Effect :=
  match stage, t with
  | _, .flowSequenceEnd => .close (.sequence number items.reverse)
  | .comma, .flowEntry => .stay (.flowSequence number items .item)
  | .comma, _ => .refuse
  | .item, .key => .enter (.flowSequence number items .item) (.pair [] .key)
  | .item, _ => .node

/-- The entry of a pair is complete whatever comes behind it. A sign that stands in the place of
its key is passed over. -/
def inPair (entries : List (Node × Node)) (stage : MappingStage) (t : Token) : Effect :=
  match stage, t with
  | .entry, _ => .release (.mapping none entries.reverse)
  | .key, .value | .key, .flowEntry | .key, .flowSequenceEnd =>
    .stay (.pair entries (.colon .empty))
  | .colon k, .value => .stay (.pair entries (.value k))
  | .colon k, _ | .value k, .flowEntry | .value k, .flowSequenceEnd =>
    .release (.mapping none (((k, .empty) :: entries).reverse))
  | .key, _ | .value _, _ => .node

def betweenFlowEntries (number : Option Nat) (entries : List (Node × Node)) : Token → Effect
  | .flowMappingEnd => .close (.mapping number entries.reverse)
  | .flowEntry => .stay (.flowMapping number entries .item)
  | _ => .refuse

def afterFlowKey (number : Option Nat) (entries : List (Node × Node)) (k : Node) (t : Token) :
    Effect :=
  match t with
  | .value => .stay (.flowMapping number entries (.value k))
  | _ => betweenFlowEntries number ((k, .empty) :: entries) t

def inFlowMapping (number : Option Nat) (entries : List (Node × Node)) (stage : FlowMappingStage)
    (t : Token) : Effect :=
  match stage, t with
  | .item, .flowMappingEnd => .close (.mapping number entries.reverse)
  | .item, .key => .stay (.flowMapping number entries .key)
  | .item, _ => .node
  | .comma, t => betweenFlowEntries number entries t
  | .key, .value | .key, .flowEntry | .key, .flowMappingEnd => afterFlowKey number entries .empty t
  | .colon k, t => afterFlowKey number entries k t
  | .value k, .flowEntry | .value k, .flowMappingEnd =>
    betweenFlowEntries number ((k, .empty) :: entries) t
  | .key, _ | .value _, _ => .node

/-- What a token does to a frame. -/
def effect (f : Frame) (t : Token) : Effect :=
  match f with
  | document _ _ true => .refuse
  | document explicit (some root) false => afterRoot explicit root t
  | document explicit none false => if explicit then beforeRoot t else .node
  | blockSequence number items due =>
    if due then beforeItem number items t else afterItem number items t
  | dashes number items due => if due then beforeDash number items t else afterDash number items t
  | blockMapping number entries stage => inMapping number entries stage t
  | flowSequence number items stage => inFlowSequence number items stage t
  | pair entries stage => inPair entries stage t
  | flowMapping number entries stage => inFlowMapping number entries stage t

end Frame

/-! ## The tree so far -/

/-- What has been read of a document. -/
structure Tree where
  /-- The meanings of the handles of tags. -/
  handles : List (List Char × Bytes)
  /-- The names of anchors with the numbers they stand for, the last one first. -/
  names : List (String × Nat) := []
  /-- The open collections, the innermost first. -/
  stack : List Frame
  /-- The anchor in front of the node that is due. -/
  anchor : Option String := none
  /-- The tag in front of the node that is due. -/
  tag : Option Bytes := none
  deriving Inhabited

namespace Tree

/-- Something stands in front of the node that is due. -/
def announced (t : Tree) : Bool := t.anchor.isSome || t.tag.isSome

/-- Gives the innermost collection a node. -/
def attach? (t : Tree) (n : Node) : Option Tree :=
  match t.stack with
  | [] => none
  | f :: fs => some { t with stack := f.attach n :: fs, anchor := none, tag := none }

/-- Opens a collection. -/
def enter (t : Tree) (f : Frame) : Tree :=
  { t with stack := f :: t.stack, anchor := none, tag := none }

/-- The number of the node that is due, if it has an anchor: how many names are known. -/
def claim (t : Tree) : Option Nat × Tree :=
  match t.anchor with
  | none => (none, t)
  | some name =>
    let number := t.names.length
    (some number, { t with names := (name, number) :: t.names.filter (·.1 != name) })

/-- Gives a token to the collections that have no node to wait for, from the innermost one to the
one that it belongs to; also says whether a node starts with it. -/
def settle (t : Token) : List Frame → Option (List Frame × Bool)
  | [] => none
  | f :: fs =>
    match f.effect t with
    | .stay f => some (f :: fs, false)
    | .enter f inner => some (inner :: f :: fs, false)
    | .close n =>
      match fs with
      | [] => none
      | g :: gs => some (g.attach n :: gs, false)
    | .release n =>
      match fs with
      | [] => none
      | g :: gs => settle t (g.attach n :: gs)
    | .node => some (f :: fs, true)
    | .refuse => none
termination_by fs => fs.length

/-- The meaning of a tag: a tag without a handle stands for itself. A zero byte ends it. -/
def meaning? (t : Tree) (tag : TagText) : Option Bytes :=
  let whole := if tag.handle.isEmpty then some tag.suffix
    else (t.handles.find? (·.1 == tag.handle)).map (·.2 ++ tag.suffix)
  whole.map fun bytes => bytes.takeWhile (· != 0)

/-- The tag of a scalar with a text: a lone exclamation mark is none. -/
def scalarTag (t : Tree) : Option Bytes := if t.tag == some (utf8 ['!']) then none else t.tag

/-- The place behind an anchor or a tag is left empty, and the token comes behind it. -/
def leaveEmpty? (t : Tree) (token : Token) : Option Tree :=
  if !t.announced then none
  else do
    let (number, t) := t.claim
    let t ← t.attach? (.scalar number (.empty t.tag))
    match settle token t.stack with
    | some (stack, false) => some { t with stack := stack }
    | _ => none

/-- A node starts with a token, where the innermost collection waits for one. -/
def start? (t : Tree) (token : Token) : Option Tree :=
  match t.stack with
  | [] => none
  | f :: _ =>
    let (number, claimed) := t.claim
    match token with
    | .alias name =>
      if t.announced then t.leaveEmpty? token
      else (t.names.find? (·.1 == name)).bind fun known => t.attach? (.alias known.2)
    | .anchor name =>
      if t.anchor.isSome then t.leaveEmpty? token else some { t with anchor := some name }
    | .tag tag =>
      if t.tag.isSome then t.leaveEmpty? token
      else (t.meaning? tag).map fun bytes => { t with tag := some bytes }
    | .scalar text style => claimed.attach? (.scalar number ⟨text, style, t.scalarTag⟩)
    | .flowSequenceStart => some (claimed.enter (.flowSequence number [] .item))
    | .flowMappingStart => some (claimed.enter (.flowMapping number [] .item))
    | .blockEntry =>
      if f.allowsDashes then some (claimed.enter (.dashes number [] true))
      else t.leaveEmpty? token
    | .blockSequenceStart =>
      if f.inBlock then some (claimed.enter (.blockSequence number [] false))
      else t.leaveEmpty? token
    | .blockMappingStart =>
      if f.inBlock then some (claimed.enter (.blockMapping number [] .entry))
      else t.leaveEmpty? token
    | _ => t.leaveEmpty? token

/-- Takes one token. -/
def feed? (t : Tree) (token : Token) : Option Tree :=
  if t.announced then t.start? token
  else
    match settle token t.stack with
    | none => none
    | some (stack, false) => some { t with stack := stack }
    | some (stack, true) => { t with stack := stack }.start? token

/-- The document, once the text has ended. -/
def document? (t : Tree) : Option Document :=
  match t.stack with
  | [.document _ root true] => some ⟨root⟩
  | _ => none

end Tree

/-! ## Documents -/

/-- The handles that have a meaning unless a directive gives them another one. -/
def standardHandles : List (List Char × Bytes) :=
  [(['!'], utf8 ['!']), (['!', '!'], utf8 "tag:yaml.org,2002:".toList)]

/-- What the directives at the front say, and the tokens behind them. -/
structure Prologue where
  version : Option (Nat × Nat) := none
  handles : List (List Char × Bytes) := []
  /-- There were directives. -/
  any : Bool := false

/-- Reads the directives: at most one version, which must be known, and each handle once. -/
def Prologue.read? (p : Prologue) : List Token → Option (Prologue × List Token)
  | .directive (.version major minor) :: rest =>
    if p.version.isSome || major != 1 || (minor != 1 && minor != 2) then none
    else read? { p with version := some (major, minor), any := true } rest
  | .directive (.handle handle bytes) :: rest =>
    if p.handles.any (·.1 == handle) then none
    else read? { p with handles := p.handles ++ [(handle, bytes)], any := true } rest
  | rest => some (p, rest)

/-- Reads a text that is one document at most. -/
def Document.parse? (s : String) : Option Document := do
  let tokens ← Token.ofText? s.toList
  let (prologue, tokens) ← ({} : Prologue).read? tokens
  let tree (explicit : Bool) : Tree :=
    { handles := prologue.handles ++ standardHandles, stack := [.document explicit none false] }
  match tokens with
  | .documentStart :: rest => (← rest.foldlM Tree.feed? (tree true)).document?
  | [.endOfText] => if prologue.any then none else some ⟨none⟩
  | rest => if prologue.any then none else (← rest.foldlM Tree.feed? (tree false)).document?

end PeerLink.Yaml
