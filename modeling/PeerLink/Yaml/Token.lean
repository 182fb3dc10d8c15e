import PeerLink.Yaml.Property
import PeerLink.Yaml.Scalar

/-!
# Tokens

The signs and words of a YAML text in order. In block style the layout itself is a sign: a line
that is indented further than the collection it belongs to starts a new collection, and one that
is indented less ends it. A word turns out to be a key only when a colon follows it, so the token
that says so, and the one that starts the mapping, are put in front of it afterwards.
-/

namespace PeerLink.Yaml

/-- A sign or word of a YAML text. -/
inductive Token
  | endOfText
  | directive (d : Directive)
  | documentStart
  | documentEnd
  | blockSequenceStart
  | blockMappingStart
  | blockEnd
  | flowSequenceStart
  | flowSequenceEnd
  | flowMappingStart
  | flowMappingEnd
  /-- A dash. -/
  | blockEntry
  /-- A comma. -/
  | flowEntry
  /-- A key follows. -/
  | key
  /-- A value follows. -/
  | value
  | alias (name : String)
  | anchor (name : String)
  | tag (t : TagText)
  | scalar (text : String) (style : ScalarStyle)
  deriving DecidableEq, Repr, Inhabited

/-- A token that may turn out to be a key. -/
structure KeyCandidate where
  /-- Nothing but a key may stand there. -/
  required : Bool
  /-- How many tokens came before it. -/
  position : Nat
  line : Nat
  index : Nat
  column : Nat
  deriving DecidableEq, Repr

/-- A text of which some tokens have been read. -/
structure Layout where
  cursor : Cursor
  tokens : Array Token := #[]
  /-- The columns of the open block collections, the innermost first. -/
  indents : List Nat := []
  /-- The candidate within the innermost flow collection, or outside of all. -/
  candidate : Option KeyCandidate := none
  /-- The candidates around each open flow collection, the innermost first. -/
  outer : List (Option KeyCandidate) := []
  /-- A key may stand here without a question mark. -/
  keyAllowed : Bool := true

namespace Layout

/-- Within a flow collection the layout does not matter. -/
def inFlow (l : Layout) : Bool := !l.outer.isEmpty

/-- The cursor is at the column of the innermost block collection. -/
def atIndent (l : Layout) : Bool := l.indents.head? == some l.cursor.column

/-- Appends a token. -/
def push (l : Layout) (t : Token) : Layout := { l with tokens := l.tokens.push t }

/-- Appends a token and steps over the characters it is written with. -/
def pushSign (l : Layout) (t : Token) (width : Nat) : Layout :=
  { l.push t with cursor := l.cursor.skip width }

/-- Appends a token, the cursor going on behind it. -/
def pushRead (l : Layout) (t : Token) (k : Cursor) : Layout := { l.push t with cursor := k }

/-! ## Indentation -/

/-- Ends the block collections that are indented further than `column`, or all of them. -/
def unindent (l : Layout) (column : Option Nat) : Layout :=
  if l.inFlow then l
  else
    let further (indent : Nat) : Bool := column.all (· < indent)
    { l with
      tokens := (l.indents.takeWhile further).foldl (fun ts _ => ts.push .blockEnd) l.tokens
      indents := l.indents.dropWhile further }

/-- Starts a block collection at a column, unless one that is indented as far is open. -/
def indent (l : Layout) (column position : Nat) (t : Token) : Layout :=
  if l.inFlow || !l.indents.head?.all (· < column) then l
  else
    { l with
      tokens := l.tokens.insertIdxIfInBounds position t
      indents := column :: l.indents }

/-! ## Keys -/

/-- A key stands on one line and is not longer than 1024 characters. -/
def isStale (k : Cursor) (c : KeyCandidate) : Bool := c.line < k.line || c.index + 1024 < k.index

/-- Gives up a candidate, which must not be a required one. -/
def giveUp? (give : KeyCandidate → Bool) : Option KeyCandidate → Option (Option KeyCandidate)
  | none => some none
  | some c => if !give c then some (some c) else if c.required then none else some none

/-- Gives up the candidates that can no longer be keys. -/
def giveUpStale? (l : Layout) : Option Layout := do
  return { l with
    candidate := ← giveUp? (isStale l.cursor) l.candidate
    outer := ← l.outer.mapM (giveUp? (isStale l.cursor)) }

/-- Gives up the innermost candidate. -/
def giveUpCandidate? (l : Layout) : Option Layout := do
  return { l with candidate := ← giveUp? (fun _ => true) l.candidate }

/-- Takes the token that is about to be read for a candidate, if it may be a key. -/
def saveCandidate? (l : Layout) : Option Layout := do
  if !l.keyAllowed then return l
  let required := !l.inFlow && l.atIndent
  let k := l.cursor
  return { ← l.giveUpCandidate? with
    candidate := some ⟨required, l.tokens.size, k.line, k.index, k.column⟩ }

/-! ## Reading one token -/

/-- Steps over blanks, comments and line breaks. In block style a tab may not stand where a key
may, and behind a line break a key may. -/
def skipSpace (l : Layout) : Layout :=
  let skipped (c : Char) : Bool := c == ' ' || (c == '\t' && (l.inFlow || !l.keyAllowed))
  let k := (l.cursor.skipRun skipped).skipComment
  if _h : k.isAt isBreak = true then
    skipSpace { l with cursor := k.skipBreak, keyAllowed := l.keyAllowed || !l.inFlow }
  else { l with cursor := k }
termination_by l.cursor.rest.length
decreasing_by
  exact Nat.lt_of_lt_of_le (Cursor.length_skipBreak _h)
    (Nat.le_trans (Cursor.length_skipComment_le _) (Cursor.length_skipRun_le _ _))

/-- Reads what belongs to no document: the end of all collections comes first. -/
def betweenDocuments? (l : Layout) : Option Layout := do
  return { ← (l.unindent none).giveUpCandidate? with keyAllowed := false }

/-- Ends the text. -/
def finish? (l : Layout) : Option Layout := do
  return (← l.betweenDocuments?).push .endOfText

def readDirective? (l : Layout) : Option Layout := do
  let l ← l.betweenDocuments?
  let (d, k) ← directive? l.cursor
  return l.pushRead (.directive d) k

def readMarker? (l : Layout) (t : Token) : Option Layout := do
  return (← l.betweenDocuments?).pushSign t 3

def openFlow? (l : Layout) (t : Token) : Option Layout := do
  let l ← l.saveCandidate?
  return { l.pushSign t 1 with
    candidate := none, outer := l.candidate :: l.outer, keyAllowed := true }

def closeFlow? (l : Layout) (t : Token) : Option Layout := do
  let l := { (← l.giveUpCandidate?).pushSign t 1 with keyAllowed := false }
  match l.outer with
  | [] => return l
  | c :: outer => return { l with candidate := c, outer := outer }

def readComma? (l : Layout) : Option Layout := do
  return { (← l.giveUpCandidate?).pushSign .flowEntry 1 with keyAllowed := true }

/-- In block style a dash or a question mark starts a collection where a key may stand. -/
def openBlock? (l : Layout) (t : Token) : Option Layout :=
  if l.inFlow then some l
  else if !l.keyAllowed then none
  else some (l.indent l.cursor.column l.tokens.size t)

def readDash? (l : Layout) : Option Layout := do
  let l ← (← l.openBlock? .blockSequenceStart).giveUpCandidate?
  return { l.pushSign .blockEntry 1 with keyAllowed := true }

def readQuestionMark? (l : Layout) : Option Layout := do
  let l ← (← l.openBlock? .blockMappingStart).giveUpCandidate?
  return { l.pushSign .key 1 with keyAllowed := !l.inFlow }

/-- A colon makes a key of the candidate; without one, the key is empty or was announced. -/
def readColon? (l : Layout) : Option Layout :=
  match l.candidate with
  | some c =>
    let l := { l with
      tokens := l.tokens.insertIdxIfInBounds c.position .key
      candidate := none, keyAllowed := false }
    some ((l.indent c.column c.position .blockMappingStart).pushSign .value 1)
  | none => do
    let l ← l.openBlock? .blockMappingStart
    return { l.pushSign .value 1 with keyAllowed := !l.inFlow }

/-- Reads a word that may be a key. -/
def readWord? (l : Layout) (read : Cursor → Option (Token × Bool × Cursor)) : Option Layout := do
  let l ← l.saveCandidate?
  let (t, broken, k) ← read l.cursor
  return { l.pushRead t k with keyAllowed := broken }

def readAlias? (l : Layout) : Option Layout :=
  l.readWord? fun k => (anchorName? k).map fun (name, k) => (.alias name, false, k)

def readAnchor? (l : Layout) : Option Layout :=
  l.readWord? fun k => (anchorName? k).map fun (name, k) => (.anchor name, false, k)

def readTag? (l : Layout) : Option Layout :=
  l.readWord? fun k => (tag? l.inFlow k).map fun (t, k) => (.tag t, false, k)

/-- The token of a scalar. -/
def scalarToken (style : ScalarStyle) (r : ScalarRead) : Token × Bool × Cursor :=
  (.scalar (String.ofList r.text) style, r.broken, r.rest)

def readQuoted? (l : Layout) (style : ScalarStyle) : Option Layout :=
  l.readWord? fun k => (quotedScalar? (style == .singleQuoted) k).map (scalarToken style)

def readPlain? (l : Layout) : Option Layout :=
  let indent := l.indents.head?.elim 0 (· + 1)
  l.readWord? fun k => (plainScalar? l.inFlow indent k).map (scalarToken .plain)

def readBlock? (l : Layout) (style : ScalarStyle) : Option Layout := do
  let l ← l.giveUpCandidate?
  let r ← blockScalar? (style == .literal) l.indents.head? l.cursor
  let (t, broken, k) := scalarToken style r
  return { l.pushRead t k with keyAllowed := broken }

/-- The signs that no plain scalar starts with. -/
def indicators : List Char :=
  ['-', '?', ':', ',', '[', ']', '\x7b', '\x7d', '#', '&', '*', '!', '|', '>', '\'', '\x22', '%',
    '@', '\x60']

/-- A plain scalar may start with a character; a dash, or outside of flow style a question mark or
a colon, starts one as well if a text follows at once. -/
def startsPlain (flow : Bool) (c : Char) (rest : List Char) : Bool :=
  !(isSpace c || indicators.contains c)
    || (c == '-' && !rest.head?.any isBlank)
    || (!flow && (c == '?' || c == ':') && !endsWith isSpace rest)

/-- Reads the next token. -/
def readToken? (l : Layout) : Option Layout := do
  let l ← l.skipSpace.giveUpStale?
  let l := l.unindent (some l.cursor.column)
  match l.cursor.rest with
  | [] => l.finish?
  | c :: rest =>
    let apart := endsWith isSpace rest
    if l.cursor.column == 0 && c == '%' then l.readDirective?
    else if l.cursor.atMarker '-' then l.readMarker? .documentStart
    else if l.cursor.atMarker '.' then l.readMarker? .documentEnd
    else if c == '[' then l.openFlow? .flowSequenceStart
    else if c == '\x7b' then l.openFlow? .flowMappingStart
    else if c == ']' then l.closeFlow? .flowSequenceEnd
    else if c == '\x7d' then l.closeFlow? .flowMappingEnd
    else if c == ',' then l.readComma?
    else if c == '-' && apart then l.readDash?
    else if c == '?' && (l.inFlow || apart) then l.readQuestionMark?
    else if c == ':' && (l.inFlow || apart) then l.readColon?
    else if c == '*' then l.readAlias?
    else if c == '&' then l.readAnchor?
    else if c == '!' then l.readTag?
    else if c == '|' && !l.inFlow then l.readBlock? .literal
    else if c == '>' && !l.inFlow then l.readBlock? .folded
    else if c == '\'' then l.readQuoted? .singleQuoted
    else if c == '\x22' then l.readQuoted? .doubleQuoted
    else if startsPlain l.inFlow c rest then l.readPlain?
    else none

/-- Reads all tokens that are left; every token but the last takes some of the text. -/
def readAll? (l : Layout) : Option (List Token) :=
  let left := l.cursor.rest.length
  match l.readToken? with
  | none => none
  | some next =>
    if next.tokens.back? == some .endOfText then some next.tokens.toList
    else if next.cursor.rest.length < left then readAll? next
    else none
termination_by l.cursor.rest.length

end Layout

/-- The tokens of a text. A byte order mark may stand in front of it, and counts as a column. -/
def Token.ofText? (s : List Char) : Option (List Token) :=
  let front := Cursor.start s
  let cursor := if front.isAt (· == '\ufeff') then front.next else front
  if s.all isAllowed then Layout.readAll? { cursor := cursor } else none

end PeerLink.Yaml
