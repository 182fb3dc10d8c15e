import PeerLink.Yaml.Gap

/-!
# Scalars

The texts of a YAML file: plain words, texts in single or double quotes, and indented blocks whose
lines are kept (literal) or folded.

Each reader takes a cursor and gives what it read and the cursor behind it, or nothing if the text
is no scalar of its kind. The readers that go from word to word, or from line to line, stop when a
round has not moved the cursor.
-/

namespace PeerLink.Yaml

/-- How a scalar is written. -/
inductive ScalarStyle
  | plain
  | singleQuoted
  | doubleQuoted
  | literal
  | folded
  deriving DecidableEq, Repr, Inhabited

/-- What a reader of scalars has read. -/
structure ScalarRead where
  text : List Char
  /-- A line break came last. -/
  broken : Bool
  rest : Cursor

/-! ## Plain scalars -/

/-- A bracket or comma, which ends a plain scalar in flow style. -/
def isFlowSign (c : Char) : Bool := c == ',' || c == '[' || c == ']' || c == '{' || c == '}'

/-- The characters of a plain scalar up to a space or an end; none if a colon stands where it
cannot be told whether it belongs to the scalar. -/
def plainWord? (flow : Bool) (acc : List Char) : List Char → Option (List Char)
  | [] => some acc.reverse
  | c :: rest =>
    if isSpace c then some acc.reverse
    else if flow && c == ':' && rest.head?.any (fun d => isFlowSign d || d == '?') then none
    else if c == ':' && endsWith isSpace rest then some acc.reverse
    else if flow && isFlowSign c then some acc.reverse
    else plainWord? flow (c :: acc) rest

/-- Reads a plain scalar word by word. In block style its lines start at column `indent` or
behind it. -/
def plainWords? (flow : Bool) (indent : Nat) (text : List Char) (gap : Gap) (k : Cursor) :
    Option ScalarRead :=
  if k.atAnyMarker || k.isAt (· == '#') then some ⟨text, gap.broken, k⟩
  else
    match plainWord? flow [] k.rest with
    | none => none
    | some word =>
      let after := k.skip word.length
      let text := if word.isEmpty then text else text ++ gap.text ++ word
      let gap := if word.isEmpty then gap else {}
      if !after.isAt isSpace then some ⟨text, gap.broken, after⟩
      else
        match gap.read? indent after with
        | none => none
        | some (gap, next) =>
          if !flow && next.column < indent then some ⟨text, gap.broken, next⟩
          else if next.rest.length < k.rest.length then plainWords? flow indent text gap next
          else none
termination_by k.rest.length

/-- Reads a plain scalar. -/
def plainScalar? (flow : Bool) (indent : Nat) (k : Cursor) : Option ScalarRead :=
  plainWords? flow indent [] {} k

/-! ## Quoted scalars -/

/-- What stands next in a quoted scalar. -/
inductive QuotedItem
  /-- A character, and how many more than one it is written with. -/
  | char (c : Char) (more : Nat)
  /-- A line break that stands for nothing. -/
  | joint
  /-- A space, the closing quote or the end of the text. -/
  | stop

/-- The character of a code point, unless it is no character. -/
def charOfCode? (n : Nat) : Option Char :=
  if n.isValidChar then some (Char.ofNat n) else none

/-- The character with an escape of one letter. -/
def escaped? (c : Char) : Option Char :=
  match c with
  | '0' => some '\x00'
  | 'a' => some '\x07'
  | 'b' => some '\x08'
  | 't' | '\t' => some '\t'
  | 'n' => some '\n'
  | 'v' => some '\x0b'
  | 'f' => some '\x0c'
  | 'r' => some '\r'
  | 'e' => some '\x1b'
  | ' ' => some ' '
  | '\x22' => some '\x22'
  | '/' => some '/'
  | '\\' => some '\\'
  | 'N' => some '\u0085'
  | '_' => some '\u00a0'
  | 'L' => some '\u2028'
  | 'P' => some '\u2029'
  | _ => none

/-- How many hexadecimal digits follow the letter of an escape. -/
def escapeDigits? (c : Char) : Option Nat :=
  match c with
  | 'x' => some 2
  | 'u' => some 4
  | 'U' => some 8
  | _ => none

/-- What follows a backslash. -/
def escapeItem? : List Char → Option QuotedItem
  | [] => none
  | c :: rest =>
    match escapeDigits? c with
    | some count => do
      let n ← hexNumber? count rest
      let c ← charOfCode? n
      return .char c (1 + count)
    | none => (escaped? c).map fun c => .char c 1

/-- What stands next in a scalar between single or double quotes. -/
def quotedItem? (single : Bool) : List Char → Option QuotedItem
  | [] => some .stop
  | c :: rest =>
    if isSpace c then some .stop
    else if single && c == '\'' && rest.head? == some '\'' then some (.char c 1)
    else if c == (if single then '\'' else '\x22') then some .stop
    else if !single && c == '\\' then
      if rest.head?.any isBreak then some .joint else escapeItem? rest
    else some (.char c 0)

/-- Reads characters of a quoted scalar up to a space, a joint or an end. -/
def quotedWord? (single : Bool) (acc : List Char) (k : Cursor) :
    Option (List Char × Gap × Cursor) :=
  if _h : k.rest = [] then some (acc.reverse, {}, k)
  else
    match quotedItem? single k.rest with
    | none => none
    | some .stop => some (acc.reverse, {}, k)
    | some .joint => some (acc.reverse, { first := some [] }, k.next.skipBreak)
    | some (.char c more) => quotedWord? single (c :: acc) (k.skip (more + 1))
termination_by k.rest.length
decreasing_by
  have := List.length_pos_iff.2 _h
  rw [Cursor.length_skip]
  omega

/-- Reads a quoted scalar word by word, up to and with its closing quote. -/
def quotedWords? (single : Bool) (text : List Char) (k : Cursor) : Option ScalarRead :=
  if k.atAnyMarker || k.atEnd then none
  else
    match quotedWord? single [] k with
    | none => none
    | some (word, gap, after) =>
      let text := text ++ word
      if after.isAt (· == if single then '\'' else '\x22') then some ⟨text, false, after.next⟩
      else
        match gap.read? 0 after with
        | none => none
        | some (gap, next) =>
          if next.rest.length < k.rest.length then quotedWords? single (text ++ gap.text) next
          else none
termination_by k.rest.length

/-- Reads a quoted scalar, from its opening quote. -/
def quotedScalar? (single : Bool) (k : Cursor) : Option ScalarRead :=
  quotedWords? single [] k.next

/-! ## Block scalars -/

/-- What happens to the breaks at the end of a block. -/
inductive Chomping
  /-- All are dropped. -/
  | strip
  /-- The first is kept. -/
  | clip
  /-- All are kept. -/
  | keep
  deriving DecidableEq

/-- Reads the signs behind the indicator of a block: chomping and indentation in either order. -/
def blockHeader? (k : Cursor) : Option (Chomping × Option Nat × Cursor) :=
  let chomping (c : Char) : Option Chomping :=
    if c == '+' then some .keep else if c == '-' then some .strip else none
  let digit (c : Char) : Option Nat := if c.isDigit then some (c.toNat - '0'.toNat) else none
  let header := match k.rest with
    | [] => (.clip, none, k)
    | c :: rest =>
      match chomping c, digit c with
      | some ch, _ => match rest.head?.bind digit with
        | some n => (ch, some n, k.skip 2)
        | none => (ch, none, k.skip 1)
      | none, some n => match rest.head?.bind chomping with
        | some ch => (ch, some n, k.skip 2)
        | none => (.clip, some n, k.skip 1)
      | none, none => (.clip, none, k)
  if header.2.1 == some 0 then none else some header

/-- The empty lines in front of a line of a block. -/
structure BlockBreaks where
  /-- The furthest column that was reached. -/
  most : Nat
  /-- What the breaks stand for. -/
  breaks : List Char
  rest : Cursor

/-- How many blanks at the front of a line belong to its indentation. It is unknown as long as no
line had a text; then all blanks do. -/
def indentation (indent : Option Nat) (k : Cursor) : Nat :=
  let blanks := (k.run (· == ' ')).length
  match indent with
  | none => blanks
  | some n => min blanks (n - k.column)

/-- Reads empty lines and the indentation of the line behind them. -/
def blockBreaks? (indent : Option Nat) (most : Nat) (breaks : List Char) (k : Cursor) :
    Option BlockBreaks :=
  let after := k.skip (indentation indent k)
  let most := max most after.column
  if after.isAt (· == '\t') && indent.all (after.column < ·) then none
  else if _h : after.isAt isBreak = true then
    blockBreaks? indent most (breaks ++ after.breakText) after.skipBreak
  else some ⟨most, breaks, after⟩
termination_by k.rest.length
decreasing_by
  have shorter : (k.skip (indentation indent k)).skipBreak.rest.length <
      (k.skip (indentation indent k)).rest.length := Cursor.length_skipBreak _h
  have := Cursor.length_skip k (indentation indent k)
  omega

/-- A block of which some lines have been read. -/
structure BlockSoFar where
  text : List Char := []
  /-- What the break behind the last line stands for. -/
  leading : List Char := []
  /-- What the breaks behind that one stand for. -/
  trailing : List Char
  /-- The last line started with a blank. -/
  indented : Bool := false

/-- What the breaks between two lines of a block stand for. -/
def BlockSoFar.gap (b : BlockSoFar) (literal blank : Bool) : List Char :=
  if !literal && b.leading.head? == some '\n' && !b.indented && !blank then
    (if b.trailing.isEmpty then [' '] else b.trailing)
  else b.leading ++ b.trailing

/-- Reads the lines of a block that start at column `indent`. -/
def blockLines? (literal : Bool) (indent : Nat) (b : BlockSoFar) (k : Cursor) :
    Option (BlockSoFar × Cursor) :=
  if k.column != indent || k.atEnd then some (b, k)
  else
    let line := k.run fun c => !isBreak c
    let after := k.skip line.length
    let blank := k.isAt isBlank
    match blockBreaks? (some indent) 0 [] after.skipBreak with
    | none => none
    | some gap =>
      if gap.rest.rest.length < k.rest.length then
        blockLines? literal indent
          { text := b.text ++ b.gap literal blank ++ line, leading := after.breakText
            trailing := gap.breaks, indented := blank } gap.rest
      else none
termination_by k.rest.length

/-- Reads a block scalar, from its indicator, within a collection that is indented to `parent`
columns, if within any. -/
def blockScalar? (literal : Bool) (parent : Option Nat) (k : Cursor) : Option ScalarRead := do
  let (chomping, step, k) ← blockHeader? k.next
  let k ← k.finishLine?
  let known := step.map (parent.getD 0 + ·)
  let lead ← blockBreaks? known 0 [] k
  let indent := known.getD (max (max lead.most (parent.elim 0 (· + 1))) 1)
  let (b, k) ← blockLines? literal indent { trailing := lead.breaks } lead.rest
  let tail := match chomping with
    | .strip => []
    | .clip => b.leading
    | .keep => b.leading ++ b.trailing
  return ⟨b.text ++ tail, true, k⟩

end PeerLink.Yaml
