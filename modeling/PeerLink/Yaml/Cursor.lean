/-!
# A place in a YAML text

The readers of this folder walk through a text with a cursor, which knows what is still to be read
and at which line and column it stands: the layout of a text is part of its meaning.

## Main results

* `Yaml.Cursor.length_next`: a step takes one character;
* `Yaml.Cursor.length_skipBreak`: a line break takes at least one.
-/

namespace PeerLink.Yaml

/-! ## Characters -/

/-- A blank within a line. -/
def isBlank (c : Char) : Bool := c == ' ' || c == '\t'

/-- A line break. -/
def isBreak (c : Char) : Bool :=
  c == '\n' || c == '\r' || c == '\u0085' || c == '\u2028' || c == '\u2029'

/-- A blank or a line break. -/
def isSpace (c : Char) : Bool := isBlank c || isBreak c

/-- A character of a name. -/
def isWordChar (c : Char) : Bool := c.isAlphanum || c == '_' || c == '-'

/-- A character that a text may hold at all. -/
def isAllowed (c : Char) : Bool :=
  let n := c.toNat
  n == 0x09 || n == 0x0a || n == 0x0d || (0x20 ≤ n && n ≤ 0x7e) || n == 0x85
    || (0xa0 ≤ n && n ≤ 0xfffd) || 0x10000 ≤ n

/-- The value of one hexadecimal digit. -/
def hexDigit? (c : Char) : Option Nat :=
  if '0' ≤ c ∧ c ≤ '9' then some (c.toNat - '0'.toNat)
  else if 'a' ≤ c ∧ c ≤ 'f' then some (c.toNat - 'a'.toNat + 10)
  else if 'A' ≤ c ∧ c ≤ 'F' then some (c.toNat - 'A'.toNat + 10)
  else none

/-- The value of exactly `count` hexadecimal digits at the front of a text. -/
def hexNumber? (count : Nat) (s : List Char) : Option Nat := do
  let digits ← (s.take count).mapM hexDigit?
  if digits.length = count then some (digits.foldl (fun acc d => acc * 16 + d) 0) else none

/-- The text is at its end, or its first character is of a kind. -/
def endsWith (p : Char → Bool) (s : List Char) : Bool := s.head?.all p

/-! ## Cursors -/

/-- A place in a text: what follows, how many characters came before, and the line and column. -/
structure Cursor where
  rest : List Char
  index : Nat
  line : Nat
  column : Nat
  deriving Repr, Inhabited

namespace Cursor

/-- The front of a text. -/
def start (s : List Char) : Cursor := ⟨s, 0, 0, 0⟩

/-- The next character is of a kind. -/
def isAt (k : Cursor) (p : Char → Bool) : Bool := k.rest.head?.any p

/-- Nothing follows. -/
def atEnd (k : Cursor) : Bool := k.rest.isEmpty

/-- Steps over `count` characters of the line. -/
def skip (k : Cursor) (count : Nat) : Cursor :=
  ⟨k.rest.drop count, k.index + count, k.line, k.column + count⟩

/-- Steps over one character of the line. -/
def next (k : Cursor) : Cursor := k.skip 1

/-- The characters of a kind that follow. -/
def run (k : Cursor) (p : Char → Bool) : List Char := k.rest.takeWhile p

/-- Steps over the characters of a kind. -/
def skipRun (k : Cursor) (p : Char → Bool) : Cursor := k.skip (k.run p).length

/-- Steps over a line break, if there is one. -/
def skipBreak (k : Cursor) : Cursor :=
  match k.rest with
  | '\r' :: '\n' :: rest => ⟨rest, k.index + 2, k.line + 1, 0⟩
  | c :: rest => if isBreak c then ⟨rest, k.index + 1, k.line + 1, 0⟩ else k
  | [] => k

/-- What the line break that follows stands for: line and paragraph separators stand for
themselves, and all others for a line feed. -/
def breakText (k : Cursor) : List Char :=
  match k.rest with
  | [] => []
  | c :: _ => if c == '\u2028' || c == '\u2029' then [c] else if isBreak c then ['\n'] else []

/-- A line that starts with a marker of documents: three times the same character, and a space. -/
def atMarker (k : Cursor) (c : Char) : Bool :=
  k.column == 0 && k.rest.take 3 == [c, c, c] && endsWith isSpace (k.rest.drop 3)

/-- A line that starts or ends a document. -/
def atAnyMarker (k : Cursor) : Bool := k.atMarker '-' || k.atMarker '.'

/-- Steps over a comment, if there is one. -/
def skipComment (k : Cursor) : Cursor :=
  if k.isAt (· == '#') then k.skipRun fun c => !isBreak c else k

/-- Steps to the end of a line that has only a comment left, and over the break. -/
def finishLine? (k : Cursor) : Option Cursor :=
  let k := (k.skipRun isBlank).skipComment
  if endsWith isBreak k.rest then some k.skipBreak else none

theorem length_skip (k : Cursor) (count : Nat) :
    (k.skip count).rest.length = k.rest.length - count := by
  simp [skip]

theorem length_next {k : Cursor} (h : k.rest ≠ []) : k.next.rest.length < k.rest.length := by
  have := List.length_pos_iff.2 h
  rw [next, length_skip]
  omega

theorem length_skipRun_le (k : Cursor) (p : Char → Bool) :
    (k.skipRun p).rest.length ≤ k.rest.length := by
  rw [skipRun, length_skip]
  omega

theorem length_skipComment_le (k : Cursor) : k.skipComment.rest.length ≤ k.rest.length := by
  unfold skipComment
  split
  · exact length_skipRun_le _ _
  · exact Nat.le_refl _

theorem length_skipBreak {k : Cursor} (h : k.isAt isBreak = true) :
    k.skipBreak.rest.length < k.rest.length := by
  unfold skipBreak
  split
  next hk =>
    simp only [hk, List.length_cons]
    omega
  next c rest _ hk =>
    have hc : isBreak c = true := by
      simpa only [isAt, hk, List.head?_cons, Option.any_some] using h
    simp only [hc, if_true, hk, List.length_cons]
    omega
  next hk =>
    simp only [isAt, hk, List.head?_nil, Option.any_none, Bool.false_eq_true] at h

end Cursor

end PeerLink.Yaml
