import PeerLink.Yaml.Cursor

/-!
# Gaps between words

Within a scalar that runs over several lines, what stands between two words is either blanks,
which are kept, or line breaks with blanks around them, which are folded: one break counts as a
blank, and of several breaks all but the first count.
-/

namespace PeerLink.Yaml

/-- What stands between two words of a scalar. -/
structure Gap where
  /-- The blanks in front of the first break. -/
  blanks : List Char := []
  /-- What the first break stands for, if there is a break. -/
  first : Option (List Char) := none
  /-- What the other breaks stand for. -/
  others : List Char := []
  deriving Repr, Inhabited

namespace Gap

/-- The gap has a line break. -/
def broken (g : Gap) : Bool := g.first.isSome

/-- What a gap stands for. -/
def text (g : Gap) : List Char :=
  match g.first with
  | none => g.blanks
  | some b =>
    if b == ['\n'] then (if g.others.isEmpty then [' '] else g.others) else b ++ g.others

/-- Reads the rest of a gap. Once there has been a break, no tab may stand in front of column
`indent`. -/
def read? (indent : Nat) (g : Gap) (k : Cursor) : Option (Gap × Cursor) :=
  match _h : k.rest with
  | [] => some (g, k)
  | c :: _ =>
    if isBlank c then
      if g.broken && k.column < indent && c == '\t' then none
      else if g.broken then read? indent g k.next
      else read? indent { g with blanks := g.blanks ++ [c] } k.next
    else if _hb : isBreak c = true then
      if g.broken then read? indent { g with others := g.others ++ k.breakText } k.skipBreak
      else read? indent { g with blanks := [], first := some k.breakText } k.skipBreak
    else some (g, k)
termination_by k.rest.length
decreasing_by
  · exact Cursor.length_next (by simp [_h])
  · exact Cursor.length_next (by simp [_h])
  · exact Cursor.length_skipBreak (by simp [Cursor.isAt, _h, _hb])
  · exact Cursor.length_skipBreak (by simp [Cursor.isAt, _h, _hb])

end Gap

end PeerLink.Yaml
