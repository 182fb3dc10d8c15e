import PeerLink.Bytes
import PeerLink.Yaml.Cursor

/-!
# Anchors, tags and directives

What stands in front of a node without being part of its text: a name by which it can be referred
to, and a tag that says of which type it is. A tag is written in full, or as a handle and the rest;
directives at the top of a document give handles their meaning.
-/

namespace PeerLink.Yaml

/-- The bytes of a text. -/
def utf8 (s : List Char) : Bytes := (String.ofList s).toUTF8.toList

/-! ## Anchors -/

/-- Reads the name of an anchor or alias, from its indicator. -/
def anchorName? (k : Cursor) : Option (String × Cursor) :=
  let k := k.next
  let name := k.run isWordChar
  let after := k.skip name.length
  let ends (c : Char) : Bool :=
    isSpace c || ['?', ':', ',', ']', '\x7d', '%', '@', '\x60'].contains c
  if name.isEmpty || !endsWith ends after.rest then none else some (String.ofList name, after)

/-! ## Tags -/

/-- A tag as written: its handle and the rest of it, in bytes. -/
structure TagText where
  handle : List Char
  suffix : Bytes
  deriving DecidableEq, Repr, Inhabited

/-- A character that may stand in a tag without an escape; in full tags brackets and commas may
as well. -/
def isTagChar (full : Bool) (c : Char) : Bool :=
  isWordChar c
    || [';', '/', '?', ':', '@', '&', '=', '+', '$', '.', '!', '~', '*', '\'', '(', ')'].contains c
    || (full && [',', '[', ']'].contains c)

/-- The byte that an escape at the front of a text stands for. -/
def escapedByte? : List Char → Option Nat
  | '%' :: rest => hexNumber? 2 rest
  | _ => none

/-- How many bytes the character has that starts with a byte. -/
def characterWidth? (b : Nat) : Option Nat :=
  if b < 0x80 then some 1
  else if 0xc0 ≤ b ∧ b < 0xe0 then some 2
  else if 0xe0 ≤ b ∧ b < 0xf0 then some 3
  else if 0xf0 ≤ b ∧ b < 0xf8 then some 4
  else none

/-- The bytes of one escaped character, `count` of which are still to be read. -/
def escapedTail? : Nat → List Char → Option Bytes
  | 0, _ => some []
  | count + 1, s => do
    let b ← escapedByte? s
    if b / 64 ≠ 2 then none
    else return UInt8.ofNat b :: (← escapedTail? count (s.drop 3))

/-- The bytes of the escaped character at the front of a text. -/
def escapedCharacter? (s : List Char) : Option Bytes := do
  let b ← escapedByte? s
  let width ← characterWidth? b
  return UInt8.ofNat b :: (← escapedTail? (width - 1) (s.drop 3))

/-- Reads the characters of a tag. -/
def tagBytes? (full : Bool) (acc : Bytes) (k : Cursor) : Option (Bytes × Cursor) :=
  match _h : k.rest with
  | [] => some (acc, k)
  | c :: _ =>
    if c == '%' then
      match escapedCharacter? k.rest with
      | none => none
      | some bytes => tagBytes? full (acc ++ bytes) (k.skip (max 1 (3 * bytes.length)))
    else if isTagChar full c then tagBytes? full (acc ++ utf8 [c]) k.next
    else some (acc, k)
termination_by k.rest.length
decreasing_by
  · rw [Cursor.length_skip, _h, List.length_cons]
    omega
  · exact Cursor.length_next (by simp [_h])

/-- Reads a handle: an exclamation mark, or a word between two of them. Without the second one, it
is the front of a tag that has the handle of one mark; `whole` forbids this. -/
def tagHandle? (whole : Bool) (k : Cursor) : Option (List Char × Cursor) :=
  if !k.isAt (· == '!') then none
  else
    let word := k.next.run isWordChar
    let after := k.next.skip word.length
    if after.isAt (· == '!') then some ('!' :: word ++ ['!'], after.next)
    else if whole && !word.isEmpty then none
    else some ('!' :: word, after)

/-- Reads a tag, from its exclamation mark. -/
def tag? (flow : Bool) (k : Cursor) : Option (TagText × Cursor) := do
  let (tag, k) ←
    if k.next.isAt (· == '<') then do
      let (bytes, k) ← tagBytes? true [] (k.skip 2)
      if bytes.isEmpty || !k.isAt (· == '>') then none
      else some (TagText.mk [] bytes, k.next)
    else do
      let (handle, k) ← tagHandle? false k
      if 1 < handle.length && handle.getLast? == some '!' then do
        let (bytes, k) ← tagBytes? false [] k
        if bytes.isEmpty then none else some (TagText.mk handle bytes, k)
      else do
        let (bytes, k) ← tagBytes? false (utf8 (handle.drop 1)) k
        if bytes.isEmpty then some (TagText.mk [] (utf8 ['!']), k)
        else some (TagText.mk ['!'] bytes, k)
  if endsWith isSpace k.rest || (flow && k.isAt (· == ',')) then some (tag, k) else none

/-! ## Directives -/

/-- A line above a document that says how it is to be read. -/
inductive Directive
  | version (major minor : Nat)
  /-- What a handle stands for. -/
  | handle (handle : List Char) (meaning : Bytes)
  deriving DecidableEq, Repr, Inhabited

/-- Reads a number of at most nine digits. -/
def versionNumber? (k : Cursor) : Option (Nat × Cursor) :=
  let digits := k.run Char.isDigit
  if digits.isEmpty || 9 < digits.length then none
  else some (digits.foldl (fun acc c => acc * 10 + (c.toNat - '0'.toNat)) 0, k.skip digits.length)

/-- Reads a directive, from its percent sign to the end of its line. -/
def directive? (k : Cursor) : Option (Directive × Cursor) := do
  let k := k.next
  let name := k.run isWordChar
  let k := k.skip name.length
  if name.isEmpty || !endsWith isSpace k.rest then none
  let k' := k.skipRun isBlank
  let (directive, k) ←
    if name == "YAML".toList then do
      let (major, k) ← versionNumber? k'
      if !k.isAt (· == '.') then none
      let (minor, k) ← versionNumber? k.next
      some (Directive.version major minor, k)
    else if name == "TAG".toList then do
      let (handle, k) ← tagHandle? true k'
      if !k.isAt isBlank then none
      let (meaning, k) ← tagBytes? true [] (k.skipRun isBlank)
      if meaning.isEmpty || !endsWith isSpace k.rest then none
      some (Directive.handle handle meaning, k)
    else none
  return (directive, ← k.finishLine?)

end PeerLink.Yaml
