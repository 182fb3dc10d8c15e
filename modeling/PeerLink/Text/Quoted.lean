import PeerLink.Text.Hidden

/-!
# Quoted text

Texts from outside (paths, error texts, log fields) are shown between double quotes, with
everything escaped that would break the line or be invisible in it.

## Main results

* `Text.toList_quote` — a quoted text is its escaped characters between two quotes.
-/

namespace PeerLink.Text

/-- The code point of a character in hexadecimal, between braces. -/
def codePoint (c : Char) : List Char :=
  '\x7b' :: Nat.toDigits 16 c.toNat ++ ['\x7d']

/-- How one character stands inside quotes. -/
def escapeChar (c : Char) : List Char :=
  if c = '\x00' then ['\\', '0']
  else if c = '\t' then ['\\', 't']
  else if c = '\r' then ['\\', 'r']
  else if c = '\n' then ['\\', 'n']
  else if c = '\\' ∨ c = '\x22' then ['\\', c]
  else if isHidden c then '\\' :: 'u' :: codePoint c
  else [c]

/-- The text between double quotes. -/
def quote (s : String) : String :=
  String.ofList ('\x22' :: s.toList.flatMap escapeChar ++ ['\x22'])

/-- The path of a file between double quotes; a single quote in it is escaped as well. -/
def quotePath (s : String) : String :=
  let escape (c : Char) : List Char := if c = '\'' then ['\\', c] else escapeChar c
  String.ofList ('\x22' :: s.toList.flatMap escape ++ ['\x22'])

/-- Drops every leading and every trailing occurrence of `c`. -/
def trimChar (c : Char) (s : List Char) : List Char :=
  ((s.dropWhile (· == c)).reverse.dropWhile (· == c)).reverse

@[simp] theorem toList_quote (s : String) :
    (quote s).toList = '\x22' :: s.toList.flatMap escapeChar ++ ['\x22'] := by
  simp [quote]

end PeerLink.Text
