/-
  FusedQuery/Text/Quoted.lean
  ===========================
  **Texts in double quotes.**

  A quoted text shows every character so that it can be told apart: the quote and the backslash
  are escaped, four control characters have letters of their own, and a character that prints
  as nothing, or only together with its neighbour, is written as its hexadecimal code point.
-/
import FusedQuery.Text.Unprintable
import FusedQuery.Text.Extending

namespace FusedQuery.Text

/-- The code point in lower-case hexadecimal, in braces after `\u`. -/
def escapedCodePoint (c : Char) : List Char :=
  ['\\', 'u', '\x7b'] ++ Nat.toDigits 16 c.toNat ++ ['\x7d']

/-- One character as it stands between the quotes.  A single quote needs no escape there. -/
def quotedChar (c : Char) : List Char :=
  if c = '"' ∨ c = '\\' then ['\\', c]
  else if c = '\t' then ['\\', 't']
  else if c = '\r' then ['\\', 'r']
  else if c = '\n' then ['\\', 'n']
  else if c = '\x00' then ['\\', '0']
  else if isExtending c || isUnprintable c then escapedCodePoint c
  else [c]

def quoted (s : String) : String :=
  String.ofList ('"' :: s.toList.flatMap quotedChar ++ ['"'])

end FusedQuery.Text
