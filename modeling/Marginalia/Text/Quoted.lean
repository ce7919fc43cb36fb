import Marginalia.Text.Hidden

/-
  The quoted form of a text, in which every character can be
  seen.

  Key definitions include:
    * `Text.escapeByCode`
    * `Text.escape`
    * `Text.quoted`
-/

namespace Marginalia

namespace Text

/- A character written by its code point in hexadecimal. -/
def escapeByCode
    (c : Char) : List Char :=
  ['\\', 'u', '{'] ++ Nat.toDigits 16 c.toNat ++ ['}']

/-
  The escaped form of one character. Five characters have
  short escapes besides the backslash, hidden ones are
  written by their code points, and all others stand for
  themselves.
-/
def escape
    (c : Char) : List Char :=
  if c = '\x00' then ['\\', '0']
  else if c = '\t' then ['\\', 't']
  else if c = '\r' then ['\\', 'r']
  else if c = '\n' then ['\\', 'n']
  else if c = '"' then ['\\', '"']
  else if c = '\\' then ['\\', '\\']
  else if isHidden c then escapeByCode c
  else [c]

/- The text between double quotes, with its characters escaped. -/
def quoted
    (text : String) : String :=
  String.ofList
    ('"' :: text.toList.flatMap escape ++ ['"'])

end Text

end Marginalia
