/-
  Numbers and characters in hexadecimal notation.

  Key definitions include:
    * `Text.isHexDigit`
    * `Text.hexValue`
    * `Text.scalar?`
-/

namespace Marginalia

namespace Text

/- Hexadecimal digits, in either case. -/
def isHexDigit
    (c : Char) : Bool :=
  c.isDigit
    || ('a' ≤ c && c ≤ 'f')
    || ('A' ≤ c && c ≤ 'F')

/- The value of a hexadecimal digit. -/
def hexDigitValue
    (c : Char) : Nat :=
  if c.isDigit then
    c.toNat - '0'.toNat
  else if c ≤ 'F' then
    c.toNat - 'A'.toNat + 10
  else
    c.toNat - 'a'.toNat + 10

/- The number that hexadecimal digits denote. -/
def hexValue
    (digits : List Char) : Nat :=
  digits.foldl
    (fun value digit => value * 16 + hexDigitValue digit)
    0

/-
  The character with the code point that the digits denote.
  There is none for surrogates, for numbers beyond the last
  code point, and for no digits at all.
-/
def scalar?
    (digits : List Char) : Option Char :=
  if digits ≠ [] ∧ (hexValue digits).isValidChar then
    some (Char.ofNat (hexValue digits))
  else
    none

end Text

end Marginalia
