import Marginalia.Text.CodePoints

/-
  Blank characters, and the text that is left without them at
  its ends.

  Key definitions include:
    * `Text.isBlank`
    * `Text.trimStart`
    * `Text.trimEnd`
    * `Text.trim`
-/

namespace Marginalia

namespace Text

/- Code points with the Unicode property White_Space. -/
def blanks : CodePoints := [
  (0x9, 0xD), (0x20, 0x20), (0x85, 0x85), (0xA0, 0xA0),
  (0x1680, 0x1680), (0x2000, 0x200A), (0x2028, 0x2029),
  (0x202F, 0x202F), (0x205F, 0x205F), (0x3000, 0x3000)]

/- Blanks separate tokens and are never part of a name. -/
def isBlank
    (c : Char) : Bool :=
  blanks.contains c.toNat

/- The text from its first character that is not blank. -/
def trimStart
    (text : List Char) : List Char :=
  text.dropWhile isBlank

/- The text up to its last character that is not blank. -/
def trimEnd
    (text : List Char) : List Char :=
  (text.reverse.dropWhile isBlank).reverse

/- The text without blanks at either end. -/
def trim
    (text : List Char) : List Char :=
  trimEnd (trimStart text)

end Text

end Marginalia
