import Marginalia.ReadError
import Marginalia.Value

/-
  The widths of integers, checked after a value has been read
  without regard to them.

  Key definitions include:
    * `Shape.admits`
    * `Shape.checkBounds`
-/

namespace Marginalia

namespace Shape

/-
  Whether an integer has the width that the shape asks for;
  other values pass. The limit of an unsigned width below 64
  is a signed number of 64 bits. At 63 bits it wraps around
  to the least one, so that no signed integer is below it.
-/
def admits : Shape → Value → Bool
  | signed 0, .int _ => false
  | signed 0, .uint _ => false
  | unsigned 0, .int _ => false
  | unsigned 0, .uint _ => false
  | signed _, .uint _ => false
  | signed bits, .int value =>
      64 ≤ bits || fitsSigned bits value.toInt
  | unsigned bits, .uint _ => 64 ≤ bits
  | unsigned bits, .int value =>
      64 ≤ bits
        || (0 ≤ value && value < 1 <<< Int64.ofNat bits)
  | _, _ => true

/-
  Check the integers in a value against the shape, through
  pointers, items and entries. The error is about the first
  one that is too wide.
-/
def checkBounds :
    Shape → Value → Nat → Except ReadError Unit
  | pointer inner, value, position =>
      inner.checkBounds value position
  | slice item, .slice items, position =>
      items.forM fun value => item.checkBounds value position
  | map _ item, .map entries, position =>
      entries.forM fun entry =>
        item.checkBounds entry.2 position
  | shape, value, position =>
      if shape.admits value then
        .ok ()
      else
        .error (.overflow value.text (.shape shape) position)

end Shape

end Marginalia
