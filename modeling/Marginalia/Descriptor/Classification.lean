import Marginalia.ReadError

/-
  The descriptor that belongs to a shape.

  Key definitions include:
    * `Descriptor.ofPointee?`
    * `Descriptor.ofShape`
-/

namespace Marginalia

namespace Descriptor

/-
  The descriptor of a shape that is not behind a pointer. A
  slice of bytes is raw text, the keys of a map are strings,
  and items may be behind one pointer each.
-/
def ofPointee? : Shape → Option Descriptor
  | .bool => some (plain .bool)
  | .signed _ => some (plain .signed)
  | .unsigned _ => some (plain .unsigned)
  | .string => some (plain .string)
  | .any => some (plain .any)
  | .slice (.unsigned 8) => some (plain .raw)
  | .slice (.pointer item) =>
      (ofPointee? item).map (nested .slice)
  | .slice item => (ofPointee? item).map (nested .slice)
  | .map .string (.pointer value) =>
      (ofPointee? value).map (nested .map)
  | .map .string value =>
      (ofPointee? value).map (nested .map)
  | _ => none

/-
  The descriptor of a shape, which may itself be behind one
  pointer. The error names the whole shape, even when only
  its items have no grammar.
-/
def ofShape
    (shape : Shape) : Except ReadError Descriptor :=
  match ofPointee? shape.unwrapPointer with
  | some descriptor => .ok descriptor
  | none => .error (.unsupported (.shape shape))

end Descriptor

end Marginalia
