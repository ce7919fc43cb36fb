import Marginalia.Integers

/-
  Descriptions of the types that marker arguments may have.

  Key definitions include:
    * `Shape`
    * `Shape.text`
-/

namespace Marginalia

------------------------------------------------------------
-- Shapes
------------------------------------------------------------

/-
  A type, as far as arguments are concerned. Integers and
  floats have a width in bits; `any` is the type of values
  whose form is found out from the text.
-/
inductive Shape where
  | bool
  | signed (bits : Nat)
  | unsigned (bits : Nat)
  | float (bits : Nat)
  | char
  | string
  | any
  | slice (item : Shape)
  | map (key value : Shape)
  | pointer (inner : Shape)
  | struct (name : String)
  | function
  | channel
deriving DecidableEq, Inhabited

namespace Shape

/- The written form of a shape in messages and listings. -/
def text : Shape → String
  | bool => "bool"
  | signed bits => "i" ++ toString bits
  | unsigned bits => "u" ++ toString bits
  | float bits => "f" ++ toString bits
  | char => "char"
  | string => "String"
  | any => "any"
  | slice item => "Vec<" ++ item.text ++ ">"
  | map key value =>
      "Map<" ++ key.text ++ ", " ++ value.text ++ ">"
  | pointer inner => "&" ++ inner.text
  | struct name => "struct " ++ name
  | function => "fn"
  | channel => "channel"

/- The shape without its outermost pointer, if it has one. -/
def unwrapPointer : Shape → Shape
  | pointer inner => inner
  | shape => shape

end Shape

/- The shape of an integer type. -/
def IntType.shape
    (type : IntType) : Shape :=
  if type.signed then
    .signed type.bits
  else
    .unsigned type.bits

end Marginalia
