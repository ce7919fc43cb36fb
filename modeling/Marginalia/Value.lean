import Marginalia.Entries
import Marginalia.Integers
import Marginalia.Text.Quoted

/-
  Values of arguments whose type is found out from the text.

  Key definitions include:
    * `Value`
    * `Value.ofUnsigned`
    * `Value.kindName`
    * `Value.text`
-/

namespace Marginalia

------------------------------------------------------------
-- Values
------------------------------------------------------------

/-
  A value. Integers have 64 bits, with a sign or without; the
  entries of a map are listed by ascending key.
-/
inductive Value where
  | null
  | bool (value : Bool)
  | int (value : Int64)
  | uint (value : UInt64)
  | string (value : String)
  | slice (items : List Value)
  | map (entries : List (String × Value))
deriving Inhabited

namespace Value

/- An unsigned integer has the signed form if it has one. -/
def ofUnsigned
    (value : UInt64) : Value :=
  if fitsSigned 64 value.toNat then
    int (Int64.ofNat value.toNat)
  else
    uint value

/- The name of what a value is. -/
def kindName : Value → String
  | null => "null"
  | bool _ => "bool"
  | int _ => "integer"
  | uint _ => "integer"
  | string _ => "string"
  | slice _ => "slice"
  | map _ => "map"

------------------------------------------------------------
-- Views
------------------------------------------------------------

/- The truth value, if it is one. -/
def bool? : Value → Option Bool
  | bool value => some value
  | _ => none

/- The integer, if it is one. -/
def integer? : Value → Option Int
  | int value => some value.toInt
  | uint value => some value.toNat
  | _ => none

/- The integer as a signed one, if it is in range. -/
def int?
    (value : Value) : Option Int64 :=
  match value.integer? with
  | some n =>
      if fitsSigned 64 n then
        some (Int64.ofInt n)
      else
        none
  | none => none

/- The integer as an unsigned one, if it is in range. -/
def uint?
    (value : Value) : Option UInt64 :=
  match value.integer? with
  | some n =>
      if fitsUnsigned 64 n then
        some (UInt64.ofNat n.toNat)
      else
        none
  | none => none

/- The string, if it is one. -/
def string? : Value → Option String
  | string value => some value
  | _ => none

/- The items, if the value is a slice. -/
def items? : Value → Option (List Value)
  | slice items => some items
  | _ => none

/- The entries, if the value is a map. -/
def entries? : Value → Option (List (String × Value))
  | map entries => some entries
  | _ => none

------------------------------------------------------------
-- Written Form
------------------------------------------------------------

/- Texts one after another, with commas between them. -/
def commaSeparated
    (texts : List String) : String :=
  String.intercalate "," texts

mutual

/-
  The value as a literal. Every string is quoted, and items
  and entries stand in groups; `null` has no literal.
-/
def text : Value → String
  | null => ""
  | bool true => "true"
  | bool false => "false"
  | int value => value.toInt.repr
  | uint value => value.toNat.repr
  | string value => Text.quoted value
  | slice items =>
      "\x7b" ++ commaSeparated (itemTexts items) ++ "\x7d"
  | map entries =>
      "\x7b" ++ commaSeparated (entryTexts entries) ++ "\x7d"

/- The items of a slice as literals. -/
def itemTexts : List Value → List String
  | [] => []
  | item :: rest => item.text :: itemTexts rest

/- The entries of a map, each as a key and a literal. -/
def entryTexts : List (String × Value) → List String
  | [] => []
  | (key, value) :: rest =>
      (Text.quoted key ++ ":" ++ value.text)
        :: entryTexts rest

end

end Value

end Marginalia
