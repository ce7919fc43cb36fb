import Marginalia.Shape

/-
  Descriptors: which grammar the literal of an argument
  follows.

  Key definitions include:
    * `Kind`
    * `Descriptor`
    * `Descriptor.text`
-/

namespace Marginalia

------------------------------------------------------------
-- Kinds
------------------------------------------------------------

/- The families of literal grammars; `invalid` has none. -/
inductive Kind where
  | invalid
  | any
  | bool
  | signed
  | unsigned
  | string
  | raw
  | slice
  | map
deriving DecidableEq, Inhabited

namespace Kind

/- The name of a kind in messages and listings. -/
def text : Kind → String
  | invalid => "invalid"
  | any => "any"
  | bool => "bool"
  | signed => "signed integer"
  | unsigned => "unsigned integer"
  | string => "string"
  | raw => "raw"
  | slice => "slice"
  | map => "map"

/- The name of a kind in data, a single word. -/
def word : Kind → String
  | invalid => "invalid"
  | any => "any"
  | bool => "bool"
  | signed => "signed_integer"
  | unsigned => "unsigned_integer"
  | string => "string"
  | raw => "raw"
  | slice => "slice"
  | map => "map"

/- The kind with the given word. -/
def ofWord?
    (word : String) : Option Kind :=
  [invalid, any, bool, signed, unsigned, string, raw, slice,
    map].find? fun kind => kind.word == word

end Kind

------------------------------------------------------------
-- Descriptors
------------------------------------------------------------

/-
  A descriptor names the kind of an argument and, where there
  are items, describes those. It can be put together freely;
  the descriptors of shapes are well formed.
-/
inductive Descriptor where
  | plain (kind : Kind)
  | nested (kind : Kind) (item : Descriptor)
deriving DecidableEq, Inhabited

namespace Descriptor

/- The kind that a descriptor names. -/
def kind : Descriptor → Kind
  | plain kind => kind
  | nested kind _ => kind

/- The descriptor of the items, if there is one. -/
def item? : Descriptor → Option Descriptor
  | plain _ => none
  | nested _ item => some item

/- The written form of a descriptor. -/
def text : Descriptor → String
  | plain kind => kind.text
  | nested kind item => kind.text ++ "<" ++ item.text ++ ">"

end Descriptor

end Marginalia
