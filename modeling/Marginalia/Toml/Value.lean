/-
  The data that a configuration text in TOML holds.

  Key definitions include:
    * `Toml`
    * `Toml.string?`
    * `Toml.boolean?`
    * `Toml.array?`
-/

namespace Marginalia

/-
  A value in TOML. Numbers with a fraction or an exponent and
  dates are kept as they were written.
-/
inductive Toml where
  | string (value : String)
  | integer (value : Int)
  | float (literal : String)
  | boolean (value : Bool)
  | datetime (literal : String)
  | array (items : List Toml)
  | table (entries : List (String × Toml))
deriving Inhabited

namespace Toml

/- The string, if the value is one. -/
def string? : Toml → Option String
  | string value => some value
  | _ => none

/- The truth value, if the value is one. -/
def boolean? : Toml → Option Bool
  | boolean value => some value
  | _ => none

/- The items, if the value is an array. -/
def array? : Toml → Option (List Toml)
  | array items => some items
  | _ => none

end Toml

end Marginalia
