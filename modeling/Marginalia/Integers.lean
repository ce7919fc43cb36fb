/-
  Ranges of integers with a width in bits.

  Key definitions include:
    * `twoPow`
    * `fitsSigned`
    * `fitsUnsigned`
    * `IntType`
    * `IntType.low`
    * `IntType.high`
    * `IntType.Member`
-/

namespace Marginalia

------------------------------------------------------------
-- Widths
------------------------------------------------------------

/- A power of two, by which the ranges are given. -/
def twoPow
    (n : Nat) : Nat :=
  Nat.pow 2 n

/- Whether an integer has so many bits, one for the sign. -/
def fitsSigned
    (bits : Nat)
    (n : Int) : Bool :=
  -(twoPow (bits - 1) : Int) ≤ n && n < twoPow (bits - 1)

/- Whether an integer has so many bits, none for a sign. -/
def fitsUnsigned
    (bits : Nat)
    (n : Int) : Bool :=
  0 ≤ n && n < twoPow bits

------------------------------------------------------------
-- Integer Types
------------------------------------------------------------

/-
  The integer types of a destination. The two without a width
  in their name have the width of a machine word, 64 bits.
-/
inductive IntType where
  | i8
  | i16
  | i32
  | i64
  | isize
  | u8
  | u16
  | u32
  | u64
  | usize
deriving DecidableEq

namespace IntType

/- Whether the type has negative members. -/
def signed : IntType → Bool
  | .i8 | .i16 | .i32 | .i64 | .isize => true
  | .u8 | .u16 | .u32 | .u64 | .usize => false

/- The width in bits. -/
def bits : IntType → Nat
  | .i8 | .u8 => 8
  | .i16 | .u16 => 16
  | .i32 | .u32 => 32
  | .i64 | .u64 | .isize | .usize => 64

/- The name of the type. -/
def name : IntType → String
  | .i8 => "i8"
  | .i16 => "i16"
  | .i32 => "i32"
  | .i64 => "i64"
  | .isize => "isize"
  | .u8 => "u8"
  | .u16 => "u16"
  | .u32 => "u32"
  | .u64 => "u64"
  | .usize => "usize"

/- The least member. -/
def low
    (type : IntType) : Int :=
  if type.signed then -(twoPow (type.bits - 1) : Int) else 0

/- The greatest member. -/
def high
    (type : IntType) : Int :=
  if type.signed then
    (twoPow (type.bits - 1) : Int) - 1
  else
    (twoPow type.bits : Int) - 1

/- Zero is a member of every type. -/
theorem zero_mem
    (type : IntType) :
    type.low ≤ 0 ∧ 0 ≤ type.high := by
  cases type <;> decide

/- The integers of the type. -/
abbrev Member
    (type : IntType) : Type :=
  { n : Int // type.low ≤ n ∧ n ≤ type.high }

/- The integer as a member of the type, if it is one. -/
def member?
    (type : IntType)
    (n : Int) : Option type.Member :=
  if hRange : type.low ≤ n ∧ n ≤ type.high then
    some ⟨n, hRange⟩
  else
    none

/- Zero, as a member. -/
def zero
    (type : IntType) : type.Member :=
  ⟨0, type.zero_mem⟩

end IntType

end Marginalia
