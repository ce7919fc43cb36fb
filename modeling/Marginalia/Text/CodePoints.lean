/-
  Sets of code points, given as ascending closed ranges.

  Key definitions include:
    * `CodePoints`
    * `CodePoints.contains`
-/

namespace Marginalia

/-
  A set of code points is the list of its maximal ranges, in
  ascending order, each with both ends included.
-/
abbrev CodePoints :=
  List (Nat × Nat)

namespace CodePoints

/-
  Since the ranges ascend, the search ends at the first one
  that starts beyond the code point.
-/
def contains : CodePoints → Nat → Bool
  | [], _ => false
  | (first, last) :: later, code =>
      if code < first then
        false
      else if code ≤ last then
        true
      else
        contains later code

end CodePoints

end Marginalia
