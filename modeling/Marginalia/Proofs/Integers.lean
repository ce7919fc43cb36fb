import Marginalia.Bounds
import Mathlib.Algebra.Order.Ring.Int

/-
  Words of 64 bits, the integers that fit them, and the widths
  that admit them.

  Main statements:
    * `fitsSigned_iff` and `fitsUnsigned_iff`
    * `toInt_ofInt_of_fits`
    * `toNat_ofNat_of_fits`
    * `Shape.admits_signed_iff`
    * `Shape.admits_unsigned_iff`
-/

namespace Marginalia

------------------------------------------------------------
-- Words
------------------------------------------------------------

theorem twoPow_eq
    (n : Nat) :
    (twoPow n : Int) = 2 ^ n := by
  simp [twoPow]

/- The range of so many bits, of which one is for the sign. -/
theorem fitsSigned_iff_of_bits
    {bits : Nat}
    {n : Int} :
    fitsSigned bits n = true ↔
      -2 ^ (bits - 1) ≤ n ∧ n < 2 ^ (bits - 1) := by
  unfold fitsSigned
  rw [twoPow_eq, Bool.and_eq_true, decide_eq_true_eq,
    decide_eq_true_eq]

/- The range of a signed word. -/
theorem fitsSigned_iff
    {n : Int} :
    fitsSigned 64 n = true ↔ -2 ^ 63 ≤ n ∧ n < 2 ^ 63 :=
  fitsSigned_iff_of_bits

/- The range of an unsigned word. -/
theorem fitsUnsigned_iff
    {n : Int} :
    fitsUnsigned 64 n = true ↔ 0 ≤ n ∧ n < 2 ^ 64 := by
  unfold fitsUnsigned
  rw [twoPow_eq, Bool.and_eq_true, decide_eq_true_eq,
    decide_eq_true_eq]

/- Signed words denote integers that fit. -/
theorem fitsSigned_toInt
    (value : Int64) :
    fitsSigned 64 value.toInt = true :=
  fitsSigned_iff.mpr ⟨value.le_toInt, value.toInt_lt⟩

/- Unsigned words denote integers that fit. -/
theorem fitsUnsigned_toNat
    (value : UInt64) :
    fitsUnsigned 64 value.toNat = true := by
  have hLess := value.toNat_lt
  exact fitsUnsigned_iff.mpr ⟨by omega, by omega⟩

/- The signed word of an integer that fits denotes it. -/
theorem toInt_ofInt_of_fits
    {n : Int}
    (hFits : fitsSigned 64 n = true) :
    (Int64.ofInt n).toInt = n := by
  have hRange := fitsSigned_iff.mp hFits
  exact Int64.toInt_ofInt_of_le hRange.1 hRange.2

/- The unsigned word of a number that fits denotes it. -/
theorem toNat_ofNat_of_fits
    {n : Nat}
    (hFits : fitsUnsigned 64 n = true) :
    (UInt64.ofNat n).toNat = n := by
  have hRange := fitsUnsigned_iff.mp hFits
  exact Nat.mod_eq_of_lt (by omega)

------------------------------------------------------------
-- Widths
------------------------------------------------------------

namespace Shape

/- A greater width has a greater range. -/
theorem two_pow_le
    {bits bits' : Nat}
    (hBits : bits ≤ bits') :
    (2 : Int) ^ bits ≤ 2 ^ bits' :=
  pow_le_pow_right₀ (by decide) hBits

/- A signed width admits the signed words in its range. -/
theorem admits_signed_iff
    {bits : Nat}
    (value : Int64) :
    (signed bits).admits (.int value) = true ↔
      0 < bits ∧
        -2 ^ (bits - 1) ≤ value.toInt ∧
          value.toInt ≤ 2 ^ (bits - 1) - 1 := by
  cases bits with
  | zero => simp [admits]
  | succ bits =>
      have hLow := value.le_toInt
      have hHigh := value.toInt_lt
      simp only [admits, Bool.or_eq_true, decide_eq_true_eq,
        fitsSigned_iff_of_bits, Nat.add_sub_cancel]
      -- All words are in the range of a width of 64 bits.
      by_cases hWide : 64 ≤ bits + 1
      · have hPow : (2 : Int) ^ 63 ≤ 2 ^ bits :=
          two_pow_le (by omega)
        omega
      · omega

/- No signed width admits a word without a sign. -/
theorem not_admits_signed
    (bits : Nat)
    (value : UInt64) :
    ¬ (signed bits).admits (.uint value) = true := by
  cases bits with
  | zero => simp [admits]
  | succ bits => simp [admits]

/- A signed word is compared with the limit of the width. -/
theorem admits_unsigned_iff
    {bits : Nat}
    (value : Int64) :
    (unsigned bits).admits (.int value) = true ↔
      0 < bits ∧
        (64 ≤ bits ∨
          0 ≤ value.toInt ∧
            value.toInt <
              ((1 : Int64) <<< Int64.ofNat bits).toInt) := by
  cases bits with
  | zero => simp [admits]
  | succ bits =>
      simp only [admits, Bool.or_eq_true, Bool.and_eq_true,
        decide_eq_true_eq, Int64.lt_iff_toInt_lt,
        Int64.le_iff_toInt_le, Nat.zero_lt_succ, true_and]
      rfl

/- A word without a sign needs all of its bits. -/
theorem admits_unsigned_uint_iff
    {bits : Nat}
    (value : UInt64) :
    (unsigned bits).admits (.uint value) = true ↔
      64 ≤ bits := by
  cases bits with
  | zero => simp [admits]
  | succ bits => simp [admits]

end Shape

end Marginalia
