import Marginalia.Proofs.Text

/-
  Numbers in positional notation, with zeros in front, and
  what their digits denote.

  Key definitions include:
    * `Text.Numeral`

  Main statements:
    * `Text.numeral_of_digits`
    * `Text.numeral_ten_iff`
    * `Text.numeral_sixteen_iff`
    * `Text.scalar_eq_some_iff`
-/

namespace Marginalia

namespace Text

------------------------------------------------------------
-- Numerals
------------------------------------------------------------

/-
  The digits are the notation of the number to the base, with
  any number of zeros in front.
-/
def Numeral
    (base : Nat)
    (digits : List Char)
    (n : Nat) : Prop :=
  ∃ zeros,
    digits = List.replicate zeros '0' ++ Nat.toDigits base n

variable {base n d : Nat}
variable {digits : List Char}

theorem Numeral.ne_nil
    (hDigits : Numeral base digits n) :
    digits ≠ [] := by
  rcases hDigits with ⟨zeros, rfl⟩
  rw [ne_eq, List.append_eq_nil_iff, not_and]
  intro _
  exact Nat.toDigits_ne_nil

theorem numeral_singleton
    (hDigit : d < base) :
    Numeral base [Nat.digitChar d] d :=
  ⟨0, (Nat.toDigits_of_lt_base hDigit).symm⟩

/- A digit more multiplies by the base. -/
theorem Numeral.snoc
    (hBase : 1 < base)
    (hDigits : Numeral base digits n)
    (hDigit : d < base) :
    Numeral base (digits ++ [Nat.digitChar d])
      (base * n + d) := by
  rcases hDigits with ⟨zeros, rfl⟩
  have hLast := Nat.toDigits_of_lt_base hDigit
  rw [List.append_assoc, ← hLast]
  cases n with
  | zero =>
      -- the notation of zero turns into a zero in front
      refine ⟨zeros + 1, ?_⟩
      rw [Nat.toDigits_zero, Nat.mul_zero, Nat.zero_add,
        List.replicate_succ', List.append_assoc]
  | succ n =>
      refine ⟨zeros, ?_⟩
      rw [Nat.toDigits_append_toDigits hBase
        (Nat.succ_pos n) hDigit]

/-
  Any digits are a numeral, if every one of them, put into
  the form of the notation, has the value that is given.
-/
theorem numeral_of_digits
    (form : Char → Char)
    (value : Char → Nat)
    (hBase : 1 < base)
    (hNonempty : digits ≠ [])
    (hDigits : ∀ c ∈ digits,
      value c < base ∧ form c = Nat.digitChar (value c)) :
    Numeral base (digits.map form)
      (digits.foldl (fun n c => base * n + value c) 0) := by
  induction digits using List.reverseRecOn with
  | nil => exact absurd rfl hNonempty
  | append_singleton digits c ih =>
      have hLast := hDigits c (by simp)
      rw [List.map_append, List.map_singleton, hLast.2,
        List.foldl_append, List.foldl_cons, List.foldl_nil]
      rcases List.eq_nil_or_concat digits with rfl | hFront
      · rw [List.foldl_nil, Nat.mul_zero, Nat.zero_add]
        exact numeral_singleton hLast.1
      · refine (ih ?_ ?_).snoc hBase hLast.1
        · rcases hFront with ⟨front, other, rfl⟩
          simp
        · intro other hOther
          exact hDigits other (List.mem_append_left _ hOther)

------------------------------------------------------------
-- Decimal Numerals
------------------------------------------------------------

theorem ofDigitChars_zeros
    (zeros : Nat) :
    Nat.ofDigitChars base (List.replicate zeros '0') 0 =
      0 := by
  induction zeros with
  | zero => rfl
  | succ zeros ih =>
      rw [List.replicate_succ, Nat.ofDigitChars_cons]
      exact ih

/- Decimal numerals are the runs of decimal digits. -/
theorem numeral_ten_iff :
    Numeral 10 digits n ↔
      digits ≠ [] ∧ (∀ c ∈ digits, c.isDigit = true) ∧
        Nat.ofDigitChars 10 digits 0 = n := by
  constructor
  · intro hDigits
    refine ⟨hDigits.ne_nil, ?_⟩
    rcases hDigits with ⟨zeros, rfl⟩
    constructor
    · intro c hMember
      rcases List.mem_append.mp hMember with hZero | hDigit
      · rw [List.eq_of_mem_replicate hZero]
        rfl
      · exact Nat.isDigit_of_mem_toDigits (by decide)
          (by decide) hDigit
    · rw [Nat.ofDigitChars_append, ofDigitChars_zeros,
        Nat.ofDigitChars_ten_toDigits]
  · rintro ⟨hNonempty, hDigits, rfl⟩
    have hNumeral :
        Numeral 10 (digits.map id)
          (digits.foldl
            (fun n c => 10 * n + (c.toNat - '0'.toNat)) 0) := by
      refine numeral_of_digits id _ (by decide) hNonempty ?_
      intro c hMember
      exact forall_isDigit
        (p := fun c =>
          c.toNat - '0'.toNat < 10 ∧
            id c = Nat.digitChar (c.toNat - '0'.toNat))
        (by decide) (hDigits c hMember)
    rw [List.map_id] at hNumeral
    exact hNumeral

------------------------------------------------------------
-- Hexadecimal Numerals
------------------------------------------------------------

/- Letters of either case are digits with the same value. -/
theorem forall_isHexDigit
    {p : Char → Prop}
    (hDigits : ∀ code ∈
      List.range' 48 10 ++ List.range' 65 6 ++
        List.range' 97 6,
      p (Char.ofNat code))
    {c : Char}
    (hDigit : isHexDigit c = true) :
    p c := by
  have hRange :
      (48 ≤ c.toNat ∧ c.toNat ≤ 57 ∨
        97 ≤ c.toNat ∧ c.toNat ≤ 102) ∨
          65 ≤ c.toNat ∧ c.toNat ≤ 70 := by
    simpa [isHexDigit, Char.isDigit, Char.le_def,
      UInt32.le_iff_toNat_le] using hDigit
  have hCode := hDigits c.toNat (by
    simp only [List.mem_append, List.mem_range'_1]
    omega)
  rw [Char.ofNat_toNat] at hCode
  exact hCode

/- What is a digit in small letters is one as it stands. -/
theorem isHexDigit_of_toLower
    {c : Char}
    (hDigit : isHexDigit c.toLower = true) :
    isHexDigit c = true := by
  by_cases hRange : 65 ≤ c.toNat ∧ c.toNat ≤ 90
  · have hCapitals :
        ∀ code ∈ List.range' 65 26,
          isHexDigit (Char.ofNat code).toLower = true →
            isHexDigit (Char.ofNat code) = true := by
      decide
    have hCode := hCapitals c.toNat
      (List.mem_range'_1.mpr (by omega))
    rw [Char.ofNat_toNat] at hCode
    exact hCode hDigit
  · have hSame : c.toLower = c := by
      unfold Char.toLower
      rw [dif_neg]
      simpa [UInt32.le_iff_toNat_le] using hRange
    rw [hSame] at hDigit
    exact hDigit

theorem hexValue_zeros
    (zeros : Nat)
    (digits : List Char) :
    hexValue (List.replicate zeros '0' ++ digits) =
      hexValue digits := by
  induction zeros with
  | zero => rfl
  | succ zeros ih => exact ih

/- The case of the letters makes no difference. -/
theorem hexValue_map_toLower
    (hDigits : ∀ c ∈ digits, isHexDigit c = true) :
    hexValue (digits.map Char.toLower) = hexValue digits := by
  have hValues :
      ∀ c ∈ digits,
        hexDigitValue c.toLower = hexDigitValue c := by
    intro c hMember
    exact forall_isHexDigit
      (p := fun c =>
        hexDigitValue c.toLower = hexDigitValue c)
      (by decide) (hDigits c hMember)
  unfold hexValue
  rw [List.foldl_map]
  apply List.foldl_ext
  intro n c hMember
  rw [hValues c hMember]

/- Hexadecimal numerals are the runs of hexadecimal digits. -/
theorem numeral_sixteen_iff :
    Numeral 16 (digits.map Char.toLower) n ↔
      digits ≠ [] ∧ (∀ c ∈ digits, isHexDigit c = true) ∧
        hexValue digits = n := by
  constructor
  · intro hNumeral
    have hNonempty := hNumeral.ne_nil
    rw [ne_eq, List.map_eq_nil_iff] at hNonempty
    rcases hNumeral with ⟨zeros, hText⟩
    have hDigits : ∀ c ∈ digits, isHexDigit c = true := by
      intro c hMember
      apply isHexDigit_of_toLower
      have hLower := List.mem_map_of_mem (f := Char.toLower)
        hMember
      rw [hText] at hLower
      rcases List.mem_append.mp hLower with hZero | hDigit
      · rw [List.eq_of_mem_replicate hZero]
        rfl
      · exact isHexDigit_of_mem_toDigits hDigit
    refine ⟨hNonempty, hDigits, ?_⟩
    rw [← hexValue_map_toLower hDigits, hText,
      hexValue_zeros, hexValue_toDigits]
  · rintro ⟨hNonempty, hDigits, rfl⟩
    have hNumeral :
        Numeral 16 (digits.map Char.toLower)
          (digits.foldl
            (fun n c => 16 * n + hexDigitValue c) 0) := by
      refine numeral_of_digits Char.toLower _ (by decide)
        hNonempty ?_
      intro c hMember
      exact forall_isHexDigit
        (p := fun c =>
          hexDigitValue c < 16 ∧
            c.toLower = Nat.digitChar (hexDigitValue c))
        (by decide) (hDigits c hMember)
    unfold hexValue
    simp only [Nat.mul_comm _ 16]
    exact hNumeral

/- Digits denote the character with their number. -/
theorem scalar_eq_some_iff
    {c : Char} :
    scalar? digits = some c ↔
      digits ≠ [] ∧ hexValue digits = c.toNat := by
  unfold scalar?
  constructor
  · intro hScalar
    split at hScalar
    · rename_i hDigits
      cases hScalar
      refine ⟨hDigits.1, ?_⟩
      unfold Char.ofNat
      rw [dif_pos hDigits.2]
      rfl
    · cases hScalar
  · rintro ⟨hNonempty, hValue⟩
    rw [hValue, if_pos ⟨hNonempty, c.valid⟩,
      Char.ofNat_toNat]

end Text

end Marginalia
