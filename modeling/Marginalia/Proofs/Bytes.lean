import Marginalia.Text.Bytes

/-
  Lossy decoding loses nothing of what a text is encoded as.

  Main statements:
    * `Text.decodeLossy_encoded`
    * `Text.decodeLossy_toUTF8`
-/

namespace Marginalia

namespace Text

------------------------------------------------------------
-- One Byte More
------------------------------------------------------------

variable {scalar : PartialScalar}
variable {byte : UInt8}

/- A byte that announces others. -/
theorem decodeLossy_of_start
    (hStart :
      PartialScalar.start? byte.toNat = some scalar)
    (hHigh : 0x80 ≤ byte.toNat)
    (rest : List UInt8) :
    decodeLossy (byte :: rest) = decodeAfter scalar rest := by
  rw [decodeLossy, if_neg (by omega), hStart]

/- A byte that is not the last one of its character. -/
theorem decodeAfter_of_missing
    {missing : Nat}
    (hAdmits : scalar.admits byte.toNat = true)
    (hMissing : scalar.missing = missing + 1)
    (rest : List UInt8) :
    decodeAfter scalar (byte :: rest) =
      decodeAfter
        ⟨scalar.bitsWith byte.toNat, missing, 0x80, 0xBF⟩
        rest := by
  rw [decodeAfter, if_pos hAdmits, hMissing]

/- The last byte of a character. -/
theorem decodeAfter_of_complete
    {c : Char}
    (hAdmits : scalar.admits byte.toNat = true)
    (hMissing : scalar.missing = 0)
    (hBits : scalar.bitsWith byte.toNat = c.toNat)
    (rest : List UInt8) :
    decodeAfter scalar (byte :: rest) =
      c :: decodeLossy rest := by
  rw [decodeAfter, if_pos hAdmits, hMissing, hBits,
    Char.ofNat_toNat]

------------------------------------------------------------
-- First Bytes
------------------------------------------------------------

namespace PartialScalar

variable {first : Nat}

theorem start_of_two
    (hLow : 0xC2 ≤ first)
    (hHigh : first ≤ 0xDF) :
    start? first = some ⟨first - 0xC0, 0, 0x80, 0xBF⟩ := by
  rw [start?, if_pos ⟨hLow, hHigh⟩]

theorem start_of_three
    (hLow : 0xE0 ≤ first)
    (hHigh : first ≤ 0xEF) :
    start? first =
      some ⟨first - 0xE0, 1,
        if first = 0xE0 then 0xA0 else 0x80,
        if first = 0xED then 0x9F else 0xBF⟩ := by
  rw [start?, if_neg (by omega), if_pos ⟨hLow, hHigh⟩]

theorem start_of_four
    (hLow : 0xF0 ≤ first)
    (hHigh : first ≤ 0xF4) :
    start? first =
      some ⟨first - 0xF0, 2,
        if first = 0xF0 then 0x90 else 0x80,
        if first = 0xF4 then 0x8F else 0xBF⟩ := by
  rw [start?, if_neg (by omega), if_neg (by omega),
    if_pos ⟨hLow, hHigh⟩]

/- The bounds of a byte that may come next. -/
theorem admits_of_bounds
    {second : Nat}
    (hLow : scalar.low ≤ second)
    (hHigh : second ≤ scalar.high) :
    scalar.admits second = true := by
  rw [admits, Bool.and_eq_true, decide_eq_true_eq,
    decide_eq_true_eq]
  exact ⟨hLow, hHigh⟩

end PartialScalar

------------------------------------------------------------
-- Characters
------------------------------------------------------------

theorem toNat_ofNat_byte
    {n : Nat}
    (hByte : n < 256) :
    (UInt8.ofNat n).toNat = n := by
  rw [UInt8.toNat_ofNat', Nat.mod_eq_of_lt hByte]

/- A byte that is not the first of its character. -/
theorem toNat_nextByte
    (n : Nat) :
    (UInt8.ofNat (n % 64 + 128)).toNat = n % 64 + 128 :=
  toNat_ofNat_byte (by omega)

theorem admits_nextByte
    (n : Nat)
    (hLow : scalar.low ≤ n % 64 + 128)
    (hHigh : n % 64 + 128 ≤ scalar.high) :
    scalar.admits (UInt8.ofNat (n % 64 + 128)).toNat =
      true := by
  rw [toNat_nextByte]
  exact PartialScalar.admits_of_bounds hLow hHigh

theorem bitsWith_nextByte
    (n : Nat) :
    scalar.bitsWith (UInt8.ofNat (n % 64 + 128)).toNat =
      scalar.bits * 64 + n % 64 := by
  unfold PartialScalar.bitsWith
  rw [toNat_nextByte]
  omega

variable {c : Char}

theorem decodeLossy_two
    (hLow : 127 < c.toNat)
    (hHigh : c.toNat ≤ 2047)
    (rest : List UInt8) :
    decodeLossy
        (UInt8.ofNat (c.toNat / 64 % 32 + 192) ::
          UInt8.ofNat (c.toNat % 64 + 128) :: rest) =
      c :: decodeLossy rest := by
  have hFirst :
      (UInt8.ofNat (c.toNat / 64 % 32 + 192)).toNat =
        c.toNat / 64 % 32 + 192 :=
    toNat_ofNat_byte (by omega)
  rw [decodeLossy_of_start
    (PartialScalar.start_of_two (by omega) (by omega))
    (by omega)]
  refine decodeAfter_of_complete ?_ rfl ?_ rest
  · apply admits_nextByte <;> dsimp only <;> omega
  · rw [bitsWith_nextByte, hFirst]
    dsimp only
    omega

theorem decodeLossy_three
    (hLow : 2047 < c.toNat)
    (hHigh : c.toNat ≤ 65535)
    (rest : List UInt8) :
    decodeLossy
        (UInt8.ofNat (c.toNat / 4096 % 16 + 224) ::
          UInt8.ofNat (c.toNat / 64 % 64 + 128) ::
            UInt8.ofNat (c.toNat % 64 + 128) :: rest) =
      c :: decodeLossy rest := by
  have hValid :
      c.toNat < 0xD800 ∨
        0xDFFF < c.toNat ∧ c.toNat < 0x110000 :=
    c.valid
  have hFirst :
      (UInt8.ofNat (c.toNat / 4096 % 16 + 224)).toNat =
        c.toNat / 4096 % 16 + 224 :=
    toNat_ofNat_byte (by omega)
  rw [decodeLossy_of_start
    (PartialScalar.start_of_three (by omega) (by omega))
    (by omega)]
  rw [decodeAfter_of_missing ?_ rfl]
  · refine decodeAfter_of_complete ?_ rfl ?_ rest
    · apply admits_nextByte <;> dsimp only <;> omega
    · rw [bitsWith_nextByte, bitsWith_nextByte, hFirst]
      dsimp only
      omega
  -- overlong forms and surrogates are no code points
  · apply admits_nextByte <;> dsimp only <;> split <;> omega

theorem decodeLossy_four
    (hLow : 65535 < c.toNat)
    (rest : List UInt8) :
    decodeLossy
        (UInt8.ofNat (c.toNat / 262144 % 8 + 240) ::
          UInt8.ofNat (c.toNat / 4096 % 64 + 128) ::
            UInt8.ofNat (c.toNat / 64 % 64 + 128) ::
              UInt8.ofNat (c.toNat % 64 + 128) :: rest) =
      c :: decodeLossy rest := by
  have hValid :
      c.toNat < 0xD800 ∨
        0xDFFF < c.toNat ∧ c.toNat < 0x110000 :=
    c.valid
  have hFirst :
      (UInt8.ofNat (c.toNat / 262144 % 8 + 240)).toNat =
        c.toNat / 262144 % 8 + 240 :=
    toNat_ofNat_byte (by omega)
  rw [decodeLossy_of_start
    (PartialScalar.start_of_four (by omega) (by omega))
    (by omega)]
  rw [decodeAfter_of_missing ?_ rfl,
    decodeAfter_of_missing ?_ rfl]
  · refine decodeAfter_of_complete ?_ rfl ?_ rest
    · apply admits_nextByte <;> dsimp only <;> omega
    · rw [bitsWith_nextByte, bitsWith_nextByte,
        bitsWith_nextByte, hFirst]
      dsimp only
      omega
  · apply admits_nextByte <;> dsimp only <;> omega
  -- overlong forms and what is beyond the last code point
  · apply admits_nextByte <;> dsimp only <;> split <;> omega

/- The bytes of a character are decoded to it. -/
theorem decodeLossy_char
    (c : Char)
    (rest : List UInt8) :
    decodeLossy (String.utf8EncodeChar c ++ rest) =
      c :: decodeLossy rest := by
  have hCode : c.val.toNat = c.toNat :=
    rfl
  unfold String.utf8EncodeChar
  rw [hCode]
  dsimp only
  by_cases hOne : c.toNat ≤ 127
  · have hByte : (UInt8.ofNat c.toNat).toNat = c.toNat :=
      toNat_ofNat_byte (by omega)
    rw [if_pos hOne, List.singleton_append, decodeLossy,
      hByte, if_pos (by omega), Char.ofNat_toNat]
  · rw [if_neg hOne]
    by_cases hTwo : c.toNat ≤ 2047
    · rw [if_pos hTwo]
      exact decodeLossy_two (by omega) hTwo rest
    · rw [if_neg hTwo]
      by_cases hThree : c.toNat ≤ 65535
      · rw [if_pos hThree]
        exact decodeLossy_three (by omega) hThree rest
      · rw [if_neg hThree]
        exact decodeLossy_four (by omega) rest

------------------------------------------------------------
-- Texts
------------------------------------------------------------

/- The bytes of a text are decoded to it. -/
theorem decodeLossy_encoded
    (text : List Char) :
    decodeLossy (text.flatMap String.utf8EncodeChar) =
      text := by
  induction text with
  | nil => rw [List.flatMap_nil, decodeLossy]
  | cons c text ih =>
      rw [List.flatMap_cons, decodeLossy_char, ih]

theorem decodeLossy_toUTF8
    (text : String) :
    decodeLossy text.toUTF8.data.toList = text.toList := by
  rw [String.toUTF8_eq_toByteArray,
    ← String.utf8Encode_toList, List.utf8Encode,
    List.toList_data_toByteArray, decodeLossy_encoded]

end Text

end Marginalia
