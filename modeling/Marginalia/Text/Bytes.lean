/-
  Texts as bytes in UTF-8.

  Key definitions include:
    * `Text.byteLength`
    * `Text.upToByte?`
    * `Text.PartialScalar`
    * `Text.decodeLossy`
-/

namespace Marginalia

namespace Text

------------------------------------------------------------
-- Lengths
------------------------------------------------------------

/- The number of bytes that the characters take in UTF-8. -/
def byteLength : List Char → Nat
  | [] => 0
  | c :: text => c.utf8Size + byteLength text

@[simp]
theorem byteLength_nil :
    byteLength [] = 0 :=
  rfl

@[simp]
theorem byteLength_cons
    (c : Char)
    (text : List Char) :
    byteLength (c :: text) =
      c.utf8Size + byteLength text :=
  rfl

@[simp]
theorem byteLength_append
    (front back : List Char) :
    byteLength (front ++ back) =
      byteLength front + byteLength back := by
  induction front with
  | nil => simp
  | cons c front ih => simp [ih, Nat.add_assoc]

@[simp]
theorem byteLength_reverse
    (text : List Char) :
    byteLength text.reverse = byteLength text := by
  induction text with
  | nil => rfl
  | cons c text ih => simp [ih, Nat.add_comm]

/-
  The part of a text up to a byte offset. There is none if the
  offset is not between characters of the text.
-/
def upToByte? : Nat → List Char → Option (List Char)
  | 0, _ => some []
  | _ + 1, [] => none
  | offset + 1, c :: text =>
      if c.utf8Size ≤ offset + 1 then
        (upToByte? (offset + 1 - c.utf8Size) text).map
          fun front => c :: front
      else
        none

/- The offset behind some first characters cuts these out. -/
theorem upToByte?_append
    (front back : List Char) :
    upToByte? (byteLength front) (front ++ back) =
      some front := by
  induction front with
  | nil => simp [upToByte?]
  | cons c front ih =>
      have hSize := c.utf8Size_pos
      cases hOffset : byteLength (c :: front) with
      | zero =>
          rw [byteLength_cons] at hOffset
          omega
      | succ offset =>
          rw [byteLength_cons] at hOffset
          have hLater :
              offset + 1 - c.utf8Size = byteLength front := by
            omega
          rw [List.cons_append, upToByte?,
            if_pos (by omega), hLater, ih]
          rfl

------------------------------------------------------------
-- Lossy Decoding
------------------------------------------------------------

/-
  The beginning of an encoded character: the bits read so
  far, how many bytes are missing after the next one, and
  the range in which the next byte must lie.
-/
structure PartialScalar where
  bits : Nat
  missing : Nat
  low : Nat
  high : Nat

namespace PartialScalar

/-
  What a first byte of several announces. The bounds on the
  second byte exclude overlong forms, surrogates and code
  points beyond the last.
-/
def start?
    (byte : Nat) : Option PartialScalar :=
  if 0xC2 ≤ byte ∧ byte ≤ 0xDF then
    some ⟨byte - 0xC0, 0, 0x80, 0xBF⟩
  else if 0xE0 ≤ byte ∧ byte ≤ 0xEF then
    some ⟨byte - 0xE0, 1,
      if byte = 0xE0 then 0xA0 else 0x80,
      if byte = 0xED then 0x9F else 0xBF⟩
  else if 0xF0 ≤ byte ∧ byte ≤ 0xF4 then
    some ⟨byte - 0xF0, 2,
      if byte = 0xF0 then 0x90 else 0x80,
      if byte = 0xF4 then 0x8F else 0xBF⟩
  else
    none

/- Whether the byte may come next. -/
def admits
    (scalar : PartialScalar)
    (byte : Nat) : Bool :=
  scalar.low ≤ byte && byte ≤ scalar.high

/- The bits with those of one more byte. -/
def bitsWith
    (scalar : PartialScalar)
    (byte : Nat) : Nat :=
  scalar.bits * 64 + (byte - 0x80)

end PartialScalar

/- The sign that stands for bytes which encode nothing. -/
def replacement : Char :=
  '\uFFFD'

mutual

/-
  The characters that the bytes encode. Each longest part
  that begins no character, or breaks one off, is replaced
  by one sign.
-/
def decodeLossy : List UInt8 → List Char
  | [] => []
  | byte :: rest =>
      if byte.toNat < 0x80 then
        Char.ofNat byte.toNat :: decodeLossy rest
      else
        match PartialScalar.start? byte.toNat with
        | some scalar => decodeAfter scalar rest
        | none => replacement :: decodeLossy rest

/- The same, inside a character of several bytes. -/
def decodeAfter
    (scalar : PartialScalar) : List UInt8 → List Char
  | [] => [replacement]
  | byte :: rest =>
      if scalar.admits byte.toNat then
        match scalar.missing with
        | 0 =>
            Char.ofNat (scalar.bitsWith byte.toNat)
              :: decodeLossy rest
        | missing + 1 =>
            decodeAfter
              ⟨scalar.bitsWith byte.toNat, missing, 0x80, 0xBF⟩
              rest
      else if byte.toNat < 0x80 then
        replacement
          :: Char.ofNat byte.toNat
          :: decodeLossy rest
      else
        match PartialScalar.start? byte.toNat with
        | some next => replacement :: decodeAfter next rest
        | none => replacement :: replacement :: decodeLossy rest

end

end Text

end Marginalia
