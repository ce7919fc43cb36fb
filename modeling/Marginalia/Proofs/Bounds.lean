import Marginalia.Proofs.Embedding
import Marginalia.Proofs.Literal.Fitting

/-
  Integers that pass the check of widths lie in the ranges
  that the widths stand for, through pointers, items and
  entries.

  Key definitions include:
    * `Shape.Sits`
    * `Shape.Holds`
    * `Shape.Ranged`

  Main statement:
    * `Shape.ranged_of_checkBounds`
-/

namespace Marginalia

namespace Shape

------------------------------------------------------------
-- Ranges
------------------------------------------------------------

/-
  The integer sits in the value at a place of the given
  inner shape.
-/
inductive Sits
    (leaf : Shape)
    (n : Int) : Shape → Value → Prop
  | leaf
      {value : Value}
      (hInteger : value.integer? = some n) :
      Sits leaf n leaf value
  | pointer
      {inner : Shape}
      {value : Value}
      (hInner : Sits leaf n inner value) :
      Sits leaf n (.pointer inner) value
  | item
      {item : Shape}
      {items : List Value}
      {value : Value}
      (hMember : value ∈ items)
      (hItem : Sits leaf n item value) :
      Sits leaf n (.slice item) (.slice items)
  | entry
      {key item : Shape}
      {entries : List (String × Value)}
      {entry : String × Value}
      (hMember : entry ∈ entries)
      (hItem : Sits leaf n item entry.2) :
      Sits leaf n (.map key item) (.map entries)

/- The integer is one of those that the shape stands for. -/
def Holds : Shape → Int → Prop
  | signed bits, n =>
      0 < bits ∧
        -2 ^ (bits - 1) ≤ n ∧ n ≤ 2 ^ (bits - 1) - 1
  | unsigned bits, n => 0 ≤ n ∧ n ≤ 2 ^ bits - 1
  | _, _ => True

/- All integers in the value are in range where they sit. -/
def Ranged
    (shape : Shape)
    (value : Value) : Prop :=
  ∀ leaf n, Sits leaf n shape value → leaf.Holds n

------------------------------------------------------------
-- Widths
------------------------------------------------------------

theorem holds_signed
    {bits : Nat}
    {value : Value}
    {n : Int}
    (hInteger : value.integer? = some n)
    (hAdmits : (signed bits).admits value = true) :
    (signed bits).Holds n := by
  cases value with
  | int value =>
      cases hInteger
      exact (admits_signed_iff value).mp hAdmits
  | uint value =>
      exact absurd hAdmits (not_admits_signed bits value)
  | _ => cases hInteger

/- The limit of a width is at most the power of two. -/
theorem limit_le :
    ∀ bits < 64,
      ((1 : Int64) <<< Int64.ofNat bits).toInt ≤
        2 ^ bits := by
  decide +kernel

/- A sign is excluded by the grammar, not by the width. -/
theorem holds_unsigned
    {bits : Nat}
    {value : Value}
    {n : Int}
    (hInteger : value.integer? = some n)
    (hFits : Value.Fits (.plain .unsigned) value)
    (hAdmits : (unsigned bits).admits value = true) :
    (unsigned bits).Holds n := by
  cases hFits with
  | @unsigned value hNonneg =>
      cases hInteger
      have hHigh := value.toInt_lt
      have hLess := ((admits_unsigned_iff value).mp hAdmits).2
      refine ⟨hNonneg, ?_⟩
      by_cases hWide : 64 ≤ bits
      · have hPow : (2 : Int) ^ 63 ≤ 2 ^ bits :=
          two_pow_le (by omega)
        omega
      · have hLimit := limit_le bits (by omega)
        omega
  | @unsignedBeyond value _ =>
      cases hInteger
      have hHigh := value.toNat_lt
      have hWide := (admits_unsigned_uint_iff value).mp hAdmits
      have hPow : (2 : Int) ^ 64 ≤ 2 ^ bits :=
        two_pow_le hWide
      constructor
      · omega
      · omega

------------------------------------------------------------
-- Values
------------------------------------------------------------

/- What has a descriptor is not behind a second pointer. -/
theorem unwrapPointer_of_ofPointee
    {shape : Shape}
    {descriptor : Descriptor}
    (hShape :
      Descriptor.ofPointee? shape = some descriptor) :
    shape.unwrapPointer = shape := by
  cases shape with
  | pointer inner => simp [Descriptor.ofPointee?] at hShape
  | _ => rfl

theorem admits_of_checkBounds
    {shape : Shape}
    {value : Value}
    {position : Nat}
    {n : Int}
    (hInteger : value.integer? = some n)
    (hPointer : ∀ inner, shape ≠ .pointer inner)
    (hBounds : shape.checkBounds value position = .ok ()) :
    shape.admits value = true := by
  rw [checkBounds] at hBounds
  · by_cases hAdmits : shape.admits value = true
    · exact hAdmits
    · rw [if_neg hAdmits] at hBounds
      cases hBounds
  · exact fun inner => hPointer inner
  · rintro _ items _ rfl
    cases hInteger
  · rintro _ _ entries _ rfl
    cases hInteger

/- Behind a pointer there is no second one. -/
theorem ofPointee_inner
    {inner : Shape}
    {descriptor : Descriptor}
    (hShape :
      Descriptor.ofPointee? (pointer inner).unwrapPointer =
        some descriptor) :
    Descriptor.ofPointee? inner.unwrapPointer =
      some descriptor := by
  have hInner :
      Descriptor.ofPointee? inner = some descriptor :=
    hShape
  rw [unwrapPointer_of_ofPointee hInner]
  exact hInner

/-
  The items of a slice fit the descriptor of their shape.
  Bytes are not among them, since they are read as a text.
-/
theorem fits_items
    {item : Shape}
    {descriptor : Descriptor}
    {items : List Value}
    (hShape :
      Descriptor.ofPointee? (.slice item) = some descriptor)
    (hFits : Value.Fits descriptor (.slice items)) :
    ∃ inner,
      Descriptor.ofPointee? item.unwrapPointer =
          some inner ∧
        ∀ value ∈ items, Value.Fits inner value := by
  by_cases hBytes : item = .unsigned 8
  · subst hBytes
    cases hShape
    cases hFits
  · rw [Target.ofPointee_slice hBytes] at hShape
    rcases Option.map_eq_some_iff.mp hShape with
      ⟨inner, hInner, rfl⟩
    cases hFits with
    | slice hItems => exact ⟨inner, hInner, hItems⟩

/- The keys of a map are strings, and its entries fit. -/
theorem fits_entries
    {key item : Shape}
    {descriptor : Descriptor}
    {entries : List (String × Value)}
    (hShape :
      Descriptor.ofPointee? (.map key item) =
        some descriptor)
    (hFits : Value.Fits descriptor (.map entries)) :
    ∃ inner,
      Descriptor.ofPointee? item.unwrapPointer =
          some inner ∧
        ∀ entry ∈ entries, Value.Fits inner entry.2 := by
  have hKey : key = .string := by
    cases key <;> simp_all [Descriptor.ofPointee?]
  subst hKey
  rw [Target.ofPointee_map] at hShape
  rcases Option.map_eq_some_iff.mp hShape with
    ⟨inner, hInner, rfl⟩
  cases hFits with
  | map _ hEntries => exact ⟨inner, hInner, hEntries⟩

/-
  A value that fits its descriptor and passes the check is in
  range. The induction is on where the integer sits; the
  check and the descriptor are taken apart along.
-/
theorem ranged_of_checkBounds
    {shape : Shape}
    {descriptor : Descriptor}
    {value : Value}
    {position : Nat}
    (hShape :
      Descriptor.ofPointee? shape.unwrapPointer =
        some descriptor)
    (hFits : Value.Fits descriptor value)
    (hBounds : shape.checkBounds value position = .ok ()) :
    shape.Ranged value := by
  intro leaf n hSits
  induction hSits generalizing descriptor with
  | @leaf value hInteger =>
      cases leaf with
      | signed bits =>
          exact holds_signed hInteger
            (admits_of_checkBounds hInteger nofun hBounds)
      | unsigned bits =>
          cases hShape
          exact holds_unsigned hInteger hFits
            (admits_of_checkBounds hInteger nofun hBounds)
      | _ => trivial
  | @pointer inner value hInner ih =>
      rw [checkBounds] at hBounds
      exact ih (ofPointee_inner hShape) hFits hBounds
  | @item item items value hMember hItem ih =>
      rcases fits_items hShape hFits with
        ⟨inner, hInner, hItems⟩
      exact ih hInner (hItems value hMember)
        (Target.checkBounds_slice_iff.mp hBounds value
          hMember)
  | @entry key item entries entry hMember hItem ih =>
      rcases fits_entries hShape hFits with
        ⟨inner, hInner, hEntries⟩
      rw [checkBounds] at hBounds
      exact ih hInner (hEntries entry hMember)
        (forM_eq_ok_iff.mp hBounds entry hMember)

end Shape

end Marginalia
