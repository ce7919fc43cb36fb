import Marginalia.Descriptor.Classification
import Marginalia.Entries
import Marginalia.Value

/-
  Which values fit a descriptor, and which descriptors belong
  to shapes.

  Key definitions include:
    * `Descriptor.WellFormed`
    * `Descriptor.core`
    * `Descriptor.RawFree`
    * `Value.Inferable`
    * `Value.Fits`

  Main statement:
    * `Descriptor.wellFormed_of_ofShape`
-/

namespace Marginalia

------------------------------------------------------------
-- Descriptors of Shapes
------------------------------------------------------------

namespace Descriptor

/-
  Groups have a descriptor of their items, other kinds have
  none, and every kind has a grammar.
-/
def WellFormed : Descriptor → Prop
  | plain kind =>
      kind ≠ .invalid ∧ kind ≠ .slice ∧ kind ≠ .map
  | nested .slice item => item.WellFormed
  | nested .map item => item.WellFormed
  | nested _ _ => False

/- No part of the descriptor asks for raw text. -/
def RawFree : Descriptor → Prop
  | plain kind => kind ≠ .raw
  | nested kind item => kind ≠ .raw ∧ item.RawFree

instance decidableWellFormed :
    (descriptor : Descriptor) →
      Decidable descriptor.WellFormed
  | plain kind => by
      unfold WellFormed
      infer_instance
  | nested kind item => by
      have := decidableWellFormed item
      cases kind <;> unfold WellFormed <;> infer_instance

instance decidableRawFree :
    (descriptor : Descriptor) →
      Decidable descriptor.RawFree
  | plain kind => by
      unfold RawFree
      infer_instance
  | nested kind item => by
      have := decidableRawFree item
      unfold RawFree
      infer_instance

/-
  What the grammars see of a descriptor: only groups have
  items.
-/
def core : Descriptor → Descriptor
  | nested .slice item => nested .slice item.core
  | nested .map item => nested .map item.core
  | descriptor => plain descriptor.kind

theorem core_of_wellFormed
    {descriptor : Descriptor}
    (hDescriptor : descriptor.WellFormed) :
    descriptor.core = descriptor := by
  induction descriptor with
  | plain kind => rfl
  | nested kind item ih =>
      cases kind with
      | slice => exact congrArg _ (ih hDescriptor)
      | map => exact congrArg _ (ih hDescriptor)
      | _ => exact hDescriptor.elim

/- The descriptor of a shape that is not behind a pointer. -/
theorem wellFormed_of_ofPointee
    (shape : Shape) :
    ∀ descriptor,
      ofPointee? shape = some descriptor →
        descriptor.WellFormed := by
  fun_induction ofPointee? shape with
  | case7 item ih | case8 item _ _ ih | case9 item ih
  | case10 item _ ih =>
      intro descriptor hShape
      rcases Option.map_eq_some_iff.mp hShape with
        ⟨inner, hInner, rfl⟩
      exact ih inner hInner
  | case11 =>
      intro descriptor hShape
      cases hShape
  | _ =>
      intro descriptor hShape
      cases hShape
      exact ⟨by decide, by decide, by decide⟩

/- A shape may itself be behind one pointer. -/
theorem ofPointee_of_ofShape
    {shape : Shape}
    {descriptor : Descriptor}
    (hShape : ofShape shape = .ok descriptor) :
    ofPointee? shape.unwrapPointer = some descriptor := by
  unfold ofShape at hShape
  split at hShape
  · rename_i hPointee
    cases hShape
    exact hPointee
  · cases hShape

/- The descriptors of shapes are well formed. -/
theorem wellFormed_of_ofShape
    {shape : Shape}
    {descriptor : Descriptor}
    (hShape : ofShape shape = .ok descriptor) :
    descriptor.WellFormed :=
  wellFormed_of_ofPointee _ _ (ofPointee_of_ofShape hShape)

end Descriptor

------------------------------------------------------------
-- Values that Fit
------------------------------------------------------------

namespace Value

/-
  The values that are found out from texts: `null` is none of
  them, integers have a sign, and maps have entries.
-/
inductive Inferable : Value → Prop
  | bool (value : Bool) : Inferable (.bool value)
  | int (value : Int64) : Inferable (.int value)
  | string (value : String) : Inferable (.string value)
  | slice
      {items : List Value}
      (hItems : ∀ item ∈ items, Inferable item) :
      Inferable (.slice items)
  | map
      {entries : List (String × Value)}
      (hAscending : AscendingKeys entries)
      (hNonempty : entries ≠ [])
      (hEntries : ∀ entry ∈ entries, Inferable entry.2) :
      Inferable (.map entries)

/-
  A value fits a descriptor if it is one of those that the
  grammar denotes, at every level.
-/
inductive Fits : Descriptor → Value → Prop
  | bool (value : Bool) : Fits (.plain .bool) (.bool value)
  | signed (value : Int64) :
      Fits (.plain .signed) (.int value)
  | unsigned
      {value : Int64}
      (hValue : 0 ≤ value.toInt) :
      Fits (.plain .unsigned) (.int value)
  | unsignedBeyond
      {value : UInt64}
      (hValue : Int64.maxValue.toInt < value.toNat) :
      Fits (.plain .unsigned) (.uint value)
  | string (value : String) :
      Fits (.plain .string) (.string value)
  | raw (value : String) : Fits (.plain .raw) (.string value)
  | any
      {value : Value}
      (hValue : value.Inferable) :
      Fits (.plain .any) value
  | slice
      {item : Descriptor}
      {items : List Value}
      (hItems : ∀ value ∈ items, Fits item value) :
      Fits (.nested .slice item) (.slice items)
  | map
      {item : Descriptor}
      {entries : List (String × Value)}
      (hAscending : AscendingKeys entries)
      (hEntries : ∀ entry ∈ entries, Fits item entry.2) :
      Fits (.nested .map item) (.map entries)

theorem Inferable.ne_null
    {value : Value}
    (hValue : value.Inferable) :
    value ≠ .null := by
  rintro rfl
  cases hValue

theorem Fits.ne_null
    {descriptor : Descriptor}
    {value : Value}
    (hValue : Fits descriptor value) :
    value ≠ .null := by
  rintro rfl
  cases hValue with
  | any hValue => exact hValue.ne_null rfl

end Value

end Marginalia
