import Marginalia.Bounds
import Marginalia.Target
import Marginalia.Descriptor.Classification
import Marginalia.Proofs.Integers
import Marginalia.Proofs.Results

/-
  Contents of destinations as values: every content has a
  value, which is within the bounds of its type.

  Key definitions include:
    * `Target.embed`
    * `Target.HasMap`
    * `Target.Exceeds`
    * `Target.Describes`

  Main statements:
    * `Target.checkBounds_embed`
    * `Target.describes_of_ofShape`
-/

namespace Marginalia

------------------------------------------------------------
-- Embedding
------------------------------------------------------------

/- An integer as a value, with a sign where that fits. -/
def Value.ofInteger
    (n : Int) : Value :=
  if fitsSigned 64 n then
    .int (Int64.ofInt n)
  else
    .uint (UInt64.ofNat n.toNat)

namespace Target

/- The byte that a member of the type denotes. -/
def byteOf
    (member : IntType.u8.Member) : UInt8 :=
  UInt8.ofNat member.val.toNat

/-
  A list as a value: bytes are the text that they encode,
  other items are items of a slice.
-/
def embedList :
    (item : Target) → (item.Content → Value) →
      List item.Content → Value
  | int .u8, _, bytes =>
      .string (String.ofList (Text.decodeLossy
        (List.map byteOf bytes)))
  | _, embedItem, items => .slice (items.map embedItem)

/- The value with the same content. -/
def embed :
    (target : Target) → target.Content → Value
  | bool, (value : Bool) => .bool value
  | int _, (member : IntType.Member _) =>
      .ofInteger member.val
  | string, (value : String) => .string value
  | dynamic, (value : Value) => value
  | list item, items => embedList item item.embed items
  | map _ item, (entries : Entries item.Content) =>
      .map (entries.toList.map fun entry =>
        (entry.1, item.embed entry.2))
  | box inner, content => inner.embed content

/- Whether there are maps inside of the type. -/
def HasMap : Target → Prop
  | map _ _ => True
  | list item => item.HasMap
  | box inner => inner.HasMap
  | _ => False

instance decidableHasMap :
    (target : Target) → Decidable target.HasMap
  | bool | int _ | string | dynamic => by
      unfold HasMap
      infer_instance
  | map _ _ => by
      unfold HasMap
      infer_instance
  | list item => by
      have := decidableHasMap item
      unfold HasMap
      infer_instance
  | box inner => by
      have := decidableHasMap inner
      unfold HasMap
      infer_instance

/-
  A value may have integers that are too wide for the type:
  either the bounds tell, or there are maps, in which a wide
  integer may have been replaced.
-/
def Exceeds
    (target : Target)
    (value : Value) : Prop :=
  target.HasMap ∨
    ∀ position,
      target.shape.checkBounds value position ≠ .ok ()

------------------------------------------------------------
-- Bounds
------------------------------------------------------------

theorem toInt_ofNat_of_fits
    {n : Nat}
    (hFits : fitsSigned 64 n = true) :
    (Int64.ofNat n).toInt = n := by
  rw [← Int64.ofInt_eq_ofNat]
  exact toInt_ofInt_of_fits hFits

section Widths

variable {type : IntType}

theorem bits_cases
    (type : IntType) :
    type.bits = 64 ∨ 0 < type.bits ∧ type.bits < 63 := by
  cases type <;> decide

theorem shape_of_signed
    (hSigned : type.signed = true) :
    type.shape = .signed type.bits := by
  simp [IntType.shape, hSigned]

theorem shape_of_unsigned
    (hSigned : type.signed = false) :
    type.shape = .unsigned type.bits := by
  simp [IntType.shape, hSigned]

/-
  A signed integer is within the bounds of a signed type if
  it is a member of it.
-/
theorem admits_int_iff
    (hSigned : type.signed = true)
    (value : Int64) :
    type.shape.admits (.int value) = true ↔
      type.low ≤ value.toInt ∧ value.toInt ≤ type.high := by
  have hPositive : 0 < type.bits := by
    cases type <;> decide
  rw [shape_of_signed hSigned, Shape.admits_signed_iff]
  simp only [IntType.low, IntType.high, hSigned, if_true,
    twoPow_eq, hPositive, true_and]

/- The limit of an unsigned width is a power of two. -/
theorem limit_eq
    (hSigned : type.signed = false)
    (hBits : type.bits < 63) :
    ((1 : Int64) <<< Int64.ofNat type.bits).toInt =
      type.high + 1 := by
  cases type <;> cases hSigned
  · decide
  · decide
  · decide
  · exact absurd hBits (by decide)
  · exact absurd hBits (by decide)

theorem high_of_wide
    (hSigned : type.signed = false)
    (hBits : type.bits = 64) :
    type.high = 2 ^ 64 - 1 := by
  simp only [IntType.high, hSigned, hBits]
  decide

/-
  An unsigned integer is within the bounds of an unsigned
  type if it is a member of it.
-/
theorem admits_ofUnsigned_iff
    (hSigned : type.signed = false)
    (value : UInt64) :
    type.shape.admits (.ofUnsigned value) = true ↔
      (value.toNat : Int) ≤ type.high := by
  have hLess := value.toNat_lt
  rw [shape_of_unsigned hSigned]
  unfold Value.ofUnsigned
  rcases bits_cases type with hBits | ⟨hPositive, hBits⟩
  · rw [high_of_wide hSigned hBits, hBits]
    have hHigh : (value.toNat : Int) ≤ 2 ^ 64 - 1 := by
      omega
    split
    · exact iff_of_true rfl hHigh
    · exact iff_of_true rfl hHigh
  · have hLimit := limit_eq hSigned hBits
    split
    · rename_i hFits
      rw [Shape.admits_unsigned_iff,
        toInt_ofNat_of_fits hFits, hLimit]
      omega
    · rename_i hFits
      have hLimitLess :=
        ((1 : Int64) <<< Int64.ofNat type.bits).toInt_lt
      rw [fitsSigned_iff] at hFits
      rw [Shape.admits_unsigned_uint_iff]
      omega

/- Integers are checked against the width. -/
theorem checkBounds_int_iff
    (type : IntType)
    {value : Value}
    {position : Nat} :
    type.shape.checkBounds value position = .ok () ↔
      type.shape.admits value = true := by
  have hCheck :
      type.shape.checkBounds value position =
        if type.shape.admits value then
          .ok ()
        else
          .error (.overflow value.text (.shape type.shape)
            position) := by
    cases hSigned : type.signed with
    | true =>
        rw [shape_of_signed hSigned]
        simp only [Shape.checkBounds]
    | false =>
        rw [shape_of_unsigned hSigned]
        simp only [Shape.checkBounds]
  rw [hCheck]
  split
  · rename_i hAdmits
    exact iff_of_true rfl hAdmits
  · rename_i hAdmits
    exact iff_of_false nofun hAdmits

end Widths

/- Words of 64 bits keep the form that they have as values. -/
theorem ofInteger_toInt
    (value : Int64) :
    Value.ofInteger value.toInt = .int value := by
  unfold Value.ofInteger
  rw [if_pos (fitsSigned_toInt value), Int64.ofInt_toInt]

theorem ofInteger_toNat
    (value : UInt64) :
    Value.ofInteger value.toNat = .ofUnsigned value := by
  unfold Value.ofInteger Value.ofUnsigned
  simp [Int64.ofInt_eq_ofNat]

/- Members of a type have 64 bits. -/
theorem fits_of_member
    {type : IntType}
    {n : Int}
    (hMember : type.low ≤ n ∧ n ≤ type.high) :
    (type.signed = true → fitsSigned 64 n = true) ∧
      (type.signed = false → fitsUnsigned 64 n = true) := by
  have hRange :
      (type.signed = true →
        -2 ^ 63 ≤ type.low ∧ type.high < 2 ^ 63) ∧
        (type.signed = false →
          0 ≤ type.low ∧ type.high < 2 ^ 64) := by
    cases type <;> decide
  constructor
  · intro hSigned
    have hOwn := hRange.1 hSigned
    exact fitsSigned_iff.mpr ⟨by omega, by omega⟩
  · intro hSigned
    have hOwn := hRange.2 hSigned
    exact fitsUnsigned_iff.mpr ⟨by omega, by omega⟩

/- The members of a type are within its bounds. -/
theorem checkBounds_member
    {type : IntType}
    {n : Int}
    (hMember : type.low ≤ n ∧ n ≤ type.high)
    (position : Nat) :
    type.shape.checkBounds (.ofInteger n) position =
      .ok () := by
  have hFits := fits_of_member hMember
  rw [checkBounds_int_iff]
  cases hSigned : type.signed with
  | true =>
      have hInt := toInt_ofInt_of_fits (hFits.1 hSigned)
      rw [← hInt, ofInteger_toInt, admits_int_iff hSigned,
        hInt]
      exact hMember
  | false =>
      have hUnsigned := hFits.2 hSigned
      have hNonneg := (fitsUnsigned_iff.mp hUnsigned).1
      have hNat :
          ((UInt64.ofNat n.toNat).toNat : Int) = n := by
        rw [toNat_ofNat_of_fits]
        · omega
        · rw [Int.toNat_of_nonneg hNonneg]
          exact hUnsigned
      rw [← hNat, ofInteger_toNat,
        admits_ofUnsigned_iff hSigned, hNat]
      exact hMember.2

/- A slice is within bounds if its items are. -/
theorem checkBounds_slice_iff
    {shape : Shape}
    {items : List Value}
    {position : Nat} :
    (Shape.slice shape).checkBounds (.slice items)
        position = .ok () ↔
      ∀ item ∈ items,
        shape.checkBounds item position = .ok () := by
  simp only [Shape.checkBounds]
  exact forM_eq_ok_iff

/-
  A check that passes at every place, or fails at every place
  for the same reason.
-/
def Uniform
    (check : Nat → Except ReadError Unit) : Prop :=
  (∀ start, check start = .ok ()) ∨
    ∃ literal type, ∀ start,
      check start = .error (.overflow literal type start)

theorem Uniform.forM
    {α : Type}
    {check : α → Nat → Except ReadError Unit}
    {items : List α}
    (hItems : ∀ item ∈ items, Uniform (check item)) :
    Uniform fun start =>
      items.forM fun item => check item start := by
  induction items with
  | nil => exact Or.inl fun _ => rfl
  | cons item items ih =>
      have hRun :
          ∀ start,
            ((item :: items).forM fun own => check own start) =
              (do
                check item start
                items.forM fun own => check own start) :=
        fun _ => rfl
      simp only [hRun]
      rcases hItems item List.mem_cons_self with
        hPasses | ⟨literal, type, hFails⟩
      · simp only [hPasses]
        exact ih fun own hOwn =>
          hItems own (List.mem_cons_of_mem _ hOwn)
      · simp only [hFails]
        exact Or.inr ⟨literal, type, fun _ => rfl⟩

/- The place where a value is checked is only reported. -/
theorem checkBounds_uniform
    (shape : Shape)
    (value : Value) :
    Uniform (shape.checkBounds value) := by
  fun_induction Shape.checkBounds shape value 0 with
  | case1 value _ inner ih =>
      simpa only [Shape.checkBounds] using ih
  | case2 _ item items ih =>
      simpa only [Shape.checkBounds] using
        Uniform.forM fun own _ => ih own
  | case3 _ key item entries ih =>
      simpa only [Shape.checkBounds] using
        Uniform.forM fun own _ => ih own
  | case4 value _ shape hPointer hSlice hMap hAdmits =>
      left
      intro start
      rw [Shape.checkBounds, if_pos hAdmits]
      · exact hPointer
      · exact hSlice
      · exact hMap
  | case5 shape value _ hPointer hSlice hMap hAdmits =>
      right
      refine ⟨value.text, .shape shape, ?_⟩
      intro start
      rw [Shape.checkBounds, if_neg hAdmits]
      · exact hPointer
      · exact hSlice
      · exact hMap

/- It does not depend on the place whether a value fits. -/
theorem checkBounds_elsewhere
    {shape : Shape}
    {value : Value}
    {start : Nat}
    (hBounds : shape.checkBounds value start = .ok ())
    (start' : Nat) :
    shape.checkBounds value start' = .ok () := by
  rcases checkBounds_uniform shape value with
    hPasses | ⟨literal, type, hFails⟩
  · exact hPasses start'
  · rw [hFails start] at hBounds
    cases hBounds

/- A list is bytes, or it is a slice of the items. -/
theorem embedList_cases
    (item : Target)
    (embedItem : item.Content → Value)
    (items : List item.Content) :
    item = .int .u8 ∧
        (∃ text, embedList item embedItem items =
          .string text) ∨
      item ≠ .int .u8 ∧
        embedList item embedItem items =
          .slice (items.map embedItem) := by
  by_cases hBytes : item = .int .u8
  · subst hBytes
    exact Or.inl ⟨rfl, _, rfl⟩
  · refine Or.inr ⟨hBytes, ?_⟩
    unfold embedList
    split
    · exact absurd rfl hBytes
    · rfl

theorem checkBounds_embed
    (target : Target)
    (content : target.Content)
    (position : Nat) :
    target.shape.checkBounds (target.embed content)
      position = .ok () := by
  induction target with
  | bool => rfl
  | int type =>
      exact checkBounds_member content.property position
  | string => rfl
  | dynamic =>
      simp [shape, Shape.checkBounds, Shape.admits]
  | list item ih =>
      show (Shape.slice item.shape).checkBounds
        (embedList item item.embed content) position = .ok ()
      rcases embedList_cases item item.embed content with
        ⟨_, text, hText⟩ | ⟨_, hItems⟩
      · rw [hText]
        rfl
      · rw [hItems, checkBounds_slice_iff]
        intro value hValue
        rcases List.mem_map.mp hValue with ⟨own, _, rfl⟩
        exact ih own
  | map kind item ih =>
      show (Shape.map .string item.shape).checkBounds
        (.map _) position = .ok ()
      simp only [Shape.checkBounds]
      apply forM_eq_ok_iff.mpr
      intro entry hEntry
      rcases List.mem_map.mp hEntry with ⟨own, _, rfl⟩
      exact ih own.2
  | box inner ih => exact ih content

------------------------------------------------------------
-- Descriptors of Destinations
------------------------------------------------------------

/- The descriptor tells the grammar for the destination. -/
inductive Describes : Descriptor → Target → Prop
  | bool : Describes (.plain .bool) .bool
  | signed
      {type : IntType}
      (hSigned : type.signed = true) :
      Describes (.plain .signed) (.int type)
  | unsigned
      {type : IntType}
      (hSigned : type.signed = false) :
      Describes (.plain .unsigned) (.int type)
  | string : Describes (.plain .string) .string
  | any : Describes (.plain .any) .dynamic
  | raw : Describes (.plain .raw) (.list (.int .u8))
  | slice
      {descriptor : Descriptor}
      {item : Target}
      (hBytes : item ≠ .int .u8)
      (hItem : Describes descriptor item) :
      Describes (.nested .slice descriptor) (.list item)
  | map
      {descriptor : Descriptor}
      {item : Target}
      (kind : MapKind)
      (hItem : Describes descriptor item) :
      Describes (.nested .map descriptor) (.map kind item)
  | box
      {descriptor : Descriptor}
      {inner : Target}
      (hInner : Describes descriptor inner) :
      Describes descriptor (.box inner)

/- Items that are not bytes may be behind one pointer. -/
theorem ofPointee_slice
    {item : Shape}
    (hBytes : item ≠ .unsigned 8) :
    Descriptor.ofPointee? (.slice item) =
      (Descriptor.ofPointee? item.unwrapPointer).map
        (.nested .slice) := by
  unfold Shape.unwrapPointer
  cases item <;> simp_all [Descriptor.ofPointee?]

theorem ofPointee_map
    (item : Shape) :
    Descriptor.ofPointee? (.map .string item) =
      (Descriptor.ofPointee? item.unwrapPointer).map
        (.nested .map) := by
  unfold Shape.unwrapPointer
  cases item <;> simp [Descriptor.ofPointee?]

/- Only the shape of bytes is that of unsigned ones. -/
theorem shape_ne_unsigned
    {target : Target}
    (hBytes : target ≠ .int .u8) :
    target.shape ≠ .unsigned 8 := by
  cases target with
  | int type =>
      cases type <;> simp_all [shape, IntType.shape,
        IntType.signed, IntType.bits]
  | _ => simp [shape]

/- What is behind two pointers has no descriptor. -/
theorem unwrapPointer_shape
    {target : Target}
    {descriptor : Descriptor}
    (hShape :
      Descriptor.ofPointee? target.shape =
        some descriptor) :
    target.shape.unwrapPointer = target.shape := by
  cases target with
  | box inner => simp [shape, Descriptor.ofPointee?] at hShape
  | int type =>
      cases hSigned : type.signed with
      | true => rw [shape, shape_of_signed hSigned]; rfl
      | false => rw [shape, shape_of_unsigned hSigned]; rfl
  | _ => rfl

theorem describes_of_unwrapPointer
    {target : Target} :
    ∀ {descriptor : Descriptor},
      Descriptor.ofPointee? target.shape.unwrapPointer =
          some descriptor →
        Describes descriptor target := by
  induction target with
  | bool =>
      intro descriptor hShape
      cases hShape
      exact .bool
  | int type =>
      intro descriptor hShape
      cases hSigned : type.signed with
      | true =>
          rw [shape, shape_of_signed hSigned] at hShape
          cases hShape
          exact .signed hSigned
      | false =>
          rw [shape, shape_of_unsigned hSigned] at hShape
          cases hShape
          exact .unsigned hSigned
  | string =>
      intro descriptor hShape
      cases hShape
      exact .string
  | dynamic =>
      intro descriptor hShape
      cases hShape
      exact .any
  | list item ih =>
      intro descriptor hShape
      by_cases hBytes : item = .int .u8
      · subst hBytes
        cases hShape
        exact .raw
      · have hItem := ofPointee_slice
          (shape_ne_unsigned hBytes)
        have hList :
            Descriptor.ofPointee? (.slice item.shape) =
              some descriptor :=
          hShape
        rw [hItem] at hList
        rcases Option.map_eq_some_iff.mp hList with
          ⟨inner, hInner, rfl⟩
        exact .slice hBytes (ih hInner)
  | map kind item ih =>
      intro descriptor hShape
      have hMap :
          Descriptor.ofPointee? (.map .string item.shape) =
            some descriptor :=
        hShape
      rw [ofPointee_map] at hMap
      rcases Option.map_eq_some_iff.mp hMap with
        ⟨inner, hInner, rfl⟩
      exact .map kind (ih hInner)
  | box inner ih =>
      intro descriptor hShape
      have hInner :
          Descriptor.ofPointee? inner.shape =
            some descriptor :=
        hShape
      rw [← unwrapPointer_shape hInner] at hInner
      exact .box (ih hInner)

/- The descriptor of a type describes it. -/
theorem describes_of_ofShape
    {target : Target}
    {descriptor : Descriptor}
    (hShape :
      Descriptor.ofShape target.shape = .ok descriptor) :
    Describes descriptor target := by
  unfold Descriptor.ofShape at hShape
  split at hShape
  · rename_i hPointee
    cases hShape
    exact describes_of_unwrapPointer hPointee
  · cases hShape

end Target

end Marginalia
