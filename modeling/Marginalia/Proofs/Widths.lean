import Marginalia.Proofs.Bounds

/-
  The check of widths finds the first integer that is too wide
  for the leaf of the shape at which it stands.

  Key definitions include:
    * `Shape.integers`
    * `Shape.Covers`
    * `Shape.Passes`

  Main statements:
    * `Shape.admits_iff_passes`
    * `Shape.checkBounds_eq_refuse`
    * `Shape.checkBounds_exact`
-/

namespace Marginalia

namespace Shape

------------------------------------------------------------
-- Integers and Their Leaves
------------------------------------------------------------

/-
  The integers in a value in the order in which they stand
  there, each with the leaf of the shape that is meant for it.
  What stands at a leaf of another kind is not looked into.
-/
def integers : Shape → Value → List (Shape × Int)
  | pointer inner, value => inner.integers value
  | slice item, .slice items =>
      items.flatMap fun value => item.integers value
  | map _ item, .map entries =>
      entries.flatMap fun entry => item.integers entry.2
  | leaf, value =>
      value.integer?.toList.map fun n => (leaf, n)

/-
  The integer is one of those that the leaf stands for. A
  width of no bits stands for none, not even for zero.
-/
def Covers
    (leaf : Shape)
    (n : Int) : Prop :=
  leaf.Holds n ∧ leaf ≠ unsigned 0

/-
  The integer passes the check. It has to be covered, and
  nothing passes at an unsigned width of 63 bits, where the
  limit wraps around.
-/
def Passes
    (leaf : Shape)
    (n : Int) : Prop :=
  leaf.Covers n ∧ leaf ≠ unsigned 63

instance decidableHolds :
    (leaf : Shape) →
      (n : Int) →
        Decidable (leaf.Holds n)
  | signed bits, n =>
      inferInstanceAs
        (Decidable
          (0 < bits ∧
            -2 ^ (bits - 1) ≤ n ∧ n ≤ 2 ^ (bits - 1) - 1))
  | unsigned bits, n =>
      inferInstanceAs
        (Decidable (0 ≤ n ∧ n ≤ 2 ^ bits - 1))
  | bool, _ | float _, _ | char, _ | string, _ | any, _
  | slice _, _ | map _ _, _ | pointer _, _ | struct _, _
  | function, _ | channel, _ => isTrue trivial

instance decidableCovers
    (leaf : Shape)
    (n : Int) :
    Decidable (leaf.Covers n) :=
  inferInstanceAs
    (Decidable (leaf.Holds n ∧ leaf ≠ unsigned 0))

instance decidablePasses
    (leaf : Shape)
    (n : Int) :
    Decidable (leaf.Passes n) :=
  inferInstanceAs
    (Decidable (leaf.Covers n ∧ leaf ≠ unsigned 63))

------------------------------------------------------------
-- Widths
------------------------------------------------------------

/- Below 63 bits, the limit of a width is a power of two. -/
theorem limit_eq_two_pow :
    ∀ bits < 63,
      ((1 : Int64) <<< Int64.ofNat bits).toInt =
        2 ^ bits := by
  decide +kernel

/- At 63 bits it is the least of all signed words. -/
theorem limit_wraps :
    ((1 : Int64) <<< Int64.ofNat 63).toInt = -2 ^ 63 := by
  decide

/- No signed word is below that limit. -/
theorem not_admits_63
    (value : Int64) :
    ¬ (unsigned 63).admits (.int value) = true := by
  have hLimit := limit_wraps
  rw [admits_unsigned_iff]
  omega

/-
  An unsigned integer that the width holds is admitted, unless
  the limit wraps around.
-/
theorem admits_of_passes_unsigned
    {bits : Nat}
    {value : Value}
    {n : Int}
    (hInteger : value.integer? = some n)
    (hFits : Value.Fits (.plain .unsigned) value)
    (hPasses : (unsigned bits).Passes n) :
    (unsigned bits).admits value = true := by
  rcases hPasses with
    ⟨⟨⟨hLow, hHigh⟩, hPositive⟩, hLimit⟩
  have hPositive : bits ≠ 0 := by
    rintro rfl
    exact hPositive rfl
  have hLimit : bits ≠ 63 := by
    rintro rfl
    exact hLimit rfl
  cases hFits with
  | @unsigned value hNonneg =>
      cases hInteger
      rw [admits_unsigned_iff]
      by_cases hWide : 64 ≤ bits
      · omega
      · have hPow := limit_eq_two_pow bits (by omega)
        omega
  | @unsignedBeyond value hBeyond =>
      cases hInteger
      rw [admits_unsigned_uint_iff]
      by_contra hNarrow
      have hPow : (2 : Int) ^ bits ≤ 2 ^ 62 :=
        two_pow_le (by omega)
      have hMax : Int64.maxValue.toInt = 2 ^ 63 - 1 := by
        decide
      omega

/-
  An integer is admitted by the leaf at which it stands if and
  only if it passes. Only signs that the grammar excludes need
  not be excluded by the width.
-/
theorem admits_iff_passes
    {leaf : Shape}
    {descriptor : Descriptor}
    {value : Value}
    {n : Int}
    (hLeaf : Descriptor.ofPointee? leaf = some descriptor)
    (hFits : Value.Fits descriptor value)
    (hInteger : value.integer? = some n) :
    leaf.admits value = true ↔ leaf.Passes n := by
  cases leaf with
  | signed bits =>
      cases hLeaf
      cases hFits with
      | signed value =>
          cases hInteger
          constructor
          · intro hAdmits
            exact ⟨⟨holds_signed rfl hAdmits, nofun⟩, nofun⟩
          · intro hPasses
            exact (admits_signed_iff value).mpr hPasses.1.1
  | unsigned bits =>
      cases hLeaf
      constructor
      · intro hAdmits
        refine ⟨⟨holds_unsigned hInteger hFits hAdmits, ?_⟩,
          ?_⟩
        · rintro ⟨⟩
          cases value <;> cases hInteger <;> cases hAdmits
        · rintro ⟨⟩
          cases hFits with
          | unsigned _ => exact not_admits_63 _ hAdmits
          | unsignedBeyond _ => cases hAdmits
      · exact admits_of_passes_unsigned hInteger hFits
  | _ => simp [admits, Passes, Covers, Holds]

------------------------------------------------------------
-- The First Integer that is Refused
------------------------------------------------------------

/- What is said of the first integer that does not pass. -/
def refuse
    (position : Nat) :
    Option (Shape × Int) → Except ReadError Unit
  | none => .ok ()
  | some (leaf, n) =>
      .error (.overflow n.repr (.shape leaf) position)

/- The first integer that does not pass, if there is one. -/
def refused?
    (shape : Shape)
    (value : Value) : Option (Shape × Int) :=
  (shape.integers value).find? fun place =>
    !decide (place.1.Passes place.2)

/- A check that goes through parts stops at the first one. -/
theorem forM_eq_refuse
    {α : Type}
    {check : α → Except ReadError Unit}
    {first? : α → Option (Shape × Int)}
    {position : Nat}
    {parts : List α}
    (hParts :
      ∀ part ∈ parts,
        check part = refuse position (first? part)) :
    parts.forM check =
      refuse position (parts.findSome? first?) := by
  induction parts with
  | nil => rfl
  | cons part parts ih =>
      have hRun :
          (part :: parts).forM check = (do
            check part
            parts.forM check) :=
        rfl
      rcases List.forall_mem_cons.mp hParts with
        ⟨hPart, hLater⟩
      rw [hRun, hPart, ih hLater, List.findSome?_cons]
      cases first? part with
      | none => rfl
      | some place => rfl

/- Integers are written in decimal. -/
theorem text_of_integer
    {value : Value}
    {n : Int}
    (hInteger : value.integer? = some n) :
    value.text = n.repr := by
  cases value with
  | int value =>
      cases hInteger
      simp [Value.text]
  | uint value =>
      cases hInteger
      simp [Value.text]
      rfl
  | _ => cases hInteger

/- What is no integer is admitted everywhere. -/
theorem admits_of_no_integer
    (leaf : Shape)
    {value : Value}
    (hInteger : value.integer? = none) :
    leaf.admits value = true := by
  cases value with
  | int _ | uint _ => cases hInteger
  | _ => cases leaf <;> simp [admits]

/- The check of a leaf is one of at most one integer. -/
theorem checkLeaf_eq_refuse
    {leaf : Shape}
    {descriptor : Descriptor}
    {value : Value}
    (hLeaf : Descriptor.ofPointee? leaf = some descriptor)
    (hFits : Value.Fits descriptor value)
    (position : Nat) :
    (if leaf.admits value then
        .ok ()
      else
        .error (.overflow value.text (.shape leaf) position)) =
      refuse position
        ((value.integer?.toList.map fun n =>
          (leaf, n)).find? fun place =>
            !decide (place.1.Passes place.2)) := by
  cases hInteger : value.integer? with
  | none =>
      rw [if_pos (admits_of_no_integer leaf hInteger)]
      rfl
  | some n =>
      have hAdmits := admits_iff_passes hLeaf hFits hInteger
      by_cases hPasses : leaf.Passes n
      · rw [if_pos (hAdmits.mpr hPasses)]
        simp [hPasses, refuse]
      · rw [if_neg (mt hAdmits.mp hPasses)]
        simp [hPasses, refuse, text_of_integer hInteger]

/-
  The check of a value is one of the integers in it. The
  induction is on the recursion of the check; the descriptor
  is taken apart along, since it tells how values fit.
-/
theorem checkBounds_eq_refuse
    {shape : Shape}
    {descriptor : Descriptor}
    {value : Value}
    (hShape :
      Descriptor.ofPointee? shape.unwrapPointer =
        some descriptor)
    (hFits : Value.Fits descriptor value)
    (position : Nat) :
    shape.checkBounds value position =
      refuse position (shape.refused? value) := by
  unfold refused?
  fun_induction checkBounds shape value position
    generalizing descriptor with
  | case1 inner value position ih =>
      exact ih (ofPointee_inner hShape) hFits
  | case2 item items position ih =>
      rcases fits_items hShape hFits with
        ⟨inner, hInner, hItems⟩
      rw [integers, List.find?_flatMap]
      apply forM_eq_refuse
      intro value hMember
      exact ih value hInner (hItems value hMember)
  | case3 key item entries position ih =>
      rcases fits_entries hShape hFits with
        ⟨inner, hInner, hEntries⟩
      rw [integers, List.find?_flatMap]
      apply forM_eq_refuse
      intro entry hMember
      exact ih entry hInner (hEntries entry hMember)
  | case4 shape value position hPointer hSlice hMap hAdmits
  | case5 shape value position hPointer hSlice hMap hAdmits =>
      have hLeaf : shape.unwrapPointer = shape := by
        cases shape with
        | pointer inner => exact absurd rfl (hPointer inner)
        | _ => rfl
      rw [hLeaf] at hShape
      have hCheck :=
        checkLeaf_eq_refuse hShape hFits position
      rw [integers, ← hCheck]
      · simp [hAdmits]
      · exact hPointer
      · exact hSlice
      · exact hMap

/- The integer does not pass, and all before it do. -/
def FirstRefused
    (shape : Shape)
    (value : Value)
    (leaf : Shape)
    (n : Int) : Prop :=
  ∃ before after,
    shape.integers value = before ++ (leaf, n) :: after ∧
      (∀ place ∈ before, place.1.Passes place.2) ∧
        ¬ leaf.Passes n

theorem refused?_eq_some_iff
    {shape leaf : Shape}
    {value : Value}
    {n : Int} :
    shape.refused? value = some (leaf, n) ↔
      shape.FirstRefused value leaf n := by
  unfold refused? FirstRefused
  rw [List.find?_eq_some_iff_append]
  simp only [Bool.not_eq_true', decide_eq_false_iff_not,
    Bool.not_not, decide_eq_true_eq]
  constructor
  · rintro ⟨hRefused, before, after, hSplit, hBefore⟩
    exact ⟨before, after, hSplit, hBefore, hRefused⟩
  · rintro ⟨before, after, hSplit, hBefore, hRefused⟩
    exact ⟨hRefused, before, after, hSplit, hBefore⟩

theorem refused?_eq_none_iff
    {shape : Shape}
    {value : Value} :
    shape.refused? value = none ↔
      ∀ place ∈ shape.integers value,
        place.1.Passes place.2 := by
  unfold refused?
  simp

/-
  The check passes if and only if every integer does. If it
  fails, the error is about the first one that does not, with
  the leaf at which it stands.
-/
theorem checkBounds_exact
    {shape : Shape}
    {descriptor : Descriptor}
    {value : Value}
    (hShape : Descriptor.ofShape shape = .ok descriptor)
    (hFits : Value.Fits descriptor value)
    (position : Nat) :
    (shape.checkBounds value position = .ok () ↔
      ∀ place ∈ shape.integers value,
        place.1.Passes place.2) ∧
      ∀ error,
        shape.checkBounds value position = .error error ↔
          ∃ leaf n,
            shape.FirstRefused value leaf n ∧
              error =
                .overflow n.repr (.shape leaf) position := by
  have hPointee := Descriptor.ofPointee_of_ofShape hShape
  rw [checkBounds_eq_refuse hPointee hFits position,
    ← refused?_eq_none_iff]
  simp only [← refused?_eq_some_iff]
  cases shape.refused? value with
  | none => simp [refuse]
  | some place =>
      rcases place with ⟨leaf, n⟩
      simp [refuse, eq_comm]

/-
  Unsigned integers of 4 bits in a map behind a pointer: the
  first entry passes, the second one does not, and the third
  one is not looked at.
-/
theorem checkBounds_exact_second_entry :
    let shape :=
      Shape.pointer (.map .string (.slice (.unsigned 4)))
    let descriptor :=
      Descriptor.nested .map (.nested .slice (.plain .unsigned))
    let value :=
      Value.map
        [("a", .slice [.int 15, .int 0]),
          ("b", .slice [.int 16]),
          ("c", .slice [.int 17])]
    Descriptor.ofShape shape = .ok descriptor ∧
      value.Fits descriptor ∧
        shape.checkBounds value 7 =
          .error
            (.overflow "16" (.shape (.unsigned 4)) 7) := by
  intro shape descriptor value
  have hShape : Descriptor.ofShape shape = .ok descriptor :=
    rfl
  have hItems :
      ∀ items : List Int64,
        items.all (0 ≤ ·.toInt) = true →
          Value.Fits (.nested .slice (.plain .unsigned))
            (.slice (items.map .int)) := by
    intro items hItems
    refine .slice fun item hItem => ?_
    rcases List.mem_map.mp hItem with ⟨word, hWord, rfl⟩
    have hWord := List.all_eq_true.mp hItems word hWord
    exact .unsigned (of_decide_eq_true hWord)
  have hFits : value.Fits descriptor := by
    refine .map (by decide) ?_
    simp only [List.forall_mem_cons, List.not_mem_nil,
      false_implies, implies_true, and_true]
    exact ⟨hItems [15, 0] rfl, hItems [16] rfl,
      hItems [17] rfl⟩
  have hFirst :
      shape.FirstRefused value (.unsigned 4) 16 :=
    ⟨[(.unsigned 4, 15), (.unsigned 4, 0)],
      [(.unsigned 4, 17)], rfl, by decide, by decide⟩
  exact ⟨hShape, hFits,
    ((checkBounds_exact hShape hFits 7).2 _).mpr
      ⟨.unsigned 4, 16, hFirst, rfl⟩⟩

/-
  At an unsigned width of 63 bits, an integer that is covered
  is nevertheless refused.
-/
theorem checkBounds_unsigned_63 :
    Descriptor.ofShape (.unsigned 63) =
        .ok (.plain .unsigned) ∧
      Value.Fits (.plain .unsigned) (.int 5) ∧
        (∀ place ∈ (unsigned 63).integers (.int 5),
          place.1.Covers place.2) ∧
          (unsigned 63).checkBounds (.int 5) 0 =
            .error
              (.overflow "5" (.shape (.unsigned 63)) 0) := by
  refine ⟨rfl, .unsigned (by decide), by decide, ?_⟩
  decide

end Shape

end Marginalia
