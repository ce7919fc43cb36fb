import Marginalia.Proofs.Literal.Progress

/-
  The grammars with a look-ahead of choice, such as one that
  sees more text than there is.

  Key definitions include:
    * `Literal.seesColon`
    * `Literal.seesColonBefore`
    * `Literal.inferElementBy`
    * `Literal.elementBy`
    * `Descriptor.fillBy`

  Main statements:
    * `Literal.inferElementBy_seesColon`
    * `Descriptor.fillBy_seesColon`
-/

namespace Marginalia

namespace Literal

------------------------------------------------------------
-- Look-Aheads
------------------------------------------------------------

/- Whether the group that comes next is a map. -/
def seesColon : Scan Bool :=
  Scan.hasTopLevel ':'

/- The same for a text that goes on with a tail. -/
def seesColonBefore
    (tail : List Char) : Scan Bool := do
  return Cursor.probe ':' .plain 0 ((← get).ahead ++ tail)

------------------------------------------------------------
-- Grammars
------------------------------------------------------------

/- A group is what the look-ahead says. -/
def inferGroupBy
    (look : Scan Bool)
    (item : ItemReader) : Scan Value := do
  if ← look then
    Fill.collect (δ := Target.dynamic.Content) Value.null
      (fillMap item .dynamic)
  else
    Fill.collect (δ := Target.dynamic.Content) Value.null
      (fillSlice item .group .dynamic)

/- Read one element by the form of its text. -/
def inferElementBy
    (look : Scan Bool) : Nat → Scan Value
  | 0 => throw .exhausted
  | depth + 1 => do
      Scan.skipBlanks
      match ← Scan.peek with
      | some '{' =>
          inferGroupBy look fun frame target => do
            Scan.skipBlanks (σ := Cursor)
            fillAny (inferElementBy look depth) frame target
      | some '"' => return .string (← quoted)
      | some '`' => return .string (← backtick)
      | _ =>
          let start ← Scan.position
          let token ← bare Scan.delimiters
          inferToken token start

/- Read one element, however deeply its groups are nested. -/
def elementBy
    (look : Scan Bool) : Scan Value := do
  inferElementBy look (Reader.left (← get) + 1)

theorem inferElementBy_seesColon
    (depth : Nat) :
    inferElementBy seesColon depth = inferElement depth := by
  induction depth with
  | zero => rfl
  | succ depth ih =>
      rw [inferElement_succ]
      unfold inferElementBy anyItem
      rw [ih]
      rfl

theorem elementBy_seesColon :
    elementBy seesColon = element := by
  unfold elementBy element
  simp only [inferElementBy_seesColon]

end Literal

namespace Descriptor

open Literal

/- The grammar of kinds that have no items. -/
def fillFlatBy
    (look : Scan Bool)
    (descriptor : Descriptor)
    (frame : Frame)
    (target : Target) : Fill target.Content Unit :=
  if descriptor.kind = .any then
    fillAny (elementBy look) frame target
  else
    descriptor.fillFlat frame target

/- Read a literal with the given look-ahead. -/
def fillBy
    (look : Scan Bool) : Descriptor → ItemReader
  | nested .slice item, frame, target => do
      Scan.skipBlanks (σ := Cursor)
      fillSlice (item.fillBy look) frame target
  | nested .map item, _, target => do
      Scan.skipBlanks (σ := Cursor)
      fillMap (item.fillBy look) target
  | descriptor, frame, target => do
      Scan.skipBlanks (σ := Cursor)
      descriptor.fillFlatBy look frame target

theorem fillFlatBy_seesColon
    (descriptor : Descriptor)
    (frame : Frame)
    (target : Target) :
    descriptor.fillFlatBy seesColon frame target =
      descriptor.fillFlat frame target := by
  unfold fillFlatBy
  rw [elementBy_seesColon]
  by_cases hAny : descriptor.kind = .any
  · rw [if_pos hAny]
    unfold fillFlat
    rw [hAny]
  · rw [if_neg hAny]

theorem fillBy_eq
    (look : Scan Bool)
    (descriptor : Descriptor)
    (frame : Frame)
    (target : Target) :
    descriptor.fillBy look frame target = (do
      Scan.skipBlanks (σ := Cursor)
      match descriptor with
      | nested .slice item =>
          fillSlice (item.fillBy look) frame target
      | nested .map item =>
          fillMap (item.fillBy look) target
      | descriptor =>
          descriptor.fillFlatBy look frame target) := by
  cases descriptor with
  | plain kind => rfl
  | nested kind item => cases kind <;> rfl

theorem fillBy_seesColon
    (descriptor : Descriptor) :
    descriptor.fillBy seesColon = descriptor.fill := by
  induction descriptor with
  | plain kind =>
      funext frame target
      rw [fill_eq, fillBy_eq]
      simp only [fillFlatBy_seesColon]
  | nested kind item ih =>
      funext frame target
      rw [fill_eq, fillBy_eq]
      cases kind with
      | slice => simp only [ih]
      | map => simp only [ih]
      | _ => simp only [fillFlatBy_seesColon]

end Descriptor

end Marginalia
