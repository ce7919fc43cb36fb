import Marginalia.Proofs.Positions
import Marginalia.Proofs.Shape.Notation

/-
  The errors of types lie in the text that is read.

  Main statements:
    * `Shape.scan_stays`
    * `Shape.ofText_pointsInto`
-/

namespace Marginalia

open ReadError (Pinpoints)

variable {text : List Char}

namespace Shape

------------------------------------------------------------
-- Parts of the Notation
------------------------------------------------------------

theorem expect_stays
    (c : Char) :
    Stays id Pinpoints text (expect c) := by
  apply Stays.skipBlanks.bind
  intro _
  apply (Stays.eat c).bind
  intro eaten
  exact .ite (.pure _) (.unexpectedNext _)

theorem skipMutable_stays :
    Stays id Pinpoints text skipMutable := by
  apply Stays.get.bind
  intro cursor
  split
  · refine .ite ?_ (.pure _)
    exact Stays.skip.bind fun _ =>
      Stays.skip.bind fun _ => .skip
  · exact .pure _

section Inner

variable {depth : Nat}

theorem scanNamed_stays
    (hInner : Stays id Pinpoints text (scan depth))
    (name : String) :
    Stays id Pinpoints text (scanNamed depth name) := by
  have hAngled :
      ∀ change : Shape → Shape,
        Stays id Pinpoints text (do
          expect '<'
          let inner ← scan depth
          expect '>'
          return change inner) :=
    fun _ =>
      (expect_stays '<').bind fun _ =>
        hInner.bind fun _ =>
          (expect_stays '>').bind fun _ => .pure _
  have hMap :
      Stays id Pinpoints text (do
        expect '<'
        let key ← scan depth
        expect ','
        let value ← scan depth
        expect '>'
        return map key value) :=
    (expect_stays '<').bind fun _ =>
      hInner.bind fun _ =>
        (expect_stays ',').bind fun _ =>
          hInner.bind fun _ =>
            (expect_stays '>').bind fun _ => .pure _
  unfold scanNamed
  split
  · exact .unexpectedNext _
  · exact hAngled slice
  · exact hAngled pointer
  · exact hMap
  · exact hMap
  · exact hMap
  · exact (expect_stays '[').bind fun _ =>
      hInner.bind fun _ =>
        (expect_stays ']').bind fun _ =>
          hInner.bind fun _ => .pure _
  · exact .pure _

theorem scanAt_stays
    (hInner : Stays id Pinpoints text (scan depth))
    (next : Option Char) :
    Stays id Pinpoints text (scanAt depth next) := by
  have hPointer :
      Stays id Pinpoints text (do
        Scan.skip
        skipMutable
        return pointer (← scan depth)) :=
    Stays.skip.bind fun _ =>
      skipMutable_stays.bind fun _ =>
        hInner.bind fun _ => .pure _
  unfold scanAt
  split
  · exact hPointer
  · exact hPointer
  · apply Stays.skip.bind
    intro _
    apply (Stays.eat ']').bind
    intro closed
    refine .ite ?_ ?_
    · exact hInner.bind fun _ => .pure _
    · exact hInner.bind fun _ =>
        (expect_stays ']').bind fun _ => .pure _
  · exact (Stays.takeWhile _).bind fun _ =>
      scanNamed_stays hInner _

end Inner

------------------------------------------------------------
-- Types
------------------------------------------------------------

theorem scan_stays
    (depth : Nat) :
    Stays id Pinpoints text (scan depth) := by
  induction depth with
  | zero => exact .throw nofun
  | succ depth ih =>
      rw [scan_succ]
      apply Stays.skipBlanks.bind
      intro _
      exact Stays.peek.bind fun next =>
        scanAt_stays ih next

theorem toEnd_stays
    {α : Type}
    {action : Scan α}
    {atRest : Scan Unit}
    (hAction : Stays id Pinpoints text action)
    (hRest : Stays id Pinpoints text atRest) :
    Stays id Pinpoints text (Scan.toEnd action atRest) := by
  apply hAction.bind
  intro result
  apply Stays.skipBlanks.bind
  intro _
  apply Stays.get.bind
  intro cursor
  refine .ite (.pure result) ?_
  exact hRest.bind fun _ => .pure result

/- Whatever is wrong with a type, it is wrong in its text. -/
theorem ofText_pointsInto
    {source : String}
    {error : ReadError}
    (hError : ofText source = .error error) :
    error.PointsInto source.toList := by
  have hScan :
      Stays id Pinpoints source.toList
        (Scan.toEnd (scan (source.length + 1))
          (Scan.unexpectedNext .endOfType)) :=
    toEnd_stays (scan_stays _) (.unexpectedNext _)
  have hEnds := hScan (Cursor.ofText source) rfl
  unfold StaysFrom Scan.toEnd at hEnds
  unfold ofText Scan.whole at hError
  simp only [EStateM.run] at hError
  split at hError
  · cases hError
  · rename_i hRun
    rw [hRun] at hEnds
    cases hError
    exact hEnds.pointsInto

end Shape

end Marginalia
