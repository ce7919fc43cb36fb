import Marginalia.Proofs.OnlyTakes
import Marginalia.Proofs.Literal.RoundTrip
import Marginalia.Proofs.Literal.TypedReading

/-
  Texts that are one literal: what becomes of them if it is
  known what their grammar takes.

  Key definitions include:
    * `Descriptor.Reads`

  Main statements:
    * `Descriptor.read_of_takes`
    * `Descriptor.read_of_onlyTakes`
    * `Target.read_eq_ok_iff`
-/

namespace Marginalia

namespace Descriptor

variable {descriptor : Descriptor}
variable {target : Target}
variable {text : String}

/- A literal with nothing but blanks behind it is read. -/
theorem read_of_run
    {content content' : target.Content}
    {cursor : Cursor}
    (hRun :
      descriptor.fill .whole target (.ofText text, content) =
        .ok () (cursor, content'))
    (hBlank : Text.Blank cursor.ahead) :
    (descriptor.read text target content).result = .ok () ∧
      (descriptor.read text target content).content =
        content' := by
  rcases takes_expectEnd (Text.trimStart_of_blank hBlank)
    cursor rfl with ⟨cursor', hEnd, _⟩
  unfold read outcomeOf
  rw [run_bind_of_ok hRun, Fill.run_lift, hEnd]
  exact ⟨rfl, rfl⟩

theorem read_of_takes
    {content content' : target.Content}
    {after : List Char}
    (hTakes :
      Fill.Takes (descriptor.fill .whole target) text.toList
        content () after content')
    (hAfter : Text.Blank after) :
    (descriptor.read text target content).result = .ok () ∧
      (descriptor.read text target content).content =
        content' := by
  rcases hTakes (.ofText text) rfl with
    ⟨cursor, hRun, rfl⟩
  exact read_of_run hRun hAfter

/- Read on its own, the text denotes the value. -/
def Reads
    (descriptor : Descriptor)
    (text : String)
    (value : Value) : Prop :=
  (descriptor.readValue text).result = .ok () ∧
    (descriptor.readValue text).content = value

theorem reads_of_takes
    {value : Value}
    {after : List Char}
    (hTakes :
      Fill.Takes (descriptor.fill .whole .dynamic)
        text.toList Value.null () after value)
    (hAfter : Text.Blank after) :
    descriptor.Reads text value :=
  read_of_takes hTakes hAfter

/- Every spelling of a value denotes it. -/
theorem reads_of_spells
    {value : Value}
    (hText : Value.Spells descriptor value text.toList) :
    descriptor.Reads text value := by
  have hEnd :
      Literal.StopsAt (Literal.itemStops .whole) [] :=
    nofun
  have hNothing :
      Text.trimStart text.toList =
        Text.trimStart (text.toList ++ []) := by
    rw [List.append_nil]
  rcases hText.reads _ .whole Value.null [] text.toList hEnd
    hNothing (Nat.lt_succ_self _) with
    ⟨after, hTakes, hAfter⟩
  exact reads_of_takes hTakes
    (List.dropWhile_eq_nil_iff.mp hAfter)

/- The failure of a grammar is that of the reading. -/
theorem read_of_error
    {content : target.Content}
    {error : ReadError}
    {state : Cursor × target.Content}
    (hRun :
      descriptor.fill .whole target (.ofText text, content) =
        .error error state) :
    (descriptor.read text target content).result =
      .error error := by
  unfold read outcomeOf
  rw [run_bind, hRun]

/- What a text that is read must have been like. -/
theorem read_eq_ok
    {content : target.Content}
    {post : List Char → Prop}
    (hFill :
      OnlyTakes Prod.fst (descriptor.fill .whole target)
        text.toList fun _ after => post after)
    (hRead :
      (descriptor.read text target content).result =
        .ok ()) :
    ∃ after, post after ∧ Text.Blank after := by
  rcases exists_fill_of_read hRead with
    ⟨place, hRun, hBlank⟩
  exact ⟨place.ahead, hFill.of_ok (by rfl) hRun, hBlank⟩

/- A text is refused if too much of it would be left. -/
theorem read_of_onlyTakes
    {content : target.Content}
    (hFill :
      OnlyTakes Prod.fst (descriptor.fill .whole target)
        text.toList fun _ after => ¬ Text.Blank after) :
    ∃ error,
      (descriptor.read text target content).result =
        .error error := by
  cases hRead :
    (descriptor.read text target content).result with
  | ok =>
      rcases read_eq_ok hFill hRead with
        ⟨after, hLeft, hBlank⟩
      exact absurd hBlank hLeft
  | error error => exact ⟨error, rfl⟩

end Descriptor

namespace Target

variable {descriptor : Descriptor}
variable {target : Target}
variable {text : String}

theorem read_eq_ok_iff
    (hShape :
      Descriptor.ofShape target.shape = .ok descriptor)
    {content : target.Content} :
    target.read text = .ok content ↔
      (descriptor.read text target target.fresh).result =
          .ok () ∧
        (descriptor.read text target target.fresh).content =
          content := by
  rw [read_eq hShape]
  split
  · rename_i hResult
    rw [hResult, Except.ok.injEq]
    exact ⟨fun hContent => ⟨rfl, hContent⟩, fun h => h.2⟩
  · rename_i error hResult
    rw [hResult]
    exact iff_of_false nofun fun h => nomatch h.1

theorem read_eq_error
    (hShape :
      Descriptor.ofShape target.shape = .ok descriptor)
    {error : ReadError}
    (hResult :
      (descriptor.read text target target.fresh).result =
        .error error) :
    target.read text = .error error := by
  rw [read_eq hShape, hResult]

end Target

end Marginalia
