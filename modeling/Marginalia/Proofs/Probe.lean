import Marginalia.Proofs.Moves
import Marginalia.Proofs.Text

/-
  What the probe for a character at the top level of a group
  passes over.

  Key definitions include:
    * `Text.Ordinary`

  Main statements:
    * `Cursor.probe_append_of_ordinary`
    * `Cursor.hasTopLevel_of_empty`
-/

namespace Marginalia

------------------------------------------------------------
-- Ordinary Characters
------------------------------------------------------------

namespace Text

/- The character neither opens nor closes anything. -/
def Ordinary
    (c : Char) : Prop :=
  c ∉ ['"', '`', '{', '[', '}', ']']

instance
    (c : Char) :
    Decidable (Ordinary c) := by
  unfold Ordinary
  infer_instance

theorem ordinary_of_isBlank
    {c : Char}
    (hBlank : isBlank c = true) :
    Ordinary c := by
  intro hMember
  have hNone :
      ∀ d ∈ ['"', '`', '{', '[', '}', ']'],
        isBlank d = false := by
    decide
  rw [hNone c hMember] at hBlank
  cases hBlank

end Text

------------------------------------------------------------
-- Probes
------------------------------------------------------------

namespace Cursor

variable {target : Char}
variable {depth : Nat}

/- An ordinary character that is not sought is passed over. -/
theorem probe_cons_of_ordinary
    {c : Char}
    {rest : List Char}
    (hOrdinary : Text.Ordinary c)
    (hTarget : c = target → depth ≠ 1) :
    probe target .plain depth (c :: rest) =
      probe target .plain depth rest := by
  unfold Text.Ordinary at hOrdinary
  simp only [List.mem_cons, List.not_mem_nil, or_false,
    not_or] at hOrdinary
  have hNotTarget : ¬ (c = target ∧ depth = 1) :=
    fun h => hTarget h.1 h.2
  rw [probe]
  simp [hOrdinary, hNotTarget]

theorem probe_append_of_ordinary
    {front rest : List Char}
    (hOrdinary : ∀ c ∈ front, Text.Ordinary c)
    (hTarget : target ∈ front → depth ≠ 1) :
    probe target .plain depth (front ++ rest) =
      probe target .plain depth rest := by
  induction front with
  | nil => rfl
  | cons c front ih =>
      have hRest := ih
        (fun d hMember =>
          hOrdinary d (List.mem_cons_of_mem _ hMember))
        (fun hMember =>
          hTarget (List.mem_cons_of_mem _ hMember))
      rw [List.cons_append, probe_cons_of_ordinary, hRest]
      · exact hOrdinary c List.mem_cons_self
      · rintro rfl
        exact hTarget List.mem_cons_self

/- A group is opened. -/
theorem probe_open
    {rest : List Char} :
    probe target .plain depth ('{' :: rest) =
      probe target .plain (depth + 1) rest := by
  rw [probe]
  simp

/- Blanks are passed over, whatever is sought. -/
theorem probe_trimStart
    {text : List Char}
    (hTarget : Text.isBlank target = false) :
    probe target .plain depth (Text.trimStart text) =
      probe target .plain depth text := by
  have hText :
      text.takeWhile Text.isBlank ++ Text.trimStart text =
        text :=
    List.takeWhile_append_dropWhile
  have hBlank :
      ∀ c ∈ text.takeWhile Text.isBlank,
        Text.isBlank c = true :=
    fun _ hMember => List.mem_takeWhile_imp hMember
  rw [← probe_append_of_ordinary, hText]
  · intro c hMember
    exact Text.ordinary_of_isBlank (hBlank c hMember)
  · intro hMember
    rw [hBlank target hMember] at hTarget
    cases hTarget

/- A group without elements has no colon. -/
theorem hasTopLevel_of_empty
    {cursor : Cursor}
    (hOpen : cursor.peek = some '{')
    (hClose :
      cursor.advance.skipBlanks.peek = some '}') :
    cursor.hasTopLevel ':' = false := by
  rcases peek_eq_some_iff.mp hOpen with ⟨inner, hInner⟩
  rcases peek_eq_some_iff.mp hClose with ⟨rest, hRest⟩
  rw [skipBlanks_ahead, advance_ahead, hInner,
    List.tail_cons] at hRest
  unfold hasTopLevel
  rw [hInner, probe_open,
    ← probe_trimStart (by decide), hRest]
  rfl

end Cursor

end Marginalia
