import Marginalia.Proofs.Literal.Escapes
import Marginalia.Proofs.Literal.Spelling

/-
  The spellings of strings are read back, whatever follows
  them.

  Key definitions include:
    * `Literal.StopsAt`

  Main statements:
    * `Literal.takes_quoted`
    * `Literal.takes_backtick`
    * `Literal.takes_bare`
    * `Literal.SpellsString.takes`
-/

namespace Marginalia

namespace Literal

------------------------------------------------------------
-- Quoted Strings
------------------------------------------------------------

/- A quoted string is read back. -/
theorem takes_quoted
    (value : String)
    (rest : List Char) :
    Scan.Takes quoted ((Text.quoted value).toList ++ rest)
      value rest := by
  have hTakes :=
    (spellsCharacters_escape value.toList).takes_quoted rest
  rw [String.ofList_toList] at hTakes
  rw [Text.toList_quoted, List.cons_append,
    List.append_assoc]
  exact hTakes

/- A string between backticks is read as it is. -/
theorem takes_backtick
    {value : String}
    (hValue : '`' ∉ value.toList)
    (rest : List Char) :
    Scan.Takes backtick
      ('`' :: (value.toList ++ '`' :: rest)) value rest := by
  refine .position fun start => ?_
  apply Scan.Takes.skip.bind
  refine (Scan.Takes.takeWhile_append ?_ ?_).bind ?_
  · intro c hMember
    rw [bne_iff_ne]
    rintro rfl
    exact hValue hMember
  · rintro _ ⟨⟩
    rfl
  · apply Scan.Takes.eat.bind
    rw [String.ofList_toList]
    exact .pure value

------------------------------------------------------------
-- Bare Strings
------------------------------------------------------------

/- After blanks, one of the stops or the end follows. -/
def StopsAt
    (stops rest : List Char) : Prop :=
  ∀ c, (Text.trimStart rest).head? = some c → c ∈ stops

theorem BareBefore.trimStart
    {stops text : List Char}
    (hText : BareBefore stops text)
    (rest : List Char) :
    Text.trimStart (text ++ rest) = text ++ rest := by
  have hStart := Text.trimStart_of_trimmed hText.trimmed
  cases text with
  | nil => exact absurd rfl hText.nonempty
  | cons c text =>
      exact Text.trimStart_cons
        (Text.isBlank_head_trimStart hStart) _

/- A text without stops is read up to the first one. -/
theorem takes_bare
    {stops text rest : List Char}
    (hStops : ∀ c ∈ stops, Text.isBlank c = false)
    (hText : BareBefore stops text)
    (hRest : StopsAt stops rest) :
    Scan.Takes (bare stops) (text ++ rest)
      (String.ofList text) (Text.trimStart rest) := by
  rcases Text.exists_blank_append_trimStart rest with
    ⟨blanks, hBlanks, hSplit⟩
  have hFront :
      ∀ c ∈ text ++ blanks, (!stops.contains c) = true := by
    intro c hMember
    rw [Bool.not_eq_true', List.contains_eq_mem,
      decide_eq_false_iff_not]
    intro hStop
    rcases List.mem_append.mp hMember with hOwn | hBlank
    · exact hText.noStop c hOwn hStop
    · exact Text.ne_of_isBlank (hBlanks c hBlank)
        (hStops c hStop) rfl
  have hAfter :
      ∀ c, (Text.trimStart rest).head? = some c →
        (!stops.contains c) = false := by
    intro c hHead
    rw [Bool.not_eq_false', List.contains_eq_mem,
      decide_eq_true_eq]
    exact hRest c hHead
  have hTakes :=
    Scan.Takes.takeWhile_append hFront hAfter
  rw [List.append_assoc, ← hSplit] at hTakes
  have hTrim := Text.trim_append_of_blank hBlanks text
  apply hTakes.bind
  rw [hTrim, hText.trimmed]
  exact .pure _

------------------------------------------------------------
-- Strings in Any Form
------------------------------------------------------------

variable {α : Type}

/-
  An action that reads the three forms of a string reads all
  of its spellings: it is not concerned by blanks in front,
  and those behind are left.
-/
theorem SpellsString.takes_of
    {bare : List Char → Prop}
    {stops : List Char}
    {value : String}
    {action : Scan α}
    {result : α}
    (hQuoted : ∀ rest,
      Scan.Takes action ((Text.quoted value).toList ++ rest)
        result rest)
    (hBacktick : ∀ rest,
      '`' ∉ value.toList →
        Scan.Takes action
          ('`' :: (value.toList ++ '`' :: rest)) result rest)
    (hBefore : ∀ text, bare text → BareBefore stops text)
    (hBare : ∀ rest,
      bare value.toList →
        StopsAt stops rest →
          Scan.Takes action (value.toList ++ rest) result
            (Text.trimStart rest))
    {text rest : List Char}
    (hText : SpellsString bare value text)
    (hRest : StopsAt stops rest) :
    ∃ after,
      Scan.Takes action (Text.trimStart (text ++ rest)) result
          after ∧
        Text.trimStart after = Text.trimStart rest := by
  induction hText generalizing rest with
  | quoted =>
      refine ⟨rest, ?_, rfl⟩
      have hTakes := hQuoted rest
      rw [Text.toList_quoted, List.cons_append] at hTakes ⊢
      rw [Text.trimStart_cons (by decide)]
      exact hTakes
  | backtick hValue =>
      refine ⟨rest, ?_, rfl⟩
      rw [List.cons_append, List.append_assoc,
        Text.trimStart_cons (by decide)]
      exact hBacktick rest hValue
  | bare hValue =>
      refine ⟨Text.trimStart rest, ?_,
        Text.trimStart_trimStart rest⟩
      rw [(hBefore _ hValue).trimStart]
      exact hBare rest hValue hRest
  | @pad front text back hFront _ hBack ih =>
      have hRest' : StopsAt stops (back ++ rest) := by
        unfold StopsAt
        rw [Text.trimStart_append_of_blank hBack]
        exact hRest
      rcases ih hRest' with ⟨after, hTakes, hAfter⟩
      refine ⟨after, ?_, ?_⟩
      · rw [List.append_assoc, List.append_assoc,
          Text.trimStart_append_of_blank hFront]
        exact hTakes
      · rw [hAfter, Text.trimStart_append_of_blank hBack]

/- The first character of a bare text is its own. -/
theorem BareBefore.head
    {stops text : List Char}
    (hText : BareBefore stops text)
    (rest : List Char) :
    (text ++ rest).head? = text.head? := by
  cases text with
  | nil => exact absurd rfl hText.nonempty
  | cons c tail => rfl

/- The quoted form begins with a quote. -/
theorem head_quoted
    (value : String)
    (rest : List Char) :
    ((Text.quoted value).toList ++ rest).head? =
      some '"' := by
  rw [Text.toList_quoted]
  rfl

/- Every spelling of a string is read. -/
theorem SpellsString.takes
    {bare : List Char → Prop}
    {stops : List Char}
    (hStops : ∀ c ∈ stops, Text.isBlank c = false)
    (hBefore : ∀ text, bare text → BareBefore stops text)
    {value : String}
    {text rest : List Char}
    (hText : SpellsString bare value text)
    (hRest : StopsAt stops rest) :
    ∃ after,
      Scan.Takes (string stops)
          (Text.trimStart (text ++ rest)) value after ∧
        Text.trimStart after = Text.trimStart rest := by
  refine hText.takes_of ?_ ?_ hBefore ?_ hRest
  · intro rest
    apply Scan.Takes.peek.bind
    rw [head_quoted]
    exact takes_quoted value rest
  · intro rest hValue
    exact Scan.Takes.peek.bind (takes_backtick hValue rest)
  · intro rest hValue hRest
    have hOwn := hBefore _ hValue
    have hTakes := takes_bare hStops hOwn hRest
    rw [String.ofList_toList] at hTakes
    apply Scan.Takes.peek.bind
    rw [hOwn.head]
    split
    · rename_i hQuote
      exact absurd hQuote hOwn.noQuote
    · rename_i hBacktick
      exact absurd hBacktick hOwn.noBacktick
    · exact hTakes

------------------------------------------------------------
-- Words and Integers
------------------------------------------------------------

/- A text without blanks, stops and quotes may be bare. -/
theorem BareBefore.of_forall
    {stops text : List Char}
    (hNonempty : text ≠ [])
    (hText : ∀ c ∈ text,
      Text.isBlank c = false ∧ c ∉ stops ∧
        c ≠ '"' ∧ c ≠ '`') :
    BareBefore stops text := by
  have hTrim :
      ∀ text : List Char,
        (∀ c ∈ text, Text.isBlank c = false) →
          Text.trimStart text = text := by
    intro text hBlank
    cases text with
    | nil => rfl
    | cons c rest =>
        exact Text.trimStart_cons
          (hBlank c List.mem_cons_self) rest
  have hHead :
      ∀ c, text.head? = some c → c ≠ '"' ∧ c ≠ '`' := by
    intro c hHead
    exact (hText c (List.mem_of_head? hHead)).2.2
  refine ⟨hNonempty, ?_, ?_, ?_, ?_⟩
  · have hStart := hTrim text fun c hMember =>
      (hText c hMember).1
    have hEnd := hTrim text.reverse fun c hMember =>
      (hText c (List.mem_reverse.mp hMember)).1
    unfold Text.trim Text.trimEnd
    rw [hStart]
    unfold Text.trimStart at hEnd
    rw [hEnd, List.reverse_reverse]
  · intro c hMember
    exact (hText c hMember).2.1
  · intro hQuote
    exact (hHead _ hQuote).1 rfl
  · intro hBacktick
    exact (hHead _ hBacktick).2 rfl

end Literal

end Marginalia
