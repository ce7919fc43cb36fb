import Marginalia.Proofs.Literal.Whole

/-
  Texts that are one string: quoted ones denote it whether a
  string is asked for or the form of the text decides, bare
  ones where a string is asked for.

  Key definitions include:
    * `Literal.QuotedSpelling`
    * `Literal.BareSpelling`

  Main statements:
    * `Descriptor.reads_string`
-/

namespace Marginalia

namespace Literal

------------------------------------------------------------
-- Spellings
------------------------------------------------------------

/- The spellings of a string that have quotes. -/
inductive QuotedSpelling (value : String) :
    List Char → Prop
  | escaped
      {text : List Char}
      (hText : SpellsCharacters value.toList text) :
      QuotedSpelling value ('"' :: (text ++ ['"']))
  | verbatim
      (hValue : '`' ∉ value.toList) :
      QuotedSpelling value ('`' :: (value.toList ++ ['`']))

/-
  A string that is its own spelling where a string is asked
  for. It may be empty.
-/
structure BareSpelling
    (value : String) : Prop where
  trimmed : Text.trim value.toList = value.toList
  noDelimiter : ∀ c ∈ value.toList,
    c ∉ [',', ';', '}', ']']
  noQuote : value.toList.head? ≠ some '"'
  noBacktick : value.toList.head? ≠ some '`'

variable {value : String}
variable {text : List Char}

------------------------------------------------------------
-- Reading
------------------------------------------------------------

/- A quoted text is read in whole where a string is. -/
theorem QuotedSpelling.takes_string
    (hText : QuotedSpelling value text)
    (stops : List Char) :
    Scan.Takes (string stops) (Text.trimStart text) value
      [] := by
  cases hText with
  | escaped hText =>
      have hTakes := hText.takes_quoted []
      rw [String.ofList_toList] at hTakes
      rw [Text.trimStart_cons (by decide)]
      exact Scan.Takes.peek.bind hTakes
  | verbatim hValue =>
      rw [Text.trimStart_cons (by decide)]
      exact Scan.Takes.peek.bind (takes_backtick hValue [])

theorem BareSpelling.takes_string
    (hValue : BareSpelling value) :
    Scan.Takes (string Scan.delimiters)
      (Text.trimStart value.toList) value [] := by
  have hFront :
      ∀ c ∈ value.toList,
        (!Scan.delimiters.contains c) = true := by
    intro c hMember
    rw [Bool.not_eq_true', List.contains_eq_mem,
      decide_eq_false_iff_not]
    exact hValue.noDelimiter c hMember
  have hTakes :
      Scan.Takes
        (Scan.takeWhile fun c =>
          !Scan.delimiters.contains c)
        (value.toList ++ []) value.toList [] :=
    .takeWhile_append hFront nofun
  rw [List.append_nil] at hTakes
  rw [Text.trimStart_of_trimmed hValue.trimmed]
  apply Scan.Takes.peek.bind
  split
  · rename_i hQuote
    exact absurd hQuote hValue.noQuote
  · rename_i hBacktick
    exact absurd hBacktick hValue.noBacktick
  · apply hTakes.bind
    rw [hValue.trimmed, String.ofList_toList]
    exact .pure value

/- Quotes show that a text is a string. -/
theorem QuotedSpelling.takes_element
    (hText : QuotedSpelling value text) :
    Scan.Takes element (Text.trimStart text) (.string value)
      [] := by
  refine .get fun cursor _ => ?_
  cases hText with
  | escaped hText =>
      have hTakes := hText.takes_quoted []
      rw [String.ofList_toList] at hTakes
      rw [Text.trimStart_cons (by decide)]
      exact Value.takes_inferElement_quoted rfl hTakes _
  | verbatim hValue =>
      rw [Text.trimStart_cons (by decide)]
      exact Value.takes_inferElement_backtick hValue [] _

theorem takes_fillString
    {target : Target}
    {content content' : target.Content}
    {before after : List Char}
    (hStore :
      target.setString value content = .ok () content')
    (hString :
      Scan.Takes (string Scan.delimiters) before value
        after) :
    Fill.Takes (fillString target) before content () after
      content' := by
  refine .position fun start => ?_
  exact (Fill.Takes.lift hString).bind (.store hStore)

end Literal

namespace Descriptor

open Literal

/- Where a string is asked for, a text that is one is read. -/
theorem read_string_of_takes
    {value text : String}
    (hString :
      Scan.Takes (string Scan.delimiters)
        (Text.trimStart text.toList) value []) :
    (plain .string).Reads text (.string value) ∧
      Target.read .string text = .ok value := by
  have hFill :
      ∀ {target : Target} {content content' :
          target.Content},
        target.setString value content = .ok () content' →
          Fill.Takes ((plain .string).fill .whole target)
            text.toList content () [] content' := by
    intro target content content' hStore
    rw [fill_eq]
    apply (Fill.Takes.lift .skipBlanks).bind
    exact takes_fillString hStore hString
  constructor
  · exact reads_of_takes (hFill rfl) nofun
  · apply (Target.read_eq_ok_iff rfl).mpr
    exact read_of_takes (hFill rfl) nofun

/- Nothing follows an element that is the whole text. -/
theorem reads_any_of_takes
    {value : Value}
    {text : String}
    (hElement :
      Scan.Takes element (Text.trimStart text.toList) value
        []) :
    (plain .any).Reads text value := by
  have hEnd : StopsAt (itemStops .whole) [] := nofun
  have hNothing : Text.trimStart [] = Text.trimStart [] :=
    rfl
  rcases takes_inferWith hElement hNothing hEnd with
    ⟨after, hInfer, hAfter⟩
  refine reads_of_takes ?_
    (List.dropWhile_eq_nil_iff.mp hAfter)
  rw [fill_eq]
  apply (Fill.Takes.lift .skipBlanks).bind
  refine .position fun start => ?_
  exact (Fill.Takes.lift hInfer).bind (.store rfl)

/-
  Every spelling of a string denotes it: one with quotes both
  where a string is asked for and where the form of the text
  decides, a bare one where a string is asked for.
-/
theorem reads_string
    (value : String) :
    (∀ text : String,
      QuotedSpelling value text.toList →
        ((plain .string).Reads text (.string value) ∧
          Target.read .string text = .ok value) ∧
        (plain .any).Reads text (.string value)) ∧
      (BareSpelling value →
        (plain .string).Reads value (.string value) ∧
          Target.read .string value = .ok value) := by
  constructor
  · intro text hText
    refine ⟨read_string_of_takes (hText.takes_string _), ?_⟩
    exact reads_any_of_takes hText.takes_element
  · intro hValue
    exact read_string_of_takes hValue.takes_string

/-
  Digits end where their number does: another digit, or a
  brace, may stand behind them for itself. A text of nothing
  is a string too.
-/
theorem reads_string_mixed_escapes :
    (plain .any).Reads "\"\\x411\\u\x7b0005C\x7d\x7b\""
        (.string "A1\\\x7b") ∧
      (plain .string).Reads "" (.string "") := by
  have hCounted :
      SpellsCharacter 'A' ('\\' :: 'x' :: "41".toList) :=
    .counted (by decide) ⟨0, by decide⟩
  have hBraced :
      SpellsCharacter '\\'
        ('\\' :: 'u' :: '{' :: ("0005C".toList ++ ['}'])) :=
    .braced ⟨3, by decide⟩
  have hOne : SpellsCharacter '1' ['1'] :=
    .itself (by decide) (by decide)
  have hBrace : SpellsCharacter '{' ['{'] :=
    .itself (by decide) (by decide)
  have hText :
      SpellsCharacters "A1\\\x7b".toList
        "\\x411\\u\x7b0005C\x7d\x7b".toList :=
    .cons hCounted
      (.cons hOne (.cons hBraced (.cons hBrace .nil)))
  have hQuoted :
      QuotedSpelling "A1\\\x7b"
        "\"\\x411\\u\x7b0005C\x7d\x7b\"".toList :=
    .escaped hText
  have hBare : BareSpelling "" :=
    ⟨rfl, nofun, nofun, nofun⟩
  exact ⟨((reads_string _).1 _ hQuoted).2,
    ((reads_string _).2 hBare).1⟩

end Descriptor

end Marginalia
