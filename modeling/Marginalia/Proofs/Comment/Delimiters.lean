import Marginalia.Comment
import Marginalia.Proofs.Text

/-
  Lines of a text that is put together from them, and the
  delimiters of comments on these lines.

  Key definitions include:
    * `Text.withoutReturn`
    * `Text.joinLines`
    * `IsDelimiter`
    * `CommentStyle.Regular`

  Main statements:
    * `Text.lines_joinLines_append`
    * `Language.comments_regular`
    * `Comment.before?_append_pair`
-/

namespace Marginalia

------------------------------------------------------------
-- Lines
------------------------------------------------------------

namespace Text

/- A line without the carriage return that may end it. -/
def withoutReturn : List Char → List Char
  | [] => []
  | c :: rest =>
      if c = '\r' ∧ rest = [] then
        []
      else
        c :: withoutReturn rest

theorem withoutReturn_cases
    (line : List Char) :
    withoutReturn line = line ∨
      line = withoutReturn line ++ ['\r'] := by
  induction line with
  | nil => exact Or.inl rfl
  | cons c rest ih =>
      unfold withoutReturn
      by_cases hReturn : c = '\r' ∧ rest = []
      · right
        simp [hReturn]
      · rw [if_neg hReturn]
        rcases ih with hSame | hEnd
        · exact Or.inl (by rw [hSame])
        · right
          rw [List.cons_append, ← hEnd]

/- A line feed ends the line that has none. -/
theorem lines_append_feed
    {line : List Char}
    (hLine : '\n' ∉ line)
    (rest : List Char) :
    lines (line ++ '\n' :: rest) =
      withoutReturn line :: lines rest := by
  induction line with
  | nil => simp [lines, withoutReturn]
  | cons c line ih =>
      rw [List.mem_cons, not_or] at hLine
      rcases hLine with ⟨hFirst, hOther⟩
      by_cases hReturn : c = '\r' ∧ line = []
      · rcases hReturn with ⟨rfl, rfl⟩
        simp [lines, withoutReturn]
      · have hNext :
            ∀ later, c = '\r' →
              line ++ '\n' :: rest ≠ '\n' :: later := by
          intro later hCarriage hFeed
          cases line with
          | nil => exact hReturn ⟨hCarriage, rfl⟩
          | cons d line =>
              rw [List.cons_append] at hFeed
              exact hOther (by
                rw [(List.cons.inj hFeed).1]
                exact List.mem_cons_self)
        rw [List.cons_append, lines]
        · rw [ih hOther, withoutReturn, if_neg hReturn]
        · exact Ne.symm hFirst
        · exact hNext

/- A text without line feeds is a line, unless it is empty. -/
theorem lines_of_no_feed
    {line : List Char}
    (hLine : '\n' ∉ line)
    (hNonempty : line ≠ []) :
    lines line = [line] := by
  induction line with
  | nil => exact absurd rfl hNonempty
  | cons c line ih =>
      rw [List.mem_cons, not_or] at hLine
      rcases hLine with ⟨hFirst, hOther⟩
      rw [lines]
      · by_cases hEnd : line = []
        · rw [hEnd]
          rfl
        · rw [ih hOther hEnd]
      · exact Ne.symm hFirst
      · rintro later _ rfl
        exact hOther List.mem_cons_self

/- The lines of a text, each with a line feed at its end. -/
def joinLines
    (lines : List (List Char)) : List Char :=
  lines.flatMap fun line => line ++ ['\n']

theorem lines_joinLines_append
    {written : List (List Char)}
    (hWritten : ∀ line ∈ written, '\n' ∉ line)
    (rest : List Char) :
    lines (joinLines written ++ rest) =
      written.map withoutReturn ++ lines rest := by
  induction written with
  | nil => rfl
  | cons line written ih =>
      rcases List.forall_mem_cons.mp hWritten with
        ⟨hLine, hLater⟩
      have hSplit :
          joinLines (line :: written) ++ rest =
            line ++ '\n' :: (joinLines written ++ rest) := by
        simp [joinLines]
      rw [hSplit, lines_append_feed hLine, ih hLater]
      rfl

end Text

------------------------------------------------------------
-- Delimiters
------------------------------------------------------------

/- A delimiter is a text that is there to see. -/
structure IsDelimiter
    (text : List Char) : Prop where
  nonempty : text ≠ []
  visible : ∀ c ∈ text, Text.isBlank c = false

namespace IsDelimiter

instance decidable
    (text : List Char) :
    Decidable (IsDelimiter text) :=
  decidable_of_iff
    (text ≠ [] ∧ ∀ c ∈ text, Text.isBlank c = false)
    ⟨fun h => ⟨h.1, h.2⟩, fun h => ⟨h.nonempty, h.visible⟩⟩

theorem no_return
    {text : List Char}
    (hText : IsDelimiter text) :
    '\r' ∉ text := by
  intro hReturn
  have hVisible := hText.visible '\r' hReturn
  revert hVisible
  decide

/- Blanks before a delimiter do not belong to it. -/
theorem trimStart_append
    {text : List Char}
    (hText : IsDelimiter text)
    {indent : List Char}
    (hIndent : Text.Blank indent)
    (rest : List Char) :
    Text.trimStart (indent ++ (text ++ rest)) =
      text ++ rest := by
  rw [Text.trimStart_append_of_blank hIndent]
  cases text with
  | nil => exact absurd rfl hText.nonempty
  | cons c text =>
      exact Text.trimStart_cons
        (hText.visible c List.mem_cons_self) (text ++ rest)

end IsDelimiter

/-
  The delimiters of comments can be told from each other, and
  a closer cannot begin inside of another one.
-/
structure CommentStyle.Regular
    (style : CommentStyle) : Prop where
  line : ∀ opener ∈ style.line, IsDelimiter opener.toList
  block :
    ∀ opener closer,
      style.block? = some (opener, closer) →
        IsDelimiter opener.toList ∧ IsDelimiter closer.toList
  closer :
    ∀ opener closer,
      style.block? = some (opener, closer) →
        ∃ first second,
          closer.toList = [first, second] ∧ first ≠ second
  apart :
    ∀ opener closer,
      style.block? = some (opener, closer) →
        ∀ other ∈ style.line,
          ¬ other.toList <+: opener.toList ∧
            ¬ opener.toList <+: other.toList

theorem Language.comments_regular
    (language : Language) :
    language.comments.Regular := by
  have hSlashes :
      ∀ line : List String,
        (∀ opener ∈ line, IsDelimiter opener.toList) →
          (∀ other ∈ line,
            ¬ other.toList <+: "/*".toList ∧
              ¬ "/*".toList <+: other.toList) →
            CommentStyle.Regular
              ⟨line, some ("/*", "*/")⟩ := by
    intro line hLine hApart
    constructor
    · exact hLine
    · rintro _ _ ⟨⟩
      exact ⟨by decide, by decide⟩
    · rintro _ _ ⟨⟩
      exact ⟨'*', '/', rfl, by decide⟩
    · rintro _ _ ⟨⟩
      exact hApart
  have hHash :
      CommentStyle.Regular ⟨["#"], none⟩ :=
    ⟨by decide, nofun, nofun, nofun⟩
  cases language with
  | python | shell => exact hHash
  | rust => exact hSlashes _ (by decide) (by decide)
  | _ => exact hSlashes _ (by decide) (by decide)

namespace Comment

------------------------------------------------------------
-- Closers
------------------------------------------------------------

theorem before?_eq_none
    {closer text : List Char}
    (hText : ¬ closer <:+: text) :
    before? closer text = none := by
  induction text with
  | nil =>
      have hCloser : closer ≠ [] := by
        rintro rfl
        exact hText (List.nil_infix)
      simp [before?, hCloser]
  | cons c text ih =>
      have hStart : ¬ closer <+: c :: text :=
        fun hPrefix => hText hPrefix.isInfix
      have hLater : ¬ closer <:+: text :=
        fun hInfix => hText (List.infix_cons hInfix)
      simp [before?, hStart, ih hLater]

/-
  The text before a closer of two different characters is
  found if the closer is not in it.
-/
theorem before?_append_pair
    {first second : Char}
    (hDifferent : first ≠ second)
    {text : List Char}
    (hText : ¬ [first, second] <:+: text)
    (rest : List Char) :
    before? [first, second]
        (text ++ first :: second :: rest) =
      some text := by
  induction text with
  | nil => simp [before?]
  | cons c text ih =>
      have hLater : ¬ [first, second] <:+: text :=
        fun hInfix => hText (List.infix_cons hInfix)
      have hStart :
          ¬ [first, second] <+:
            c :: (text ++ first :: second :: rest) := by
        cases text with
        | nil =>
            intro hPrefix
            simp only [List.nil_append,
              List.cons_prefix_cons] at hPrefix
            exact hDifferent hPrefix.2.1.symm
        | cons d text =>
            intro hPrefix
            simp only [List.cons_append,
              List.cons_prefix_cons, List.nil_prefix,
              and_true] at hPrefix
            apply hText
            rw [hPrefix.1, hPrefix.2]
            exact ⟨[], text, rfl⟩
      simp [before?, hStart, ih hLater]

/- A carriage return is no part of a closer. -/
theorem before?_append_return
    {closer : List Char}
    (hCloser : IsDelimiter closer)
    (text : List Char) :
    before? closer (text ++ ['\r']) = before? closer text := by
  have hSame :
      ∀ text,
        closer <+: text ++ ['\r'] ↔ closer <+: text := by
    intro text
    rw [List.prefix_concat_iff]
    constructor
    · rintro (rfl | hPrefix)
      · exact absurd (by simp) hCloser.no_return
      · exact hPrefix
    · exact Or.inr
  induction text with
  | nil =>
      have hOnly : ¬ closer <+: ['\r'] := by
        have hEmpty := hSame []
        simpa [hCloser.nonempty] using hEmpty
      simp [before?, hOnly, hCloser.nonempty]
  | cons d text ih =>
      have hStart := hSame (d :: text)
      rw [List.cons_append] at hStart
      simp [before?, hStart, ih]

end Comment

end Marginalia
