import Marginalia.Proofs.Comment.Delimiters
import Mathlib.Data.List.Find

/-
  The texts of the comments on the lines of a source, by the
  delimiters with which the lines begin.

  Key definitions include:
    * `Comment.textOn`
    * `Comment.texts`
    * `Comment.numbered`

  Main statements:
    * `Comment.line_cases`
    * `Comment.textOn_append_return`
    * `Comment.texts_map_withoutReturn`
    * `Comment.lines_ofSource`
-/

namespace Marginalia

namespace Comment

variable {style : CommentStyle}

------------------------------------------------------------
-- The Comment on a Line
------------------------------------------------------------

/- A line of a comment without the star that may adorn it. -/
def withoutStar
    (line : List Char) : List Char :=
  match Text.trimStart line with
  | '*' :: rest => rest
  | rest => rest

/-
  The text of the comment on a line, without blanks at its
  ends, and the closer that is awaited after the line.
-/
def textOn
    (style : CommentStyle)
    (awaited : Option (List Char))
    (line : List Char) :
    Option (List Char) × Option (List Char) :=
  ((onLine style awaited line).1.map fun part =>
      part.trim.text,
    (onLine style awaited line).2)

/- The text up to a closer, or all of it if it has none. -/
def front
    (closer text : List Char) : List Char :=
  (before? closer text).getD text

/- A closer is awaited as long as it has not been found. -/
def awaitedAfter
    (closer text : List Char) : Option (List Char) :=
  if (before? closer text).isSome then none else some closer

theorem upTo_eq
    (closer : List Char)
    (part : Part) :
    upTo closer part =
      (⟨part.offset, front closer part.text⟩,
        awaitedAfter closer part.text) := by
  unfold upTo front awaitedAfter
  cases before? closer part.text <;> simp

/- A line before which a closer is awaited. -/
theorem textOn_awaiting
    (closer line : List Char) :
    textOn style (some closer) line =
      (some (Text.trim (withoutStar (front closer line))),
        awaitedAfter closer line) := by
  have hStar :
      ∀ text : List Char,
        (((indented text).after? ['*']).getD
            (indented text)).text =
          withoutStar text := by
    intro text
    unfold indented Part.after? withoutStar
    cases Text.trimStart text with
    | nil => rfl
    | cons c rest =>
        by_cases hAdorned : c = '*'
        · simp [hAdorned]
        · simp [hAdorned, Ne.symm hAdorned]
  simp [textOn, onLine, blockContinuation, upTo_eq,
    Part.trim, hStar]

/- The first of the openers with which a part begins counts. -/
theorem findSome?_after?
    (part : Part)
    (openers : List String) :
    (openers.findSome? fun opener =>
        part.after? opener.toList) =
      (openers.find? fun opener =>
          opener.toList.isPrefixOf part.text).map
        fun opener =>
          ⟨part.offset + Text.byteLength opener.toList,
            part.text.drop opener.toList.length⟩ := by
  induction openers with
  | nil => rfl
  | cons opener openers ih =>
      rw [List.findSome?_cons, List.find?_cons]
      by_cases hOpener :
          opener.toList.isPrefixOf part.text = true
      · simp [Part.after?, hOpener]
      · simpa [Part.after?, hOpener] using ih

/- A line that begins with a text that opens a comment. -/
theorem textOn_lineComment
    {opener : String}
    {line : List Char}
    (hOpener :
      (style.line.find? fun opener =>
          opener.toList.isPrefixOf (Text.trimStart line)) =
        some opener) :
    textOn style none line =
      (some (Text.trim
          ((Text.trimStart line).drop opener.toList.length)),
        none) := by
  simp [textOn, onLine, lineComment?, findSome?_after?,
    indented, hOpener, Part.trim]

/- The line begins with no text that opens a comment of it. -/
def Unopened
    (style : CommentStyle)
    (line : List Char) : Prop :=
  ∀ opener ∈ style.line,
    ¬ opener.toList <+: Text.trimStart line

instance decidableUnopened
    (style : CommentStyle)
    (line : List Char) :
    Decidable (Unopened style line) :=
  inferInstanceAs
    (Decidable
      (∀ opener ∈ style.line,
        ¬ opener.toList <+: Text.trimStart line))

theorem lineComment?_eq_none
    {line : List Char}
    (hLine : Unopened style line) :
    lineComment? style line = none := by
  unfold Unopened at hLine
  simpa [lineComment?, findSome?_after?, indented] using hLine

/- A line that begins with the opener of a block. -/
theorem textOn_block
    {opener closer : String}
    {line : List Char}
    (hLine : Unopened style line)
    (hBlock : style.block? = some (opener, closer))
    (hOpener : opener.toList <+: Text.trimStart line) :
    textOn style none line =
      (some (Text.trim (front closer.toList
          ((Text.trimStart line).drop opener.toList.length))),
        awaitedAfter closer.toList
          ((Text.trimStart line).drop
            opener.toList.length)) := by
  simp [textOn, onLine, lineComment?_eq_none hLine,
    blockOpening?, hBlock, Part.after?, indented, hOpener,
    upTo_eq, Part.trim]

/- The line does not begin with the opener of a block. -/
def Unblocked
    (style : CommentStyle)
    (line : List Char) : Prop :=
  ∀ opener closer,
    style.block? = some (opener, closer) →
      ¬ opener.toList <+: Text.trimStart line

instance decidableUnblocked
    (style : CommentStyle)
    (line : List Char) :
    Decidable (Unblocked style line) :=
  match hBlock : style.block? with
  | none => isTrue (by simp [Unblocked, hBlock])
  | some (opener, _) =>
      decidable_of_iff
        (¬ opener.toList <+: Text.trimStart line)
        (by simp [Unblocked, hBlock])

/- A line without a comment. -/
theorem textOn_nothing
    {line : List Char}
    (hLine : Unopened style line)
    (hBlock : Unblocked style line) :
    textOn style none line = (none, none) := by
  have hOpening : blockOpening? style line = none := by
    unfold blockOpening?
    cases hStyle : style.block? with
    | none => rfl
    | some delimiters =>
        rcases delimiters with ⟨opener, closer⟩
        simp [Part.after?, indented,
          hBlock opener closer hStyle]
  simp [textOn, onLine, lineComment?_eq_none hLine, hOpening]

/- Outside of blocks, these are the lines that there are. -/
theorem line_cases
    (style : CommentStyle)
    (line : List Char) :
    (∃ opener,
      (style.line.find? fun opener =>
          opener.toList.isPrefixOf (Text.trimStart line)) =
        some opener) ∨
      (Unopened style line ∧ Unblocked style line) ∨
        (Unopened style line ∧
          ∃ opener closer,
            style.block? = some (opener, closer) ∧
              opener.toList <+: Text.trimStart line) := by
  cases hFirst :
      style.line.find? fun opener =>
        opener.toList.isPrefixOf (Text.trimStart line) with
  | some opener => exact Or.inl ⟨opener, rfl⟩
  | none =>
      right
      have hLine : Unopened style line := by
        simpa [Unopened] using hFirst
      by_cases hNone : Unblocked style line
      · exact Or.inl ⟨hLine, hNone⟩
      · right
        simp only [Unblocked, not_forall, not_not] at hNone
        rcases hNone with ⟨opener, closer, hBlock, hPrefix⟩
        exact ⟨hLine, opener, closer, hBlock, hPrefix⟩

------------------------------------------------------------
-- Carriage Returns
------------------------------------------------------------

/- The closer that is awaited, if any, is that of the style. -/
def Awaits
    (style : CommentStyle) : Option (List Char) → Prop
  | none => True
  | some closer =>
      ∃ opener last,
        style.block? = some (opener, last) ∧
          closer = last.toList

theorem awaits_none :
    Awaits style none :=
  trivial

theorem trimStart_append_return
    (line : List Char) :
    Text.trimStart (line ++ ['\r']) =
      if Text.trimStart line = [] then
        []
      else
        Text.trimStart line ++ ['\r'] := by
  have hReturn : Text.isBlank '\r' = true := by decide
  simp [Text.trimStart, List.dropWhile_append, hReturn]

theorem trim_append_return
    (text : List Char) :
    Text.trim (text ++ ['\r']) = Text.trim text :=
  Text.trim_append_of_blank (by simp [Text.Blank]; decide) text

theorem trim_withoutStar_append_return
    (line : List Char) :
    Text.trim (withoutStar (line ++ ['\r'])) =
      Text.trim (withoutStar line) := by
  unfold withoutStar
  rw [trimStart_append_return]
  cases Text.trimStart line with
  | nil => rfl
  | cons c rest =>
      by_cases hAdorned : c = '*'
      · simp [hAdorned, trim_append_return]
      · simpa [hAdorned] using trim_append_return (c :: rest)

/- A line goes on with an opener if it does without its end. -/
theorem isPrefix_trimStart_append_return
    {opener : List Char}
    (hOpener : IsDelimiter opener)
    (line : List Char) :
    opener <+: Text.trimStart (line ++ ['\r']) ↔
      opener <+: Text.trimStart line := by
  rw [trimStart_append_return]
  by_cases hBlank : Text.trimStart line = []
  · simp [hBlank]
  · rw [if_neg hBlank, List.prefix_concat_iff]
    constructor
    · rintro (rfl | hPrefix)
      · exact absurd (by simp) hOpener.no_return
      · exact hPrefix
    · exact Or.inr

theorem drop_trimStart_append_return
    {opener line : List Char}
    (hOpener : IsDelimiter opener)
    (hPrefix : opener <+: Text.trimStart line) :
    (Text.trimStart (line ++ ['\r'])).drop opener.length =
      (Text.trimStart line).drop opener.length ++ ['\r'] := by
  have hText : Text.trimStart line ≠ [] := by
    intro hEmpty
    rw [hEmpty, List.prefix_nil] at hPrefix
    exact hOpener.nonempty hPrefix
  rw [trimStart_append_return, if_neg hText,
    List.drop_append_of_le_length hPrefix.length_le]

/- What comes up to a closer does not depend on a return. -/
theorem front_append_return
    {closer : List Char}
    (hCloser : IsDelimiter closer)
    (text : List Char) :
    front closer (text ++ ['\r']) = front closer text ∨
      front closer (text ++ ['\r']) =
        front closer text ++ ['\r'] := by
  unfold front
  rw [before?_append_return hCloser]
  cases before? closer text <;> simp

theorem awaitedAfter_append_return
    {closer : List Char}
    (hCloser : IsDelimiter closer)
    (text : List Char) :
    awaitedAfter closer (text ++ ['\r']) =
      awaitedAfter closer text := by
  unfold awaitedAfter
  rw [before?_append_return hCloser]

theorem find?_append_return
    (hRegular : style.Regular)
    (line : List Char) :
    (style.line.find? fun opener =>
        opener.toList.isPrefixOf
          (Text.trimStart (line ++ ['\r']))) =
      style.line.find? fun opener =>
        opener.toList.isPrefixOf (Text.trimStart line) := by
  apply List.find?_congr
  intro opener hOpener
  rw [Bool.eq_iff_iff, List.isPrefixOf_iff_prefix,
    List.isPrefixOf_iff_prefix]
  exact isPrefix_trimStart_append_return
    (hRegular.line opener hOpener) line

theorem unopened_append_return
    (hRegular : style.Regular)
    {line : List Char}
    (hLine : Unopened style line) :
    Unopened style (line ++ ['\r']) := by
  intro opener hOpener
  rw [isPrefix_trimStart_append_return
    (hRegular.line opener hOpener)]
  exact hLine opener hOpener

theorem unblocked_append_return
    (hRegular : style.Regular)
    {line : List Char}
    (hLine : Unblocked style line) :
    Unblocked style (line ++ ['\r']) := by
  intro opener closer hBlock
  rw [isPrefix_trimStart_append_return
    (hRegular.block opener closer hBlock).1]
  exact hLine opener closer hBlock

/-
  A carriage return at the end of a line belongs neither to a
  delimiter nor to the text of a comment.
-/
theorem textOn_append_return
    (hRegular : style.Regular)
    {awaited : Option (List Char)}
    (hAwaited : Awaits style awaited)
    (line : List Char) :
    textOn style awaited (line ++ ['\r']) =
      textOn style awaited line := by
  cases awaited with
  | some closer =>
      rcases hAwaited with ⟨opener, last, hBlock, rfl⟩
      have hLast := (hRegular.block opener last hBlock).2
      rw [textOn_awaiting, textOn_awaiting,
        awaitedAfter_append_return hLast]
      rcases front_append_return hLast line with
        hSame | hEnd
      · rw [hSame]
      · rw [hEnd, trim_withoutStar_append_return]
  | none =>
      rcases line_cases style line with
        ⟨opener, hFirst⟩ | ⟨hLine, hNone⟩ |
          ⟨hLine, opener, closer, hBlock, hPrefix⟩
      · have hPrefix := List.find?_some hFirst
        have hOpener := List.mem_of_find?_eq_some hFirst
        rw [textOn_lineComment hFirst,
          textOn_lineComment
            ((find?_append_return hRegular line).trans
              hFirst),
          drop_trimStart_append_return
            (hRegular.line opener hOpener)
            (List.isPrefixOf_iff_prefix.mp hPrefix),
          trim_append_return]
      · rw [textOn_nothing hLine hNone,
          textOn_nothing
            (unopened_append_return hRegular hLine)
            (unblocked_append_return hRegular hNone)]
      · rcases hRegular.block opener closer hBlock with
          ⟨hFirst, hLast⟩
        rw [textOn_block hLine hBlock hPrefix,
          textOn_block
            (unopened_append_return hRegular hLine) hBlock
            ((isPrefix_trimStart_append_return hFirst
              line).mpr hPrefix),
          drop_trimStart_append_return hFirst hPrefix,
          awaitedAfter_append_return hLast]
        rcases front_append_return hLast
            ((Text.trimStart line).drop
              opener.toList.length) with
          hSame | hEnd
        · rw [hSame]
        · rw [hEnd, trim_append_return]

/- What is awaited after a line is the closer of the style. -/
theorem awaits_textOn
    {awaited : Option (List Char)}
    (hAwaited : Awaits style awaited)
    (line : List Char) :
    Awaits style (textOn style awaited line).2 := by
  have hAfter :
      ∀ opener closer text,
        style.block? = some (opener, closer) →
          Awaits style
            (awaitedAfter closer.toList text) := by
    intro opener closer text hBlock
    unfold awaitedAfter
    split
    · exact awaits_none
    · exact ⟨opener, closer, hBlock, rfl⟩
  cases awaited with
  | some closer =>
      rcases hAwaited with ⟨opener, last, hBlock, rfl⟩
      rw [textOn_awaiting]
      exact hAfter opener last line hBlock
  | none =>
      rcases line_cases style line with
        ⟨opener, hFirst⟩ | ⟨hLine, hNone⟩ |
          ⟨hLine, opener, closer, hBlock, hPrefix⟩
      · rw [textOn_lineComment hFirst]
        exact awaits_none
      · rw [textOn_nothing hLine hNone]
        exact awaits_none
      · rw [textOn_block hLine hBlock hPrefix]
        exact hAfter opener closer _ hBlock

------------------------------------------------------------
-- Texts
------------------------------------------------------------

/- The texts of the comments on lines, if they have any. -/
def texts
    (style : CommentStyle) :
    Option (List Char) → List (List Char) →
      List (Option (List Char))
  | _, [] => []
  | awaited, line :: rest =>
      (textOn style awaited line).1 ::
        texts style (textOn style awaited line).2 rest

/- What is awaited after lines. -/
def awaitedAtEnd
    (style : CommentStyle)
    (awaited : Option (List Char))
    (lines : List (List Char)) : Option (List Char) :=
  lines.foldl
    (fun awaited line => (textOn style awaited line).2)
    awaited

theorem texts_append
    (awaited : Option (List Char))
    (lines rest : List (List Char)) :
    texts style awaited (lines ++ rest) =
      texts style awaited lines ++
        texts style (awaitedAtEnd style awaited lines) rest := by
  induction lines generalizing awaited with
  | nil => rfl
  | cons line lines ih =>
      simp [texts, awaitedAtEnd, ih]

theorem awaits_awaitedAtEnd
    {awaited : Option (List Char)}
    (hAwaited : Awaits style awaited)
    (lines : List (List Char)) :
    Awaits style (awaitedAtEnd style awaited lines) := by
  induction lines generalizing awaited with
  | nil => exact hAwaited
  | cons line lines ih =>
      exact ih (awaits_textOn hAwaited line)

/- Carriage returns at the ends of lines do not matter. -/
theorem texts_map_withoutReturn
    (hRegular : style.Regular)
    {awaited : Option (List Char)}
    (hAwaited : Awaits style awaited)
    (lines : List (List Char)) :
    texts style awaited (lines.map Text.withoutReturn) =
        texts style awaited lines ∧
      awaitedAtEnd style awaited
          (lines.map Text.withoutReturn) =
        awaitedAtEnd style awaited lines := by
  induction lines generalizing awaited with
  | nil => exact ⟨rfl, rfl⟩
  | cons line lines ih =>
      have hLine :
          textOn style awaited (Text.withoutReturn line) =
            textOn style awaited line := by
        rcases Text.withoutReturn_cases line with hSame | hEnd
        · rw [hSame]
        · conv_rhs => rw [hEnd]
          rw [textOn_append_return hRegular hAwaited]
      have hLater := ih (awaits_textOn hAwaited line)
      simpa [texts, awaitedAtEnd, hLine] using hLater

/- The texts that there are, with the numbers of their lines. -/
def numbered :
    Nat → List (Option (List Char)) → List (Nat × List Char)
  | _, [] => []
  | number, none :: rest => numbered (number + 1) rest
  | number, some text :: rest =>
      (number, text) :: numbered (number + 1) rest

theorem numbered_append_none
    (number : Nat)
    (found : List (Option (List Char))) :
    numbered number (found ++ [none]) =
      numbered number found := by
  induction found generalizing number with
  | nil => rfl
  | cons text? found ih =>
      cases text? <;> simp [numbered, ih]

/- The comment line that a line holds, if it holds one. -/
def LineContent.comment? :
    LineContent → Option CommentLine
  | .comment line => some line
  | .blank | .code => none

/- One more comment line is the last one in the blocks. -/
theorem lines_step
    (gathering : Gathering)
    (content : LineContent) :
    (gathering.step content).blocks.flatMap
        CommentBlock.lines =
      gathering.blocks.flatMap CommentBlock.lines ++
        content.comment?.toList := by
  rcases gathering with ⟨closed, current?⟩
  cases content with
  | comment line =>
      cases current? with
      | none =>
          simp [Gathering.step, Gathering.blocks,
            CommentBlock.single, LineContent.comment?]
      | some block =>
          simp [Gathering.step, Gathering.blocks,
            CommentBlock.extend, LineContent.comment?]
  | blank =>
      simp [Gathering.step, LineContent.comment?]
  | code =>
      simp [Gathering.step, Gathering.blocks,
        LineContent.comment?]

/- All comment lines are in the blocks, in order. -/
theorem lines_gather
    (held : List LineContent) :
    (gather held).flatMap CommentBlock.lines =
      held.filterMap LineContent.comment? := by
  have hFold :
      ∀ gathering : Gathering,
        (held.foldl Gathering.step gathering).blocks.flatMap
            CommentBlock.lines =
          gathering.blocks.flatMap CommentBlock.lines ++
            held.filterMap LineContent.comment? := by
    induction held with
    | nil => simp
    | cons content held ih =>
        intro gathering
        rw [List.foldl_cons, ih, lines_step]
        cases content <;>
          simp [LineContent.comment?, List.filterMap_cons]
  exact hFold .empty

theorem comments_contents
    (awaited : Option (List Char))
    (number : Nat)
    (lines : List (List Char)) :
    ((contents style awaited number lines).filterMap
        LineContent.comment?).map
          (fun line => (line.number, line.content)) =
      numbered number (texts style awaited lines) := by
  induction lines generalizing awaited number with
  | nil => rfl
  | cons line lines ih =>
      cases hLine : onLine style awaited line with
      | mk part? later =>
          cases part? with
          | some part =>
              simp [contents, commentLine, texts, textOn,
                hLine, LineContent.comment?, numbered, ih]
          | none =>
              simp only [contents, texts, textOn, hLine]
              split <;>
                simp [LineContent.comment?,
                  List.filterMap_cons, numbered, ih]

/- The comment lines of a source, by its lines. -/
theorem lines_ofSource
    (language : Language)
    (source : String) :
    ((CommentBlock.ofSource language source).flatMap
        CommentBlock.lines).map
          (fun line => (line.number, line.content)) =
      numbered 1 (texts language.comments none
        (Text.lines source.toList)) := by
  unfold CommentBlock.ofSource
  rw [lines_gather, comments_contents]

end Comment

end Marginalia
