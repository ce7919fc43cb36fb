import Marginalia.Proofs.Comment.Texts

/-
  Comments are found where they were written: a source that
  is put together from blank lines, lines of code and the two
  forms of comments yields the lines of these comments.

  Key definitions include:
    * `Comment.Segment`
    * `Comment.Segment.lines`
    * `Comment.Segment.comments`
    * `Comment.Segment.Fits`

  Main statements:
    * `Comment.texts_segment`
    * `Comment.texts_segments`
    * `CommentBlock.lines_ofSource_segments`
-/

namespace Marginalia

namespace Comment

variable {style : CommentStyle}

------------------------------------------------------------
-- Segments
------------------------------------------------------------

/-
  A part of a source that takes up whole lines. A block has
  the text on its first line, those on its later lines, and
  whatever else is on the line of its closer.
-/
inductive Segment where
  | blank (line : List Char)
  | code (line : List Char)
  | lineComment
      (indent : List Char)
      (opener : String)
      (text : List Char)
  | block
      (indent : List Char)
      (opener closer : String)
      (first : List Char)
      (later : List (List Char))
      (trailing : List Char)

/- Lines, of which the last one has the given end. -/
def closed
    (ending : List Char) :
    List Char → List (List Char) → List (List Char)
  | line, [] => [line ++ ending]
  | line, next :: later => line :: closed ending next later

namespace Segment

/- The lines as they are written. -/
def lines : Segment → List (List Char)
  | blank line => [line]
  | code line => [line]
  | lineComment indent opener text =>
      [indent ++ (opener.toList ++ text)]
  | block indent opener closer first later trailing =>
      closed (closer.toList ++ trailing)
        (indent ++ (opener.toList ++ first)) later

/- What is on each of the lines, if there is a comment. -/
def comments : Segment → List (Option (List Char))
  | blank _ => [none]
  | code _ => [none]
  | lineComment _ _ text => [some (Text.trim text)]
  | block _ _ _ first later _ =>
      some (Text.trim first) ::
        later.map fun text =>
          some (Text.trim (withoutStar text))

/-
  The segment is one of the language: code does not look like
  a comment, a line comment has the first opener with which
  it begins, and a block is not closed before its end.
-/
def Fits
    (style : CommentStyle) : Segment → Prop
  | blank line => Text.Blank line
  | code line =>
      ¬ Text.Blank line ∧
        Unopened style line ∧ Unblocked style line
  | lineComment indent opener text =>
      Text.Blank indent ∧
        (style.line.find? fun other =>
            other.toList.isPrefixOf
              (opener.toList ++ text)) =
          some opener
  | block indent opener closer first later _ =>
      Text.Blank indent ∧
        style.block? = some (opener, closer) ∧
          ∀ text ∈ first :: later,
            ¬ closer.toList <:+: text

instance decidableFits
    (style : CommentStyle) :
    (segment : Segment) → Decidable (segment.Fits style)
  | blank line => inferInstanceAs (Decidable (Text.Blank line))
  | code line =>
      inferInstanceAs
        (Decidable
          (¬ Text.Blank line ∧
            Unopened style line ∧ Unblocked style line))
  | lineComment indent opener text =>
      inferInstanceAs
        (Decidable
          (Text.Blank indent ∧
            (style.line.find? fun other =>
                other.toList.isPrefixOf
                  (opener.toList ++ text)) =
              some opener))
  | block indent opener closer first later _ =>
      inferInstanceAs
        (Decidable
          (Text.Blank indent ∧
            style.block? = some (opener, closer) ∧
              ∀ text ∈ first :: later,
                ¬ closer.toList <:+: text))

end Segment

------------------------------------------------------------
-- Blocks
------------------------------------------------------------

section Blocks

variable {closer : List Char}

theorem front_of_not_infix
    {text : List Char}
    (hText : ¬ closer <:+: text) :
    front closer text = text ∧
      awaitedAfter closer text = some closer := by
  simp [front, awaitedAfter, before?_eq_none hText]

theorem front_append_closer
    {first second : Char}
    (hCloser : closer = [first, second])
    (hDifferent : first ≠ second)
    {text : List Char}
    (hText : ¬ closer <:+: text)
    (trailing : List Char) :
    front closer (text ++ (closer ++ trailing)) = text ∧
      awaitedAfter closer (text ++ (closer ++ trailing)) =
        none := by
  subst hCloser
  have hFound := before?_append_pair hDifferent hText trailing
  simp [front, awaitedAfter, hFound]

/- The lines of a block after its first one. -/
theorem texts_awaiting
    (style : CommentStyle)
    {first second : Char}
    (hCloser : closer = [first, second])
    (hDifferent : first ≠ second)
    {line : List Char}
    {later : List (List Char)}
    (hTexts :
      ∀ text ∈ line :: later, ¬ closer <:+: text)
    (trailing : List Char) :
    texts style (some closer)
          (closed (closer ++ trailing) line later) =
        ((line :: later).map fun text =>
          some (Text.trim (withoutStar text))) ∧
      awaitedAtEnd style (some closer)
          (closed (closer ++ trailing) line later) =
        none := by
  induction later generalizing line with
  | nil =>
      have hLine := hTexts line List.mem_cons_self
      rcases front_append_closer hCloser hDifferent hLine
          trailing with
        ⟨hFront, hAwaited⟩
      simp [closed, texts, awaitedAtEnd, textOn_awaiting,
        hFront, hAwaited]
  | cons next later ih =>
      rcases List.forall_mem_cons.mp hTexts with
        ⟨hLine, hLater⟩
      rcases front_of_not_infix hLine with
        ⟨hFront, hAwaited⟩
      rcases ih hLater with ⟨hTexts, hEnd⟩
      constructor
      · simp [closed, texts, textOn_awaiting, hFront,
          hAwaited, hTexts]
      · simpa [closed, awaitedAtEnd, textOn_awaiting,
          hAwaited] using hEnd

end Blocks

/- A block is not taken for a comment of one line. -/
theorem unopened_block
    (hRegular : style.Regular)
    {opener closer : String}
    (hBlock : style.block? = some (opener, closer))
    {indent : List Char}
    (hIndent : Text.Blank indent)
    (rest : List Char) :
    Unopened style
      (indent ++ (opener.toList ++ rest)) := by
  intro other hOther hPrefix
  rw [(hRegular.block opener closer hBlock).1.trimStart_append
    hIndent] at hPrefix
  rcases hRegular.apart opener closer hBlock other hOther with
    ⟨hShorter, hLonger⟩
  rcases List.prefix_or_prefix_of_prefix hPrefix
      (List.prefix_append opener.toList rest) with
    hStart | hStart
  · exact hShorter hStart
  · exact hLonger hStart

/- The first line of a block. -/
theorem textOn_opening
    (hRegular : style.Regular)
    {opener closer : String}
    (hBlock : style.block? = some (opener, closer))
    {indent : List Char}
    (hIndent : Text.Blank indent)
    (rest : List Char) :
    textOn style none (indent ++ (opener.toList ++ rest)) =
      (some (Text.trim (front closer.toList rest)),
        awaitedAfter closer.toList rest) := by
  have hStart :=
    (hRegular.block opener closer hBlock).1.trimStart_append
      hIndent rest
  have hPrefix :
      opener.toList <+:
        Text.trimStart
          (indent ++ (opener.toList ++ rest)) := by
    rw [hStart]
    exact List.prefix_append opener.toList rest
  rw [textOn_block
    (unopened_block hRegular hBlock hIndent rest) hBlock
    hPrefix, hStart, List.drop_left]

------------------------------------------------------------
-- Sources
------------------------------------------------------------

/- A blank line is outside of comments. -/
theorem textOn_blank
    (hRegular : style.Regular)
    {line : List Char}
    (hLine : Text.Blank line) :
    textOn style none line = (none, none) := by
  have hEmpty : Text.trimStart line = [] :=
    Text.trimStart_of_blank hLine
  apply textOn_nothing
  · intro opener hOpener
    simp [hEmpty, (hRegular.line opener hOpener).nonempty]
  · intro opener closer hBlock
    simp [hEmpty,
      (hRegular.block opener closer hBlock).1.nonempty]

/-
  The comments of a segment are found, and after it no closer
  is awaited.
-/
theorem texts_segment
    (hRegular : style.Regular)
    {segment : Segment}
    (hFits : segment.Fits style) :
    texts style none segment.lines = segment.comments ∧
      awaitedAtEnd style none segment.lines = none := by
  cases segment with
  | blank line =>
      simp [Segment.lines, Segment.comments, texts,
        awaitedAtEnd, textOn_blank hRegular hFits]
  | code line =>
      simp [Segment.lines, Segment.comments, texts,
        awaitedAtEnd, textOn_nothing hFits.2.1 hFits.2.2]
  | lineComment indent opener text =>
      rcases hFits with ⟨hIndent, hFirst⟩
      have hOpener := List.mem_of_find?_eq_some hFirst
      have hStart :=
        (hRegular.line opener hOpener).trimStart_append
          hIndent text
      rw [← hStart] at hFirst
      have hText := textOn_lineComment hFirst
      rw [hStart, List.drop_left] at hText
      simp [Segment.lines, Segment.comments, texts,
        awaitedAtEnd, hText]
  | block indent opener closer first later trailing =>
      rcases hFits with ⟨hIndent, hBlock, hTexts⟩
      rcases hRegular.closer opener closer hBlock with
        ⟨c, d, hCloser, hDifferent⟩
      rcases List.forall_mem_cons.mp hTexts with
        ⟨hFirst, hLater⟩
      have hOpening :=
        textOn_opening hRegular hBlock hIndent
      cases later with
      | nil =>
          rcases front_append_closer hCloser hDifferent
              hFirst trailing with
            ⟨hFront, hAwaited⟩
          simp [Segment.lines, Segment.comments, closed, texts,
            awaitedAtEnd, hOpening, hFront, hAwaited]
      | cons next later =>
          rcases front_of_not_infix hFirst with
            ⟨hFront, hAwaited⟩
          rcases texts_awaiting style hCloser hDifferent
              hLater trailing with
            ⟨hFound, hEnd⟩
          constructor
          · simp [Segment.lines, Segment.comments, closed,
              texts, hOpening, hFront, hAwaited, hFound]
          · simpa [Segment.lines, closed, awaitedAtEnd,
              hOpening, hAwaited] using hEnd

/- So are those of segments, one after the other. -/
theorem texts_segments
    (hRegular : style.Regular)
    {segments : List Segment}
    (hFits : ∀ segment ∈ segments, segment.Fits style) :
    texts style none (segments.flatMap Segment.lines) =
        segments.flatMap Segment.comments ∧
      awaitedAtEnd style none
          (segments.flatMap Segment.lines) =
        none := by
  induction segments with
  | nil => exact ⟨rfl, rfl⟩
  | cons segment segments ih =>
      rcases List.forall_mem_cons.mp hFits with
        ⟨hFirst, hLater⟩
      rcases texts_segment hRegular hFirst with
        ⟨hFound, hAwaited⟩
      rcases ih hLater with ⟨hFoundLater, hEnd⟩
      simp only [List.flatMap_cons]
      constructor
      · rw [texts_append, hAwaited, hFound, hFoundLater]
      · unfold awaitedAtEnd at hAwaited hEnd ⊢
        rw [List.foldl_append, hAwaited, hEnd]

/-
  The text has the given lines. The end of the last one may
  be missing.
-/
def HasLines
    (text : List Char)
    (written : List (List Char)) : Prop :=
  text = Text.joinLines written ∨
    text ++ ['\n'] = Text.joinLines written

/- An empty line leaves a block open, and nothing else. -/
theorem textOn_nil
    (hRegular : style.Regular)
    {awaited : Option (List Char)}
    (hAwaited : Awaits style awaited)
    (hAfter : (textOn style awaited []).2 = none) :
    (textOn style awaited []).1 = none := by
  cases awaited with
  | none =>
      have hBlank : Text.Blank [] := by simp [Text.Blank]
      rw [textOn_blank hRegular hBlank]
  | some closer =>
      rcases hAwaited with ⟨opener, last, hBlock, rfl⟩
      have hCloser := (hRegular.block opener last hBlock).2
      simp [textOn_awaiting, awaitedAfter, before?,
        hCloser.nonempty] at hAfter

/-
  The comments on the lines of a text are those on the lines
  from which it is put together.
-/
theorem numbered_texts_lines
    (hRegular : style.Regular)
    {text : List Char}
    {written : List (List Char)}
    (hText : HasLines text written)
    (hFeeds : ∀ line ∈ written, '\n' ∉ line)
    (hEnd : awaitedAtEnd style none written = none)
    (number : Nat) :
    numbered number (texts style none (Text.lines text)) =
      numbered number (texts style none written) := by
  rcases hText with rfl | hText
  · have hLines := Text.lines_joinLines_append hFeeds []
    rw [List.append_nil] at hLines
    rw [hLines]
    simp [Text.lines,
      (texts_map_withoutReturn hRegular awaits_none written).1]
  · rcases List.eq_nil_or_concat written with
      rfl | ⟨front, last, rfl⟩
    · simp [Text.joinLines] at hText
    · rw [List.concat_eq_append] at *
      have hSplit : text = Text.joinLines front ++ last := by
        simpa [Text.joinLines, ← List.append_assoc]
          using hText
      have hFront : ∀ line ∈ front, '\n' ∉ line := by
        intro line hLine
        exact hFeeds line (List.mem_append_left _ hLine)
      have hLast : '\n' ∉ last :=
        hFeeds last (by simp)
      rcases texts_map_withoutReturn hRegular awaits_none
          front with
        ⟨hFound, hAwaited⟩
      rw [hSplit, Text.lines_joinLines_append hFront,
        texts_append, texts_append, hFound, hAwaited]
      by_cases hEmpty : last = []
      · subst hEmpty
        have hNone :=
          textOn_nil hRegular
            (awaits_awaitedAtEnd awaits_none front)
            (by simpa [awaitedAtEnd] using hEnd)
        simp [Text.lines, texts, hNone, numbered_append_none]
      · rw [Text.lines_of_no_feed hLast hEmpty]

end Comment

/-
  The comment lines of a source that is put together from
  segments are those of its segments, with the numbers of the
  lines they are on.
-/
theorem CommentBlock.lines_ofSource_segments
    (language : Language)
    {segments : List Comment.Segment}
    (hFits :
      ∀ segment ∈ segments,
        segment.Fits language.comments)
    (hFeeds :
      ∀ segment ∈ segments,
        ∀ line ∈ segment.lines, '\n' ∉ line)
    {source : String}
    (hSource :
      Comment.HasLines source.toList
        (segments.flatMap Comment.Segment.lines)) :
    ((ofSource language source).flatMap lines).map
        (fun line => (line.number, line.content)) =
      Comment.numbered 1
        (segments.flatMap Comment.Segment.comments) := by
  have hRegular := language.comments_regular
  rcases Comment.texts_segments hRegular hFits with
    ⟨hFound, hEnd⟩
  have hWritten :
      ∀ line ∈ segments.flatMap Comment.Segment.lines,
        '\n' ∉ line := by
    intro line hLine
    rcases List.mem_flatMap.mp hLine with
      ⟨segment, hSegment, hLine⟩
    exact hFeeds segment hSegment line hLine
  rw [Comment.lines_ofSource,
    Comment.numbered_texts_lines hRegular hSource hWritten
      hEnd, hFound]

/-
  Code, a block with a gutter whose text looks like another
  comment, and a comment of documentation.
-/
theorem CommentBlock.lines_ofSource_segments_gutter :
    let segments : List Comment.Segment :=
      [.code "let url = \"//x\";".toList,
        .block "  ".toList "/*" "*/" " +a:b=1".toList
          [" * // c".toList, " ** d".toList]
          " // e".toList,
        .blank [],
        .lineComment [] "///" " f".toList]
    ((ofSource .rust
          (String.ofList (Text.joinLines
            (segments.flatMap
              Comment.Segment.lines)))).flatMap
        lines).map
        (fun line => (line.number, line.content)) =
      [(2, "+a:b=1".toList), (3, "// c".toList),
        (4, "* d".toList), (6, "f".toList)] := by
  intro segments
  have hFits :
      ∀ segment ∈ segments,
        segment.Fits Language.rust.comments := by
    decide +kernel
  have hFeeds :
      ∀ segment ∈ segments,
        ∀ line ∈ segment.lines, '\n' ∉ line := by
    decide
  have hSource :
      Comment.HasLines
        (String.ofList (Text.joinLines
          (segments.flatMap Comment.Segment.lines))).toList
        (segments.flatMap Comment.Segment.lines) :=
    Or.inl String.toList_ofList
  rw [lines_ofSource_segments .rust hFits hFeeds hSource]
  decide

end Marginalia
