import Marginalia.Proofs.Comment.Texts

/-
  Comment lines are cut out of the source: the line with their
  number has their content from their column on, and besides
  it only blanks and delimiters, or what follows a closer.

  Key definitions include:
    * `CommentStyle.Leads`
    * `CommentStyle.Trails`
    * `Comment.Part.CutFrom`
    * `Comment.LineContent.Describes`
    * `CommentLine.StandsIn`

  Main statements:
    * `Comment.Part.CutFrom.columnAt`
    * `Comment.onLine_cutFrom`
    * `Comment.describes_of_contents`
    * `CommentBlock.standsIn_of_mem_lines`
    * `CommentBlock.cut_of_mem_lines`
    * `CommentBlock.ascending_lines`
-/

namespace Marginalia

------------------------------------------------------------
-- Around the Text of a Comment
------------------------------------------------------------

namespace CommentStyle

variable {style : CommentStyle}

/-
  The delimiters with which the text of a comment may begin:
  the openers, and the star on the later lines of a block.
-/
inductive Opens
    (style : CommentStyle) : List Char → Prop where
  | line
      {opener : String}
      (hOpener : opener ∈ style.line) :
      Opens style opener.toList
  | block
      {opener closer : String}
      (hBlock : style.block? = some (opener, closer)) :
      Opens style opener.toList
  | star
      {opener closer : String}
      (hBlock : style.block? = some (opener, closer)) :
      Opens style ['*']

/- Blanks, a delimiter or none, and again blanks. -/
def Leads
    (style : CommentStyle)
    (front : List Char) : Prop :=
  ∃ indent delimiter gap,
    front = indent ++ (delimiter ++ gap) ∧
      Text.Blank indent ∧
        (delimiter = [] ∨ style.Opens delimiter) ∧
          Text.Blank gap

/- Blanks only, or blanks, a closer and anything after it. -/
def Trails
    (style : CommentStyle)
    (back : List Char) : Prop :=
  Text.Blank back ∨
    ∃ gap opener closer later,
      style.block? = some (opener, closer) ∧
        Text.Blank gap ∧
          back = gap ++ (closer.toList ++ later)

theorem leads_nil
    (style : CommentStyle) :
    style.Leads [] :=
  ⟨[], [], [], rfl, nofun, .inl rfl, nofun⟩

theorem Leads.append
    {front gap : List Char}
    (hFront : style.Leads front)
    (hGap : Text.Blank gap) :
    style.Leads (front ++ gap) := by
  rcases hFront with
    ⟨indent, delimiter, inner, rfl, hIndent, hOpens, hInner⟩
  refine ⟨indent, delimiter, inner ++ gap, by simp, hIndent,
    hOpens, ?_⟩
  exact List.forall_mem_append.mpr ⟨hInner, hGap⟩

theorem trails_nil
    (style : CommentStyle) :
    style.Trails [] :=
  .inl nofun

theorem Trails.append
    {back later : List Char}
    (hBack : style.Trails back)
    (hLater : style.Trails later) :
    style.Trails (back ++ later) := by
  rcases hBack with
    hBlank | ⟨gap, opener, closer, rest, hBlock, hGap, rfl⟩
  · rcases hLater with
      hBlank' | ⟨gap, opener, closer, rest, hBlock, hGap, rfl⟩
    · exact .inl (List.forall_mem_append.mpr
        ⟨hBlank, hBlank'⟩)
    · refine .inr ⟨back ++ gap, opener, closer, rest, hBlock,
        List.forall_mem_append.mpr ⟨hBlank, hGap⟩, ?_⟩
      rw [List.append_assoc]
  · refine .inr ⟨gap, opener, closer, rest ++ later, hBlock,
      hGap, ?_⟩
    simp only [List.append_assoc]

end CommentStyle

namespace Comment

variable {style : CommentStyle}

------------------------------------------------------------
-- Parts of Lines
------------------------------------------------------------

theorem indentBytes_eq
    (text : List Char) :
    indentBytes text =
      Text.byteLength (text.takeWhile Text.isBlank) := by
  have hBytes :
      Text.byteLength text =
        Text.byteLength (text.takeWhile Text.isBlank) +
          Text.byteLength (Text.trimStart text) := by
    rw [← Text.byteLength_append]
    exact congrArg _ List.takeWhile_append_dropWhile.symm
  unfold indentBytes
  omega

/-
  The line has the text of the part at its offset, with no
  more than a delimiter before it and a closer after it.
-/
def Part.CutFrom
    (part : Part)
    (style : CommentStyle)
    (line : List Char) : Prop :=
  ∃ front back,
    line = front ++ (part.text ++ back) ∧
      Text.byteLength front = part.offset ∧
        style.Leads front ∧ style.Trails back

namespace Part.CutFrom

variable {part : Part}
variable {line : List Char}

/-
  The offset is between characters of the line, and the column
  there counts the characters in front of the part.
-/
theorem columnAt
    (hPart : part.CutFrom style line) :
    ∃ front back,
      line = front ++ (part.text ++ back) ∧
        front.length + 1 = Comment.columnAt line part.offset ∧
          style.Leads front ∧ style.Trails back := by
  rcases hPart with
    ⟨front, back, rfl, hLength, hLeads, hTrails⟩
  refine ⟨front, back, rfl, ?_, hLeads, hTrails⟩
  unfold Comment.columnAt
  rw [← hLength, Text.upToByte?_append]

/- A line may go on with what trails. -/
theorem append
    {back : List Char}
    (hPart : part.CutFrom style line)
    (hBack : style.Trails back) :
    part.CutFrom style (line ++ back) := by
  rcases hPart with
    ⟨front, inner, rfl, hLength, hLeads, hInner⟩
  exact ⟨front, inner ++ back, by simp, hLength, hLeads,
    hInner.append hBack⟩

/- Blanks at the ends of a part belong to what is around it. -/
theorem trim
    (hPart : part.CutFrom style line) :
    part.trim.CutFrom style line := by
  rcases hPart with
    ⟨front, back, rfl, hLength, hLeads, hTrails⟩
  have hFront :
      Text.Blank (part.text.takeWhile Text.isBlank) :=
    fun c hMember => List.mem_takeWhile_imp hMember
  rcases Text.exists_trimEnd_append_blank
      (Text.trimStart part.text) with
    ⟨blanks, hBlanks, hText⟩
  refine ⟨front ++ part.text.takeWhile Text.isBlank,
    blanks ++ back, ?_, ?_, hLeads.append hFront,
    .append (.inl hBlanks) hTrails⟩
  · have hSplit :
        part.text =
          part.text.takeWhile Text.isBlank ++
            (part.trim.text ++ blanks) := by
      calc
        part.text =
            part.text.takeWhile Text.isBlank ++
              Text.trimStart part.text :=
          List.takeWhile_append_dropWhile.symm
        _ = part.text.takeWhile Text.isBlank ++
              (part.trim.text ++ blanks) :=
          congrArg _ hText
    conv_lhs => rw [hSplit]
    simp only [List.append_assoc]
  · rw [Text.byteLength_append, hLength, ← indentBytes_eq]
    rfl

end Part.CutFrom

/- A line without blanks in front. -/
theorem indented_cutFrom
    (line : List Char) :
    (indented line).CutFrom style line := by
  refine ⟨line.takeWhile Text.isBlank, [], ?_,
    (indentBytes_eq line).symm, ?_, style.trails_nil⟩
  · rw [List.append_nil]
    exact List.takeWhile_append_dropWhile.symm
  · exact style.leads_nil.append
      fun c hMember => List.mem_takeWhile_imp hMember

/- What comes after a delimiter at the beginning of a line. -/
theorem cutFrom_after?
    {line delimiter : List Char}
    {part : Part}
    (hDelimiter : style.Opens delimiter)
    (hPart : (indented line).after? delimiter = some part) :
    part.CutFrom style line := by
  unfold Part.after? at hPart
  split at hPart
  · rename_i hPrefix
    cases hPart
    rcases List.isPrefixOf_iff_prefix.mp hPrefix with
      ⟨rest, hRest⟩
    have hLine :
        line = line.takeWhile Text.isBlank ++
          (delimiter ++ rest) :=
      (List.takeWhile_append_dropWhile.symm).trans
        (congrArg _ hRest.symm)
    refine ⟨line.takeWhile Text.isBlank ++ delimiter, [], ?_,
      ?_, ?_, style.trails_nil⟩
    · rw [← hRest, List.drop_left, List.append_nil,
        List.append_assoc]
      exact hLine
    · rw [Text.byteLength_append, ← indentBytes_eq]
      rfl
    · refine ⟨line.takeWhile Text.isBlank, delimiter, [],
        by simp, ?_, .inr hDelimiter, nofun⟩
      exact fun c hMember => List.mem_takeWhile_imp hMember
  · cases hPart

/- The text before a closer goes up to the closer. -/
theorem before?_isPrefix
    {closer text front : List Char}
    (hFront : before? closer text = some front) :
    front ++ closer <+: text := by
  induction text generalizing front with
  | nil =>
      cases closer with
      | nil =>
          cases hFront
          exact List.prefix_refl _
      | cons c closer => cases hFront
  | cons c text ih =>
      unfold before? at hFront
      split at hFront
      · rename_i hPrefix
        cases hFront
        exact List.isPrefixOf_iff_prefix.mp hPrefix
      · rcases Option.map_eq_some_iff.mp hFront with
          ⟨later, hLater, rfl⟩
        exact (List.prefix_cons_inj c).mpr (ih hLater)

section Blocks

variable {opener closer : String}
variable (hBlock : style.block? = some (opener, closer))

include hBlock

/- What comes up to a closer is followed by what trails. -/
theorem exists_front_append
    (text : List Char) :
    ∃ back,
      text = front closer.toList text ++ back ∧
        style.Trails back := by
  unfold front
  cases hFront : before? closer.toList text with
  | none => exact ⟨[], by simp, style.trails_nil⟩
  | some front =>
      rcases before?_isPrefix hFront with ⟨later, hText⟩
      refine ⟨closer.toList ++ later, ?_, .inr ⟨[], opener,
        closer, later, hBlock, nofun, rfl⟩⟩
      rw [← List.append_assoc]
      exact hText.symm

theorem cutFrom_upTo
    {part : Part}
    {line : List Char}
    (hPart : part.CutFrom style line) :
    (upTo closer.toList part).1.CutFrom style line := by
  rw [upTo_eq]
  rcases exists_front_append hBlock part.text with
    ⟨later, hText, hLater⟩
  rcases hPart with
    ⟨front, back, rfl, hLength, hLeads, hTrails⟩
  refine ⟨front, later ++ back, ?_, hLength, hLeads,
    hLater.append hTrails⟩
  conv_lhs => rw [hText]
  simp only [List.append_assoc]

/- The star that may be dropped is in front of the part. -/
theorem blockContinuation_cutFrom
    (line : List Char) :
    (blockContinuation closer.toList line).1.CutFrom style
      line := by
  have hBody :
      ∀ text,
        (((indented text).after? ['*']).getD
          (indented text)).CutFrom style text := by
    intro text
    cases hStar : (indented text).after? ['*'] with
    | none => exact indented_cutFrom text
    | some part => exact cutFrom_after? (.star hBlock) hStar
  rcases exists_front_append hBlock line with
    ⟨back, hLine, hBack⟩
  have hPart :=
    (hBody (front closer.toList line)).append hBack
  rw [← hLine] at hPart
  unfold blockContinuation
  rw [upTo_eq]
  exact hPart

end Blocks

theorem lineComment?_cutFrom
    {line : List Char}
    {part : Part}
    (hLine : lineComment? style line = some part) :
    part.CutFrom style line := by
  rcases List.exists_of_findSome?_eq_some hLine with
    ⟨opener, hOpener, hPart⟩
  exact cutFrom_after? (.line hOpener) hPart

theorem blockOpening?_cutFrom
    {line : List Char}
    {opening : Part × Option (List Char)}
    (hLine : blockOpening? style line = some opening) :
    opening.1.CutFrom style line := by
  unfold blockOpening? at hLine
  cases hBlock : style.block? with
  | none =>
      rw [hBlock] at hLine
      cases hLine
  | some delimiters =>
      rcases delimiters with ⟨opener, closer⟩
      rw [hBlock] at hLine
      cases hPart :
          (indented line).after? opener.toList with
      | none => simp [hPart] at hLine
      | some part =>
          simp only [Option.bind_eq_bind, Option.bind_some,
            hPart] at hLine
          cases hLine
          exact cutFrom_upTo hBlock
            (cutFrom_after? (.block hBlock) hPart)

/-
  The comment on a line is cut out of the line, whether the
  line has an opener or goes on with a block.
-/
theorem onLine_cutFrom
    {awaited : Option (List Char)}
    (hAwaited : Awaits style awaited)
    {line : List Char}
    {part : Part}
    (hLine : (onLine style awaited line).1 = some part) :
    part.CutFrom style line := by
  unfold onLine at hLine
  split at hLine
  · rcases hAwaited with ⟨opener, closer, hBlock, rfl⟩
    cases hLine
    exact blockContinuation_cutFrom hBlock line
  · split at hLine
    · rename_i hComment
      cases hLine
      exact lineComment?_cutFrom hComment
    · split at hLine
      · rename_i hOpening
        cases hLine
        exact blockOpening?_cutFrom hOpening
      · cases hLine

------------------------------------------------------------
-- Lines of Sources
------------------------------------------------------------

/-
  What is held of a line is true of the line: a comment has
  its number and is cut out of it, blanks at the ends apart,
  and only lines of code are not blank otherwise.
-/
def LineContent.Describes
    (style : CommentStyle)
    (number : Nat)
    (line : List Char) : LineContent → Prop
  | .comment found =>
      ∃ part : Part,
        part.CutFrom style line ∧
          found = commentLine number line part
  | .blank => Text.Blank line
  | .code => ¬ Text.Blank line

/- What the lines hold describes them, one by one. -/
theorem describes_of_contents
    {awaited : Option (List Char)}
    (hAwaited : Awaits style awaited)
    {number index : Nat}
    {lines : List (List Char)}
    {content : LineContent}
    (hContent :
      (contents style awaited number lines)[index]? =
        some content) :
    ∃ line,
      lines[index]? = some line ∧
        content.Describes style (number + index) line := by
  induction lines generalizing awaited number index with
  | nil => cases hContent
  | cons line lines ih =>
      have hLater := awaits_textOn hAwaited line
      unfold textOn at hLater
      cases hLine : onLine style awaited line with
      | mk part? later =>
          rw [hLine] at hLater
          rw [contents, hLine] at hContent
          cases index with
          | succ index =>
              rcases ih hLater hContent with
                ⟨other, hOther, hDescribes⟩
              refine ⟨other, hOther, ?_⟩
              rw [← Nat.add_assoc, Nat.add_right_comm]
              exact hDescribes
          | zero =>
              refine ⟨line, rfl, ?_⟩
              cases hContent
              cases part? with
              | some part =>
                  exact ⟨part, onLine_cutFrom hAwaited
                    (by rw [hLine]), rfl⟩
              | none =>
                  dsimp only
                  split
                  · rename_i hBlank
                    exact List.all_eq_true.mp hBlank
                  · rename_i hWritten
                    exact fun hBlank =>
                      hWritten (List.all_eq_true.mpr hBlank)

/- The numbers of lines ascend from the first one. -/
theorem ascending_numbered
    (number : Nat)
    (found : List (Option (List Char))) :
    (∀ entry ∈ numbered number found, number ≤ entry.1) ∧
      (numbered number found).Pairwise fun first second =>
        first.1 < second.1 := by
  induction found generalizing number with
  | nil => exact ⟨nofun, .nil⟩
  | cons text? found ih =>
      rcases ih (number + 1) with ⟨hAbove, hAscending⟩
      cases text? with
      | none =>
          refine ⟨fun entry hEntry => ?_, hAscending⟩
          have hEntry := hAbove entry hEntry
          omega
      | some text =>
          rw [numbered, List.forall_mem_cons,
            List.pairwise_cons]
          refine ⟨⟨Nat.le_refl number, ?_⟩, hAbove,
            hAscending⟩
          intro entry hEntry
          have hEntry := hAbove entry hEntry
          omega

end Comment

------------------------------------------------------------
-- Comment Lines
------------------------------------------------------------

/-
  One of the lines has the number of the comment line, and it
  has the content of the comment line from its column on.
-/
def CommentLine.StandsIn
    (comment : CommentLine)
    (lines : List (List Char)) : Prop :=
  ∃ index line offset,
    lines[index]? = some line ∧
      comment.number = index + 1 ∧
        comment.column = offset + 1 ∧
          comment.content <+: line.drop offset

namespace CommentBlock

variable {language : Language}
variable {source : String}

/- A comment line is a part of the line with its number. -/
theorem exists_part_of_mem_lines
    {comment : CommentLine}
    (hComment :
      comment ∈ (ofSource language source).flatMap lines) :
    ∃ index line, ∃ part : Comment.Part,
      (Text.lines source.toList)[index]? = some line ∧
        part.CutFrom language.comments line ∧
          comment =
            Comment.commentLine (index + 1) line part := by
  unfold ofSource at hComment
  rw [Comment.lines_gather, List.mem_filterMap] at hComment
  rcases hComment with ⟨content, hContent, hHeld⟩
  rcases List.mem_iff_getElem?.mp hContent with
    ⟨index, hIndex⟩
  rcases Comment.describes_of_contents Comment.awaits_none
      hIndex with
    ⟨line, hLine, hDescribes⟩
  cases content with
  | blank | code => cases hHeld
  | comment other =>
      cases hHeld
      rcases hDescribes with ⟨part, hPart, rfl⟩
      rw [Nat.add_comm 1 index]
      exact ⟨index, line, part, hLine, hPart, rfl⟩

/- The comment lines of a source are where they say. -/
theorem standsIn_of_mem_lines
    {comment : CommentLine}
    (hComment :
      comment ∈ (ofSource language source).flatMap lines) :
    comment.StandsIn (Text.lines source.toList) ∧
      Text.trim comment.content = comment.content := by
  rcases exists_part_of_mem_lines hComment with
    ⟨index, line, part, hLine, hPart, rfl⟩
  rcases hPart.trim.columnAt with
    ⟨front, back, hSplit, hColumn, _, _⟩
  refine ⟨⟨index, line, front.length, hLine, rfl,
    hColumn.symm, ?_⟩, Text.trim_trim part.text⟩
  rw [hSplit, List.drop_left]
  exact List.prefix_append part.trim.text back

/-
  A comment line is cut out of the line with its number. All
  that is left of that line are blanks and one delimiter in
  front of its column, and blanks behind its content, or a
  closer with anything after it.
-/
theorem cut_of_mem_lines
    {comment : CommentLine}
    (hComment :
      comment ∈ (ofSource language source).flatMap lines) :
    1 ≤ comment.number ∧
      comment.number ≤ (Text.lines source.toList).length ∧
        (∃ line front back,
          (Text.lines source.toList)[comment.number - 1]? =
              some line ∧
            line = front ++ (comment.content ++ back) ∧
              front.length + 1 = comment.column ∧
                language.comments.Leads front ∧
                  language.comments.Trails back) ∧
          (∀ c, comment.content.head? = some c →
            Text.isBlank c = false) ∧
            ∀ c, comment.content.getLast? = some c →
              Text.isBlank c = false := by
  rcases exists_part_of_mem_lines hComment with
    ⟨index, line, part, hLine, hPart, rfl⟩
  rcases hPart.trim.columnAt with
    ⟨front, back, hSplit, hColumn, hLeads, hTrails⟩
  rcases List.getElem?_eq_some_iff.mp hLine with
    ⟨hIndex, _⟩
  refine ⟨Nat.le_add_left 1 index, hIndex,
    ⟨line, front, back, hLine, hSplit, hColumn, hLeads,
      hTrails⟩, ?_, ?_⟩
  · exact fun c => Text.isBlank_head_trim
  · exact fun c => Text.isBlank_getLast_trim

/-
  The star of a later line, between blanks of two kinds, and
  code behind the closer.
-/
theorem cut_of_mem_lines_star :
    let source := "/* a\n\u00A0*\t+x:y=1 */ z\n"
    let comment : CommentLine := ⟨2, 4, "+x:y=1".toList⟩
    comment ∈ (ofSource .rust source).flatMap lines ∧
      ∃ line front back,
        (Text.lines source.toList)[comment.number - 1]? =
            some line ∧
          line = front ++ (comment.content ++ back) ∧
            front.length + 1 = comment.column ∧
              Language.rust.comments.Leads front ∧
                Language.rust.comments.Trails back := by
  intro source comment
  have hComment :
      comment ∈ (ofSource .rust source).flatMap lines := by
    decide
  exact ⟨hComment, (cut_of_mem_lines hComment).2.2.1⟩

/- They are listed by ascending numbers. -/
theorem ascending_lines
    (language : Language)
    (source : String) :
    ((ofSource language source).flatMap lines).Pairwise
      fun first second => first.number < second.number := by
  have hNumbered :=
    (Comment.ascending_numbered 1
      (Comment.texts language.comments none
        (Text.lines source.toList))).2
  rw [← Comment.lines_ofSource, List.pairwise_map] at hNumbered
  exact hNumbered

end CommentBlock

end Marginalia
