import Marginalia.Proofs.Comment.Places
import Mathlib.Data.List.Chain

/-
  The comment lines of a source are divided into blocks where
  something other than comments and blank lines is written,
  and nowhere else.

  Key definitions include:
    * `Comment.BlankBetween`
    * `Comment.WrittenBetween`
    * `Comment.HeldAfter`
    * `CommentBlock.Spans`
    * `Comment.Gathered`

  Main statements:
    * `Comment.Gathered.step`
    * `Comment.gathered_foldl`
    * `CommentBlock.maximal_ofSource`
-/

namespace Marginalia

namespace Comment

variable {style : CommentStyle}
variable {lines : List (List Char)}

------------------------------------------------------------
-- Lines between Two Lines
------------------------------------------------------------

/- All lines between those with the two numbers are blank. -/
def BlankBetween
    (lines : List (List Char))
    (low high : Nat) : Prop :=
  ∀ number,
    low < number →
      number < high →
        ∃ line,
          lines[number - 1]? = some line ∧ Text.Blank line

/- Some line between those with the two numbers is not. -/
def WrittenBetween
    (lines : List (List Char))
    (low high : Nat) : Prop :=
  ∃ number line,
    low < number ∧
      number < high ∧
        lines[number - 1]? = some line ∧ ¬ Text.Blank line

theorem WrittenBetween.mono
    {low high high' : Nat}
    (hWritten : WrittenBetween lines low high)
    (hHigh : high ≤ high') :
    WrittenBetween lines low high' := by
  rcases hWritten with
    ⟨number, line, hLow, hNumber, hLine, hText⟩
  exact ⟨number, line, hLow, by omega, hLine, hText⟩

/- A later line, with no more than blank lines before it. -/
def Near
    (lines : List (List Char))
    (low high : Nat) : Prop :=
  low < high ∧ BlankBetween lines low high

theorem near_succ
    (lines : List (List Char))
    (low : Nat) :
    Near lines low (low + 1) :=
  ⟨Nat.lt_succ_self low, fun number _ _ => by omega⟩

/- One more blank line behind does no harm. -/
theorem Near.of_blank
    {low high : Nat}
    {line : List Char}
    (hNear : Near lines low (high + 1))
    (hLine : lines[high]? = some line)
    (hBlank : Text.Blank line) :
    Near lines low (high + 2) := by
  rcases hNear with ⟨hLess, hBetween⟩
  refine ⟨by omega, fun number hLow hHigh => ?_⟩
  by_cases hLast : number = high + 1
  · subst hLast
    exact ⟨line, hLine, hBlank⟩
  · exact hBetween number hLow (by omega)

------------------------------------------------------------
-- Gathering
------------------------------------------------------------

/- The lines after that with the number hold the contents. -/
def HeldAfter
    (style : CommentStyle)
    (lines : List (List Char))
    (before : Nat)
    (held : List LineContent) : Prop :=
  ∀ index content,
    held[index]? = some content →
      ∃ line,
        lines[before + index]? = some line ∧
          content.Describes style (before + index + 1) line

namespace HeldAfter

variable {before : Nat}
variable {content : LineContent}
variable {held : List LineContent}

theorem head
    (hHeld : HeldAfter style lines before (content :: held)) :
    ∃ line,
      lines[before]? = some line ∧
        content.Describes style (before + 1) line :=
  hHeld 0 content rfl

theorem tail
    (hHeld : HeldAfter style lines before (content :: held)) :
    HeldAfter style lines (before + 1) held := by
  intro index other hOther
  have hLine := hHeld (index + 1) other hOther
  rw [← Nat.add_assoc, Nat.add_right_comm before] at hLine
  exact hLine

end HeldAfter

/- All lines of a source hold its contents. -/
theorem heldAfter_contents
    (style : CommentStyle)
    (lines : List (List Char)) :
    HeldAfter style lines 0 (contents style none 1 lines) := by
  intro index content hContent
  rw [Nat.zero_add, Nat.add_comm]
  exact describes_of_contents awaits_none hContent

end Comment

/-
  The block has the numbers of its first and of its last line,
  and only blank lines are between its comments.
-/
structure CommentBlock.Spans
    (block : CommentBlock)
    (lines : List (List Char)) : Prop where
  start :
    block.lines.head?.map CommentLine.number =
      some block.start
  finish :
    block.lines.getLast?.map CommentLine.number =
      some block.finish
  dense :
    block.lines.IsChain fun first second =>
      Comment.BlankBetween lines first.number second.number

namespace CommentBlock

variable {lines : List (List Char)}

theorem spans_single
    (lines : List (List Char))
    (line : CommentLine) :
    (single line).Spans lines :=
  ⟨rfl, rfl, .singleton line⟩

theorem Spans.nonempty
    {block : CommentBlock}
    (hSpans : block.Spans lines) :
    block.lines ≠ [] := by
  intro hNone
  have hStart := hSpans.start
  rw [hNone] at hStart
  cases hStart

/- With a later line, the last number is that of the line. -/
theorem Spans.extend
    {block : CommentBlock}
    {line : CommentLine}
    (hSpans : block.Spans lines)
    (hBlank :
      Comment.BlankBetween lines block.finish line.number) :
    (block.extend line).Spans lines := by
  refine ⟨?_, ?_, ?_⟩
  · show (block.lines ++ [line]).head?.map _ = some block.start
    rw [List.head?_append_of_ne_nil _ hSpans.nonempty]
    exact hSpans.start
  · show (block.lines ++ [line]).getLast?.map _ = _
    rw [List.getLast?_concat]
    rfl
  · refine List.isChain_append.mpr
      ⟨hSpans.dense, .singleton line, ?_⟩
    intro last hLast next hNext
    cases hNext
    have hFinish := hSpans.finish
    rw [hLast, Option.map_some, Option.some.injEq] at hFinish
    rw [hFinish]
    exact hBlank

end CommentBlock

namespace Comment

/- Between two blocks there is more than blank lines. -/
def Apart
    (lines : List (List Char))
    (first second : CommentBlock) : Prop :=
  WrittenBetween lines first.finish second.start

/-
  What is known of the blocks that were gathered up to the
  line with the given number: the open one may go on with the
  next line, and if none is open, a new one is apart from the
  last one that was closed.
-/
structure Gathered
    (lines : List (List Char))
    (number : Nat)
    (gathering : Gathering) : Prop where
  spans :
    ∀ block ∈ gathering.blocks, block.Spans lines
  apart : gathering.blocks.IsChain (Apart lines)
  opened :
    ∀ block ∈ gathering.current?,
      Near lines block.finish (number + 1)
  closed :
    gathering.current? = none →
      ∀ block ∈ gathering.blocks.getLast?,
        WrittenBetween lines block.finish (number + 1)

theorem gathered_empty
    (lines : List (List Char)) :
    Gathered lines 0 .empty :=
  ⟨nofun, .nil, nofun, fun _ => nofun⟩

namespace Gathered

variable {number : Nat}
variable {gathering : Gathering}

/- A comment on the next line goes on with the open block. -/
theorem comment
    {line : CommentLine}
    (hGathered : Gathered lines number gathering)
    (hNumber : line.number = number + 1) :
    Gathered lines (number + 1)
      (gathering.step (.comment line)) := by
  rcases gathering with ⟨closed, current?⟩
  have hNext : Near lines line.number (number + 2) := by
    rw [hNumber]
    exact near_succ lines (number + 1)
  cases current? with
  | none =>
      have hBlocks :
          Gathering.blocks ⟨closed, none⟩ = closed :=
        List.append_nil closed
      rcases hGathered with ⟨hSpans, hApart, _, hClosed⟩
      rw [hBlocks] at hSpans hApart hClosed
      refine ⟨?_, ?_, ?_, nofun⟩
      · exact List.forall_mem_append.mpr
          ⟨hSpans, List.forall_mem_singleton.mpr
            (CommentBlock.spans_single lines line)⟩
      · refine List.isChain_append.mpr
          ⟨hApart, .singleton _, ?_⟩
        intro last hLast first hFirst
        cases hFirst
        unfold Apart CommentBlock.single
        rw [hNumber]
        exact hClosed rfl last hLast
      · intro block hBlock
        cases hBlock
        exact hNext
  | some block =>
      rcases hGathered with ⟨hSpans, hApart, hOpened, _⟩
      rcases List.forall_mem_append.mp hSpans with
        ⟨hEarlier, hCurrent⟩
      rcases List.isChain_append.mp hApart with
        ⟨hChain, _, hLast⟩
      have hBlank := (hOpened block rfl).2
      rw [← hNumber] at hBlank
      refine ⟨?_, ?_, ?_, nofun⟩
      · exact List.forall_mem_append.mpr
          ⟨hEarlier, List.forall_mem_singleton.mpr
            ((hCurrent block List.mem_cons_self).extend
              hBlank)⟩
      -- The block still begins where it began.
      · refine List.isChain_append.mpr
          ⟨hChain, .singleton _, ?_⟩
        intro last hMember first hFirst
        cases hFirst
        exact hLast last hMember block rfl
      · intro extended hExtended
        cases hExtended
        exact hNext

/- A blank line changes nothing. -/
theorem blank
    {line : List Char}
    (hGathered : Gathered lines number gathering)
    (hLine : lines[number]? = some line)
    (hBlank : Text.Blank line) :
    Gathered lines (number + 1) gathering := by
  refine ⟨hGathered.spans, hGathered.apart, ?_, ?_⟩
  · intro block hBlock
    exact (hGathered.opened block hBlock).of_blank hLine hBlank
  · intro hNone block hBlock
    exact (hGathered.closed hNone block hBlock).mono
      (Nat.le_succ _)

/- A line of code divides what is before it from the rest. -/
theorem code
    {line : List Char}
    (hGathered : Gathered lines number gathering)
    (hLine : lines[number]? = some line)
    (hWritten : ¬ Text.Blank line) :
    Gathered lines (number + 1) (gathering.step .code) := by
  have hBlocks :
      (gathering.step .code).blocks = gathering.blocks :=
    List.append_nil gathering.blocks
  refine ⟨?_, ?_, nofun, ?_⟩
  · rw [hBlocks]
    exact hGathered.spans
  · rw [hBlocks]
    exact hGathered.apart
  · intro _ last hLast
    rw [hBlocks] at hLast
    cases hCurrent : gathering.current? with
    | none =>
        exact (hGathered.closed hCurrent last hLast).mono
          (Nat.le_succ _)
    | some block =>
        have hBlock : last = block := by
          unfold Gathering.blocks at hLast
          rw [hCurrent, Option.toList_some,
            List.getLast?_concat] at hLast
          exact (Option.some.inj hLast).symm
        have hNear := hGathered.opened block hCurrent
        rw [hBlock]
        exact ⟨number + 1, line, hNear.1, Nat.lt_succ_self _,
          hLine, hWritten⟩

/- Gathering what is held of one more line. -/
theorem step
    {content : LineContent}
    {line : List Char}
    (hGathered : Gathered lines number gathering)
    (hLine : lines[number]? = some line)
    (hContent : content.Describes style (number + 1) line) :
    Gathered lines (number + 1) (gathering.step content) := by
  cases content with
  | comment comment =>
      rcases hContent with ⟨part, _, rfl⟩
      exact hGathered.comment rfl
  | blank => exact hGathered.blank hLine hContent
  | code => exact hGathered.code hLine hContent

end Gathered

/- Gathering what is held of the lines, one after another. -/
theorem gathered_foldl
    {number : Nat}
    {gathering : Gathering}
    {held : List LineContent}
    (hGathered : Gathered lines number gathering)
    (hHeld : HeldAfter style lines number held) :
    Gathered lines (number + held.length)
      (held.foldl Gathering.step gathering) := by
  induction held generalizing number gathering with
  | nil => exact hGathered
  | cons content held ih =>
      rcases hHeld.head with ⟨line, hLine, hContent⟩
      have hLater :=
        ih (hGathered.step hLine hContent) hHeld.tail
      rw [List.length_cons, Nat.add_comm held.length,
        ← Nat.add_assoc]
      exact hLater

end Comment

------------------------------------------------------------
-- Blocks of Sources
------------------------------------------------------------

namespace CommentBlock

/-
  The blocks of a source are ordered and do not overlap. They
  are maximal: only blank lines are between the comments of a
  block, and never only blank lines between two blocks.
-/
theorem maximal_ofSource
    (language : Language)
    (source : String) :
    (∀ block ∈ ofSource language source,
        block.lines ≠ [] ∧
          block.lines.head?.map CommentLine.number =
              some block.start ∧
            block.lines.getLast?.map CommentLine.number =
              some block.finish) ∧
      ((ofSource language source).flatMap lines).Pairwise
          (fun first second =>
            first.number < second.number) ∧
        (∀ block ∈ ofSource language source,
          block.lines.IsChain fun first second =>
            Comment.BlankBetween (Text.lines source.toList)
              first.number second.number) ∧
          (ofSource language source).IsChain
            fun first second =>
              Comment.WrittenBetween
                (Text.lines source.toList)
                first.finish second.start := by
  have hGathered :=
    Comment.gathered_foldl
      (Comment.gathered_empty (Text.lines source.toList))
      (Comment.heldAfter_contents language.comments
        (Text.lines source.toList))
  refine ⟨?_, ascending_lines language source, ?_,
    hGathered.apart⟩
  · intro block hBlock
    have hSpans := hGathered.spans block hBlock
    exact ⟨hSpans.nonempty, hSpans.start, hSpans.finish⟩
  · exact fun block hBlock =>
      (hGathered.spans block hBlock).dense

/- Blank lines divide nothing, inside and outside of blocks. -/
example :
    (ofSource .go "// a\n\n/* b\n\n*/\nx\n\n// c\n").map
        (fun block => (block.start, block.finish)) =
      [(1, 5), (8, 8)] := by
  decide

end CommentBlock

end Marginalia
