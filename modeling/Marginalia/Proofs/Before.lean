import Marginalia.Proofs.Follows

/-
  Places in a text that correspond to places in a longer one,
  which goes on with a tail.

  Key definitions include:
    * `Cursor.Before`
    * `Cursor.SettledBefore`
    * `Cursor.NextBefore`
    * `Cursor.CommaNext`
    * `Alignment.before`
-/

namespace Marginalia

------------------------------------------------------------
-- Places before a Tail
------------------------------------------------------------

namespace Cursor

variable {tail : List Char}
variable {first second : Cursor}

/-
  After what is ahead of the first place, the tail is ahead
  of the second one. At the end of the first text the blanks
  of the tail may have been passed already.
-/
def Before
    (tail : List Char)
    (first second : Cursor) : Prop :=
  second.ahead = first.ahead ++ tail ∨
    first.ahead = [] ∧ second.ahead = Text.trimStart tail

/- There, these blanks have been passed. -/
def SettledBefore
    (tail : List Char)
    (first second : Cursor) : Prop :=
  first.ahead ≠ [] ∧ second.ahead = first.ahead ++ tail ∨
    first.ahead = [] ∧ second.ahead = Text.trimStart tail

/- The character is next in the first text. -/
def NextBefore
    (tail : List Char)
    (c : Char)
    (first second : Cursor) : Prop :=
  Before tail first second ∧ first.peek = some c

theorem SettledBefore.before
    (hSettled : SettledBefore tail first second) :
    Before tail first second := by
  rcases hSettled with ⟨_, hAhead⟩ | hEnd
  · exact Or.inl hAhead
  · exact Or.inr hEnd

/- What is next in the first text is next in the second. -/
theorem Before.ahead_of_peek
    (hBefore : Before tail first second)
    {c : Char}
    (hPeek : first.peek = some c) :
    second.ahead = first.ahead ++ tail ∧
      second.peek = some c := by
  rcases peek_eq_some_iff.mp hPeek with ⟨rest, hAhead⟩
  rcases hBefore with hSecond | ⟨hEnd, _⟩
  · refine ⟨hSecond, ?_⟩
    apply peek_eq_some_iff.mpr
    exact ⟨rest ++ tail, by rw [hSecond, hAhead]; rfl⟩
  · rw [hEnd] at hAhead
    cases hAhead

/- Where a character is left, no blanks were passed. -/
theorem Before.settled
    (hBefore : Before tail first second)
    {c : Char}
    (hPeek : first.peek = some c) :
    SettledBefore tail first second := by
  left
  rcases peek_eq_some_iff.mp hPeek with ⟨rest, hAhead⟩
  constructor
  · rw [hAhead]
    exact List.cons_ne_nil c rest
  · exact (hBefore.ahead_of_peek hPeek).1

theorem Before.advance
    (hBefore : Before tail first second)
    {c : Char}
    (hPeek : first.peek = some c) :
    Before tail first.advance second.advance := by
  have hSecond := (hBefore.ahead_of_peek hPeek).1
  rcases peek_eq_some_iff.mp hPeek with ⟨rest, hAhead⟩
  left
  rw [advance_ahead, advance_ahead, hSecond, hAhead]
  rfl

/- Nothing stands in the text but blanks and then a comma. -/
def CommaNext
    (text : List Char) : Prop :=
  ∀ c, (Text.trimStart text).head? = some c → c = ','

theorem CommaNext.head
    (hTail : CommaNext tail)
    {c : Char}
    (hHead : tail.head? = some c) :
    Text.isBlank c = true ∨ c = ',' := by
  by_cases hBlank : Text.isBlank c = true
  · exact Or.inl hBlank
  · rw [Bool.not_eq_true] at hBlank
    right
    apply hTail
    rw [Text.trimStart_of_head hHead hBlank, hHead]

/- At the end of the first text, the second one goes on so. -/
theorem Before.peek_of_none
    (hTail : CommaNext tail)
    (hBefore : Before tail first second)
    (hPeek : first.peek = none)
    {c : Char}
    (hSecond : second.peek = some c) :
    Text.isBlank c = true ∨ c = ',' := by
  have hEnd := peek_eq_none_iff.mp hPeek
  unfold peek at hSecond
  rcases hBefore with hAhead | ⟨_, hAhead⟩
  · rw [hAhead, hEnd, List.nil_append] at hSecond
    exact hTail.head hSecond
  · rw [hAhead] at hSecond
    exact Or.inr (hTail c hSecond)

theorem SettledBefore.peek_of_none
    (hTail : CommaNext tail)
    (hSettled : SettledBefore tail first second)
    (hPeek : first.peek = none) :
    second.peek = none ∨ second.peek = some ',' := by
  have hEnd := peek_eq_none_iff.mp hPeek
  rcases hSettled with ⟨hMore, _⟩ | ⟨_, hAhead⟩
  · exact absurd hEnd hMore
  · cases hSecond : second.peek with
    | none => exact Or.inl rfl
    | some c =>
        right
        unfold peek at hSecond
        rw [hAhead] at hSecond
        rw [hTail c hSecond]

theorem Before.length_le
    (hBefore : Before tail first second) :
    first.ahead.length ≤ second.ahead.length := by
  rcases hBefore with hAhead | ⟨hEnd, _⟩
  · simp [hAhead]
  · simp [hEnd]

/- Blanks are passed in both texts. -/
theorem Before.skipBlanks
    (hBefore : Before tail first second) :
    SettledBefore tail first.skipBlanks
      second.skipBlanks := by
  unfold SettledBefore
  rw [skipBlanks_ahead, skipBlanks_ahead]
  rcases hBefore with hAhead | ⟨hEnd, hAhead⟩
  · rw [hAhead]
    unfold Text.trimStart
    rw [List.dropWhile_append]
    cases hTrim : first.ahead.dropWhile Text.isBlank with
    | nil => simp
    | cons c rest => simp
  · right
    rw [hEnd, hAhead]
    exact ⟨rfl, Text.trimStart_trimStart tail⟩

/-
  A run of characters ends in the first text where it does in
  the second one, if the tail does not go on with it.
-/
theorem Before.span
    {p : Char → Bool}
    (hTail : ∀ c, tail.head? = some c → p c = false)
    (hTrim : ∀ c,
      (Text.trimStart tail).head? = some c → p c = false)
    (hBefore : Before tail first second) :
    (second.span p).1 = (first.span p).1 ∧
      Before tail (first.span p).2 (second.span p).2 := by
  rcases hBefore with hAhead | ⟨hEnd, hAhead⟩
  · constructor
    · show second.ahead.takeWhile p = first.ahead.takeWhile p
      rw [hAhead, Text.takeWhile_append_of_head hTail]
    · left
      rw [span_ahead, span_ahead, hAhead,
        Text.dropWhile_append_of_head hTail]
  · have hSecond :
        second.ahead = first.ahead ++ Text.trimStart tail := by
      rw [hAhead, hEnd, List.nil_append]
    constructor
    · show second.ahead.takeWhile p = first.ahead.takeWhile p
      rw [hSecond, Text.takeWhile_append_of_head hTrim]
    · right
      rw [span_ahead, span_ahead, hSecond,
        Text.dropWhile_append_of_head hTrim, hEnd]
      exact ⟨rfl, rfl⟩

/- A run that ends inside of the first text is the same. -/
theorem Before.span_of_more
    {p : Char → Bool}
    (hBefore : Before tail first second)
    (hMore : first.ahead.dropWhile p ≠ []) :
    (second.span p).1 = (first.span p).1 ∧
      (second.span p).2.ahead =
        (first.span p).2.ahead ++ tail := by
  have hAhead : second.ahead = first.ahead ++ tail := by
    rcases hBefore with hAhead | ⟨hEnd, _⟩
    · exact hAhead
    · rw [hEnd] at hMore
      exact absurd rfl hMore
  have hDrop :
      (first.ahead ++ tail).dropWhile p =
        first.ahead.dropWhile p ++ tail := by
    rw [List.dropWhile_append]
    simp [hMore]
  have hSplit :
      (first.ahead ++ tail).takeWhile p ++
          (first.ahead.dropWhile p ++ tail) =
        first.ahead.takeWhile p ++
          (first.ahead.dropWhile p ++ tail) := by
    rw [← hDrop, List.takeWhile_append_dropWhile, hDrop,
      ← List.append_assoc, List.takeWhile_append_dropWhile]
  constructor
  · show second.ahead.takeWhile p = first.ahead.takeWhile p
    rw [hAhead]
    exact List.append_cancel_right hSplit
  · rw [span_ahead, span_ahead, hAhead, hDrop]

/- A run that has blanks ends at the comma, if not before. -/
theorem Before.span_to_comma
    {p : Char → Bool}
    (hBlank : ∀ c, Text.isBlank c = true → p c = true)
    (hComma : p ',' = false)
    (hTail : CommaNext tail)
    (hBefore : Before tail first second) :
    ∃ blanks,
      Text.Blank blanks ∧
        (second.span p).1 = (first.span p).1 ++ blanks ∧
          Before tail (first.span p).2
            (second.span p).2 := by
  by_cases hMore : first.ahead.dropWhile p = []
  · have hStop :
        ∀ c, (Text.trimStart tail).head? = some c →
          p c = false := by
      intro c hHead
      rw [hTail c hHead]
      exact hComma
    have hPass := List.dropWhile_eq_nil_iff.mp hMore
    -- The blanks of the tail may have been passed already.
    have hSecond :
        ∃ blanks,
          Text.Blank blanks ∧
            second.ahead =
              (first.ahead ++ blanks) ++
                Text.trimStart tail := by
      rcases hBefore with hAhead | ⟨hEnd, hAhead⟩
      · rcases Text.exists_blank_append_trimStart tail with
          ⟨blanks, hBlanks, hSplit⟩
        refine ⟨blanks, hBlanks, ?_⟩
        rw [hAhead, List.append_assoc, ← hSplit]
      · exact ⟨[], nofun, by rw [hAhead, hEnd]; rfl⟩
    rcases hSecond with ⟨blanks, hBlanks, hSecond⟩
    have hFront : ∀ c ∈ first.ahead ++ blanks, p c = true := by
      rw [List.forall_mem_append]
      exact ⟨hPass, fun c hMember =>
        hBlank c (hBlanks c hMember)⟩
    refine ⟨blanks, hBlanks, ?_, Or.inr ⟨hMore, ?_⟩⟩
    · show second.ahead.takeWhile p =
        first.ahead.takeWhile p ++ blanks
      rw [hSecond, Text.takeWhile_front hFront hStop,
        List.takeWhile_eq_self_iff.mpr hPass]
    · rw [span_ahead, hSecond,
        Text.dropWhile_front hFront hStop]
  · have hSame := hBefore.span_of_more hMore
    refine ⟨[], nofun, ?_, Or.inl hSame.2⟩
    rw [hSame.1, List.append_nil]

end Cursor

------------------------------------------------------------
-- Alignment
------------------------------------------------------------

open Cursor (Before SettledBefore CommaNext)

/-
  A text is aligned with one that goes on with a comma behind
  it. Nothing is lacking in the longer text.
-/
def Alignment.before
    {tail : List Char}
    (hTail : CommaNext tail) : Alignment where
  rel := Before tail
  settled := SettledBefore tail
  lacks := False
  rel_of_settled := SettledBefore.before
  settled_of_peek hBefore hFirst _ := hBefore.settled hFirst
  peek_some hBefore hFirst :=
    Or.inl (hBefore.ahead_of_peek hFirst).2
  peek_none hBefore hFirst hSecond :=
    hBefore.peek_of_none hTail hFirst hSecond
  settled_peek_some hSettled hFirst :=
    (hSettled.before.ahead_of_peek hFirst).2
  settled_peek_none := SettledBefore.peek_of_none hTail
  advance hBefore hFirst _ := hBefore.advance hFirst
  skipBlanks := Before.skipBlanks
  span := by
    intro first second p hBlank hComma hBefore
    apply hBefore.span
    · intro c hHead
      rcases hTail.head hHead with hOther | rfl
      · exact hBlank c hOther
      · exact hComma
    · intro c hHead
      rw [hTail c hHead]
      exact hComma
  spanBlank := by
    intro first second p hBlank hComma hBefore
    rcases hBefore.span_to_comma hBlank hComma hTail with
      ⟨blanks, hBlanks, hTaken, hAfter⟩
    refine ⟨?_, hAfter⟩
    rw [hTaken, Text.trim_append_of_blank hBlanks]
  spanUntil := by
    intro first second c p _ hBefore hPeek
    have hMore : first.ahead.dropWhile p ≠ [] := by
      intro hEnd
      rw [Cursor.peek_eq_none_iff.mpr hEnd] at hPeek
      cases hPeek
    rcases hBefore.span_of_more hMore with ⟨hTaken, hAfter⟩
    have hRest : Before tail (first.span p).2
        (second.span p).2 :=
      Or.inl hAfter
    exact ⟨hTaken, (hRest.ahead_of_peek hPeek).2, hRest⟩
  length_le _ hBefore := hBefore.length_le

end Marginalia
