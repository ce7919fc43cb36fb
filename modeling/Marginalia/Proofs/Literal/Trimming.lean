import Marginalia.Proofs.Before
import Marginalia.Proofs.Literal.Following
import Marginalia.Proofs.Probe

/-
  Where a literal stands does not matter, nor do the blanks
  at the end of its text, unless it is raw text.

  Key definitions include:
    * `Cursor.Trims`
    * `Alignment.trimmed`

  Main statements:
    * `Literal.seesColon_trims`
    * `Descriptor.fill_whole`
    * `Descriptor.fill_trims`
    * `Descriptor.fill_of_readValue`
-/

namespace Marginalia

------------------------------------------------------------
-- Blanks at the End
------------------------------------------------------------

namespace Cursor

variable {first second : Cursor}

/- More blanks are ahead of the first place. -/
def Trims
    (first second : Cursor) : Prop :=
  ∃ blanks, Text.Blank blanks ∧ Before blanks second first

/- If nothing but these were ahead, they have been passed. -/
def SettledTrims
    (first second : Cursor) : Prop :=
  ∃ blanks,
    Text.Blank blanks ∧ SettledBefore blanks second first

theorem Trims.of_append
    {blanks : List Char}
    (hBlanks : Text.Blank blanks)
    (hAhead : first.ahead = second.ahead ++ blanks) :
    Trims first second :=
  ⟨blanks, hBlanks, Or.inl hAhead⟩

/- No comma follows, as nothing visible does. -/
theorem commaNext_of_blank
    {blanks : List Char}
    (hBlanks : Text.Blank blanks) :
    CommaNext blanks := by
  intro c hHead
  rw [Text.trimStart_of_blank hBlanks] at hHead
  cases hHead

/- At the end of the shorter text, the other one is blank. -/
theorem Trims.blank
    (hTrims : Trims first second)
    (hPeek : second.peek = none) :
    Text.Blank first.ahead := by
  have hEnd := peek_eq_none_iff.mp hPeek
  rcases hTrims with
    ⟨blanks, hBlanks, hAhead | ⟨_, hAhead⟩⟩
  · rw [hAhead, hEnd, List.nil_append]
    exact hBlanks
  · rw [hAhead, Text.trimStart_of_blank hBlanks]
    exact List.forall_mem_nil _

/- What is next in the shorter text is next in the other. -/
theorem Trims.peek
    (hTrims : Trims first second)
    {c : Char}
    (hPeek : second.peek = some c) :
    first.peek = some c := by
  rcases hTrims with ⟨blanks, _, hBefore⟩
  exact (hBefore.ahead_of_peek hPeek).2

theorem Trims.peek_of_some
    (hTrims : Trims first second)
    {c : Char}
    (hPeek : first.peek = some c) :
    second.peek = some c ∨
      second.peek = none ∧ Text.Blank first.ahead := by
  cases hSecond : second.peek with
  | none => exact Or.inr ⟨rfl, hTrims.blank hSecond⟩
  | some d =>
      rw [hTrims.peek hSecond] at hPeek
      exact Or.inl hPeek

theorem SettledTrims.peek_eq
    (hSettled : SettledTrims first second) :
    second.peek = first.peek := by
  rcases hSettled with ⟨blanks, hBlanks, hBefore⟩
  cases hSecond : second.peek with
  | some c =>
      rw [(hBefore.before.ahead_of_peek hSecond).2]
  | none =>
      have hEnd := peek_eq_none_iff.mp hSecond
      rcases hBefore with ⟨hMore, _⟩ | ⟨_, hAhead⟩
      · exact absurd hEnd hMore
      · rw [Text.trimStart_of_blank hBlanks] at hAhead
        exact (peek_eq_none_iff.mpr hAhead).symm

/-
  A run up to a visible character ends at the same one in the
  shorter text, as no such character was trimmed.
-/
theorem Trims.spanUntil
    (hTrims : Trims first second)
    {p : Char → Bool}
    {c : Char}
    (hVisible : Text.isBlank c = false)
    (hPeek : (first.span p).2.peek = some c) :
    (second.span p).1 = (first.span p).1 ∧
      (second.span p).2.peek = some c ∧
        Trims (first.span p).2 (second.span p).2 := by
  rcases hTrims with ⟨blanks, hBlanks, hBefore⟩
  have hMore : second.ahead.dropWhile p ≠ [] := by
    intro hEnd
    have hRest :
        (first.span p).2.ahead ⊆ blanks := by
      rw [span_ahead]
      rcases hBefore with hAhead | ⟨_, hAhead⟩
      · rw [hAhead, List.dropWhile_append, hEnd]
        exact (List.dropWhile_sublist p).subset
      · rw [hAhead]
        exact fun d hMember =>
          (List.dropWhile_sublist _).subset
            ((List.dropWhile_sublist _).subset hMember)
    rcases peek_eq_some_iff.mp hPeek with ⟨rest, hAhead⟩
    rw [hAhead] at hRest
    rw [hBlanks c (hRest List.mem_cons_self)] at hVisible
    cases hVisible
  rcases hBefore.span_of_more hMore with ⟨hTaken, hAfter⟩
  have hAfterTrims :
      Trims (first.span p).2 (second.span p).2 :=
    .of_append hBlanks hAfter
  refine ⟨hTaken.symm, ?_, hAfterTrims⟩
  rcases hAfterTrims.peek_of_some hPeek with
    hSame | ⟨hNone, _⟩
  · exact hSame
  · exact absurd (peek_eq_none_iff.mp hNone) hMore

end Cursor

/-
  A text is aligned with the one that lacks blanks at its
  end. In the shorter text there are fewer rounds.
-/
def Alignment.trimmed : Alignment where
  rel := Cursor.Trims
  settled := Cursor.SettledTrims
  lacks := True
  rel_of_settled := by
    rintro first second ⟨blanks, hBlanks, hBefore⟩
    exact ⟨blanks, hBlanks, hBefore.before⟩
  settled_of_peek := by
    rintro first second c ⟨blanks, hBlanks, hBefore⟩ _ hPeek
    exact ⟨blanks, hBlanks, hBefore.settled hPeek⟩
  peek_some hTrims hFirst := hTrims.peek_of_some hFirst
  peek_none := by
    intro first second c hTrims hFirst hSecond
    rw [hTrims.peek hSecond] at hFirst
    cases hFirst
  settled_peek_some hSettled hFirst :=
    hSettled.peek_eq.trans hFirst
  settled_peek_none hSettled hFirst :=
    Or.inl (hSettled.peek_eq.trans hFirst)
  advance := by
    rintro first second c ⟨blanks, hBlanks, hBefore⟩ _ hPeek
    exact ⟨blanks, hBlanks, hBefore.advance hPeek⟩
  skipBlanks := by
    rintro first second ⟨blanks, hBlanks, hBefore⟩
    exact ⟨blanks, hBlanks, hBefore.skipBlanks⟩
  span := by
    rintro first second p hBlank hComma
      ⟨blanks, hBlanks, hBefore⟩
    have hTail := Cursor.commaNext_of_blank hBlanks
    rcases (Alignment.before hTail).span hBlank hComma
        hBefore with
      ⟨hTaken, hAfter⟩
    exact ⟨hTaken.symm, blanks, hBlanks, hAfter⟩
  spanBlank := by
    rintro first second p hBlank hComma
      ⟨blanks, hBlanks, hBefore⟩
    have hTail := Cursor.commaNext_of_blank hBlanks
    rcases (Alignment.before hTail).spanBlank hBlank hComma
        hBefore with
      ⟨hTaken, hAfter⟩
    exact ⟨hTaken.symm, blanks, hBlanks, hAfter⟩
  spanUntil hVisible hTrims hPeek :=
    hTrims.spanUntil hVisible hPeek
  length_le hLacks := absurd trivial hLacks

------------------------------------------------------------
-- Look-Aheads
------------------------------------------------------------

namespace Cursor

variable {target : Char}

/- Nothing is found in blanks. -/
theorem probe_of_blank
    (hTarget : Text.isBlank target = false)
    {blanks : List Char}
    (hBlanks : Text.Blank blanks)
    (mode : ProbeMode)
    (depth : Nat) :
    probe target mode depth blanks = false := by
  induction blanks generalizing mode with
  | nil => cases mode <;> rfl
  | cons c blanks ih =>
      have hBlank := hBlanks c List.mem_cons_self
      have hOther :
          ∀ d, Text.isBlank d = false → c ≠ d :=
        fun _ hVisible => Text.ne_of_isBlank hBlank hVisible
      have hRest := ih fun d hMember =>
        hBlanks d (List.mem_cons_of_mem _ hMember)
      cases mode with
      | plain =>
          rw [probe_cons_of_ordinary
            (Text.ordinary_of_isBlank hBlank)]
          · exact hRest .plain
          · exact fun hSame =>
              absurd hSame (hOther target hTarget)
      | quoted =>
          rw [probe, if_neg (hOther '\\' (by decide)),
            if_neg (hOther '"' (by decide))]
          exact hRest .quoted
      | escaped => exact hRest .quoted
      | backtick =>
          rw [probe, if_neg (hOther '`' (by decide))]
          exact hRest .backtick

/- Blanks at the end do not matter to a probe. -/
theorem probe_append_of_blank
    (hTarget : Text.isBlank target = false)
    {blanks : List Char}
    (hBlanks : Text.Blank blanks)
    (text : List Char)
    (mode : ProbeMode)
    (depth : Nat) :
    probe target mode depth (text ++ blanks) =
      probe target mode depth text := by
  induction text generalizing mode depth with
  | nil =>
      rw [List.nil_append,
        probe_of_blank hTarget hBlanks mode depth]
      cases mode <;> rfl
  | cons c text ih =>
      cases mode <;> simp [probe, ih]

end Cursor

namespace Literal

/- The look-ahead finds the same in the shorter text. -/
theorem seesColon_trims :
    LookFollows .trimmed seesColon seesColon := by
  rintro first second _ _
    ⟨⟨blanks, hBlanks, hBefore⟩, hPeek, hPeek'⟩ hRun
  have hAhead := (hBefore.ahead_of_peek hPeek').1
  cases hRun
  refine ⟨?_, ⟨blanks, hBlanks, hBefore⟩, hPeek, hPeek'⟩
  show second.hasTopLevel ':' = first.hasTopLevel ':'
  unfold Cursor.hasTopLevel
  rw [hAhead]
  exact (Cursor.probe_append_of_blank (by decide) hBlanks _ _
    _).symm

end Literal

------------------------------------------------------------
-- Frames
------------------------------------------------------------

namespace Descriptor

open Literal

variable {descriptor : Descriptor}

theorem fillFlat_whole
    {σ : Type}
    [Reader σ]
    (hRawFree : descriptor.RawFree)
    (target : Target) :
    descriptor.fillFlat (σ := σ) .whole target =
      descriptor.fillFlat .group target := by
  unfold fillFlat
  cases hKind : descriptor.kind with
  | raw => exact absurd hKind hRawFree.kind_ne
  | _ => rfl

/-
  What is not raw text is read in the same way alone and as
  an argument.
-/
theorem fill_whole
    {σ : Type}
    [Reader σ]
    (hRawFree : descriptor.RawFree)
    (target : Target) :
    descriptor.fill (σ := σ) .whole target =
      descriptor.fill .group target := by
  rw [fill_eq, fill_eq]
  cases descriptor with
  | plain kind =>
      simp only [fillFlat_whole hRawFree]
  | nested kind item =>
      cases kind with
      | slice => rfl
      | map => rfl
      | _ => simp only [fillFlat_whole hRawFree]

------------------------------------------------------------
-- Literals
------------------------------------------------------------

/-
  A literal is read in the same way without the blanks at the
  end of the text. There are rounds enough for it there.
-/
theorem fill_trims
    (hRawFree : descriptor.RawFree)
    {first second place : Cursor}
    {content content' : Value}
    (hTrims : Cursor.Trims first second)
    (hRun :
      descriptor.fill .group .dynamic (first, content) =
        .ok () (place, content')) :
    ∃ place',
      descriptor.fill .group .dynamic (second, content) =
          .ok () (place', content') ∧
        Cursor.Trims place place' := by
  have hFollows :=
    fillBy_follows seesColon_trims hRawFree .group .dynamic
  rw [fillBy_seesColon] at hFollows
  have hEnds :=
    (hFollows (first, content) (second, content) ()
      (place, content') ⟨hTrims, rfl⟩ hRun).and
      (descriptor.fill_advances _ .group .dynamic
        (second, content) (Nat.lt_succ_self _))
  cases hSecond :
    descriptor.fill .group .dynamic (second, content) with
  | ok result state =>
      rw [hSecond] at hEnds
      rcases hEnds with ⟨⟨_, hPlace, hContent⟩, _⟩
      refine ⟨state.1, ?_, hPlace⟩
      have hContent' : content' = state.2 := hContent
      rw [hContent']
  | error error state =>
      rw [hSecond] at hEnds
      exact absurd hEnds.1.2 hEnds.2.1

/- A grammar begins by skipping blanks. -/
theorem run_fill_skipBlanks
    (frame : Frame)
    (target : Target)
    (cursor : Cursor)
    (content : target.Content) :
    descriptor.fill frame target
        (cursor.skipBlanks, content) =
      descriptor.fill frame target (cursor, content) := by
  rw [fill_eq, run_bind, run_bind, Fill.run_lift,
    Fill.run_lift, Scan.run_skipBlanks, Scan.run_skipBlanks,
    Cursor.skipBlanks_skipBlanks]

/-
  What is read as the whole of a text is read at the end of
  any other text, where blanks at its end are left out.
-/
theorem fill_of_readValue
    (hRawFree : descriptor.RawFree)
    {text : String}
    (hRead : (descriptor.readValue text).result = .ok ())
    {cursor : Cursor}
    (hAhead : cursor.ahead = Text.trimEnd text.toList) :
    ∃ place,
      descriptor.fill .group .dynamic (cursor, Value.null) =
          .ok () (place, (descriptor.readValue text).content) ∧
        Text.Blank place.ahead := by
  rcases exists_fill_of_read hRead with ⟨whole, hRun, hEnd⟩
  rw [fill_whole hRawFree] at hRun
  rcases Text.exists_trimEnd_append_blank text.toList with
    ⟨blanks, hBlanks, hText⟩
  have hTrims : Cursor.Trims (.ofText text) cursor := by
    apply Cursor.Trims.of_append hBlanks
    rw [hAhead]
    exact hText
  rcases fill_trims hRawFree hTrims hRun with
    ⟨place, hPlace, ⟨rest, _, hBefore⟩⟩
  refine ⟨place, hPlace, ?_⟩
  rcases hBefore with hOwn | ⟨hNone, _⟩
  · intro c hMember
    apply hEnd c
    rw [hOwn]
    exact List.mem_append_left _ hMember
  · rw [hNone]
    exact List.forall_mem_nil _

end Descriptor

end Marginalia
