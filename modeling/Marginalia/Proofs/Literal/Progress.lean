import Marginalia.Proofs.Literal.Forms
import Marginalia.Proofs.Text

/-
  Reading a literal terminates: whatever the descriptor, the
  destination and the text, the cursor only moves ahead, and
  the rounds that the loops are granted suffice.

  Main declarations:
    * `Literal.string_advances`
    * `Literal.inferElement_advances`
    * `Descriptor.fill_advances`
    * `Descriptor.read_answers`
-/

namespace Marginalia

open ReadError (Lexical Answers)

variable {bound : Nat}

namespace Literal

------------------------------------------------------------
-- Strings
------------------------------------------------------------

theorem scalarOf_advances
    (digits : List Char)
    (start : Nat) :
    Advances id Lexical bound (fun _ => False)
      (scalarOf digits start) := by
  unfold scalarOf
  split
  · exact .pure not_false
  · exact .wrong _ _ _

theorem hexDigits_advances
    (count : Nat) :
    Advances id Lexical bound (fun _ => False)
      (hexDigits count) := by
  induction count with
  | zero => exact .pure not_false
  | succ count ih =>
      unfold hexDigits
      apply Advances.peek.bind'
      intro next
      split
      · split
        · apply Advances.skip.bind'
          intro _
          exact ih.bind' fun _ => .pure not_false
        · exact .pure not_false
      · exact .pure not_false

theorem scalarOfLength_advances
    (count start : Nat) :
    Advances id Lexical bound (fun _ => False)
      (scalarOfLength count start) := by
  apply (hexDigits_advances count).bind'
  intro digits
  split
  · exact .wrong _ _ _
  · exact scalarOf_advances _ _

theorem escape_advances
    (letter : Char)
    (start : Nat) :
    Advances id Lexical bound (fun _ => False)
      (escape letter start) := by
  unfold escape
  split
  · exact .pure not_false
  · split
    · exact scalarOfLength_advances _ _
    · apply (Advances.eat _).bind'
      intro opened
      split
      · apply (Advances.takeWhile _).bind'
        intro digits
        apply (Advances.eat _).bind'
        intro closed
        split
        · exact scalarOf_advances _ _
        · exact .unexpected _ _
      · exact scalarOfLength_advances _ _
    · exact scalarOfLength_advances _ _
    · exact .wrong _ _ _

/- Every round of a quoted string passes a character. -/
theorem quotedRound_advances
    (start : Nat)
    (read : List Char) :
    Advances id Lexical bound
      (fun step => ∃ next, step = .again next)
      (quotedRound start read) := by
  apply Advances.position.bind'
  intro place
  apply Advances.next.bind
  intro next
  split
  · exact .throw trivial
  · exact .pure (by simp)
  · apply Advances.next.bind'
    intro letter
    split
    · exact .throw trivial
    · apply (escape_advances _ _).bind'
      intro c
      exact .pure (by simp)
  · exact .pure (by simp)

/- A quoted string passes its opening delimiter. -/
theorem quoted_advancesFrom
    {cursor : Cursor}
    {c : Char}
    (hPeek : cursor.peek = some c) :
    AdvancesFrom id Lexical (fun _ => True) quoted cursor := by
  rw [quoted_eq]
  apply AdvancesFrom.delimited hPeek
  intro start place hPlace
  exact Advances.loop (quotedRound_advances start) _ _ hPlace

theorem backtick_advancesFrom
    {cursor : Cursor}
    {c : Char}
    (hPeek : cursor.peek = some c) :
    AdvancesFrom id Lexical (fun _ => True) backtick cursor := by
  apply AdvancesFrom.delimited hPeek
  intro start place hPlace
  refine ((Advances.takeWhile _).bind' fun body => ?_)
    _ hPlace
  apply (Advances.eat _).bind'
  intro closed
  split
  · exact .pure not_false
  · exact .throw trivial

theorem bare_advances
    (stops : List Char) :
    Advances id Lexical bound (fun _ => False) (bare stops) :=
  (Advances.takeWhile _).bind' fun _ => .pure not_false

theorem string_advances
    (stops : List Char) :
    Advances id Lexical bound (fun _ => False) (string stops) := by
  intro cursor hCursor
  apply AdvancesFrom.peek
  split
  · rename_i hPeek
    exact (quoted_advancesFrom hPeek).imp (by simp)
  · rename_i hPeek
    exact (backtick_advancesFrom hPeek).imp (by simp)
  · exact bare_advances _ cursor hCursor

/- Every round of a balanced text passes something. -/
theorem balancedRound_advances
    (stops : List Char)
    (depth : Nat) :
    Advances id Lexical bound
      (fun step => ∃ next, step = .again next)
      (balancedRound stops depth) := by
  intro cursor _
  apply AdvancesFrom.peek
  split
  · exact .pure (by simp)
  · rename_i c hPeek
    refine .ite (fun _ => .pure (by simp)) (fun _ => ?_)
    have hSkip :
        ∀ depth' : Nat,
          AdvancesFrom id Lexical
            (fun step => ∃ next, step = .again next)
            (do
              Scan.skip
              return (Step.again depth' : Step Nat Unit))
            cursor := by
      intro depth'
      apply (AdvancesFrom.skip hPeek).bind
      intro _ _ _ _
      exact .pure (by simp)
    unfold balancedStep
    split
    · apply (quoted_advancesFrom hPeek).bind
      intro _ _ _ _
      exact .pure (by simp)
    · apply (backtick_advancesFrom hPeek).bind
      intro _ _ _ _
      exact .pure (by simp)
    · exact hSkip _
    · exact hSkip _
    · exact hSkip _
    · exact hSkip _
    · exact hSkip _

theorem balanced_advances
    (stops : List Char) :
    Advances id Lexical bound (fun _ => False)
      (balanced stops) := by
  rw [balanced_eq]
  apply Advances.get.bind'
  intro start
  apply (Advances.loop (balancedRound_advances stops) 0).bind'
  intro _
  exact Advances.get.bind' fun now => .pure not_false

theorem remainder_advances :
    Advances id Lexical bound (fun _ => False) remainder := by
  intro cursor _
  exact ⟨Cursor.Reaches.span cursor _, False.elim⟩

------------------------------------------------------------
-- Scalars
------------------------------------------------------------

theorem storeBool_advances
    (target : Target)
    (word : String)
    (start : Nat) :
    Advances Prod.fst Answers bound (fun _ => False)
      (storeBool target word start) := by
  unfold storeBool
  split
  · exact .store _ _ _
  · exact .store _ _ _
  · exact (Advances.unexpected _ _).answers.lift
  · exact (Advances.wrong _ _ _).answers.lift

theorem fillBool_advances
    (target : Target) :
    Advances Prod.fst Answers bound (fun _ => False)
      (fillBool target) := by
  rw [fillBool_eq]
  apply Advances.position.lift.bind'
  intro start
  apply (Advances.takeWhile _).lift.bind'
  intro word
  exact storeBool_advances _ _ _

theorem storeSigned_advances
    (target : Target)
    (negative : Bool)
    (digits : List Char)
    (start : Nat) :
    Advances Prod.fst Answers bound (fun _ => False)
      (storeSigned target negative digits start) := by
  unfold storeSigned
  refine .ite ?_ ?_
  · exact .store _ _ _
  · exact .throw nofun

theorem storeUnsigned_advances
    (target : Target)
    (digits : List Char)
    (start : Nat) :
    Advances Prod.fst Answers bound (fun _ => False)
      (storeUnsigned target digits start) := by
  unfold storeUnsigned
  refine .ite ?_ ?_
  · exact .store _ _ _
  · exact .throw nofun

theorem fillSigned_advances
    (target : Target) :
    Advances Prod.fst Answers bound (fun _ => False)
      (fillSigned target) := by
  rw [fillSigned_eq]
  apply Advances.position.lift.bind'
  intro start
  apply (Advances.eat _).lift.bind'
  intro negative
  apply Advances.position.lift.bind'
  intro digitsStart
  apply (Advances.takeWhile _).lift.bind'
  intro digits
  refine .ite ?_ ?_
  · exact (Advances.unexpected _ _).answers.lift
  · exact storeSigned_advances target negative digits start

theorem fillUnsigned_advances
    (target : Target) :
    Advances Prod.fst Answers bound (fun _ => False)
      (fillUnsigned target) := by
  rw [fillUnsigned_eq]
  apply Advances.position.lift.bind'
  intro start
  apply Advances.peek.lift.bind'
  intro next
  refine .ite ?_ ?_
  · exact (Advances.unexpected _ _).answers.lift
  · apply (Advances.takeWhile _).lift.bind'
    intro digits
    refine .ite ?_ ?_
    · exact (Advances.unexpected _ _).answers.lift
    · exact storeUnsigned_advances target digits start

theorem fillString_advances
    (target : Target) :
    Advances Prod.fst Answers bound (fun _ => False)
      (fillString target) := by
  apply Advances.position.lift.bind'
  intro start
  apply (string_advances _).answers.lift.bind'
  intro value
  exact .store _ _ _

theorem fillRaw_advances
    (frame : Frame)
    (target : Target) :
    Advances Prod.fst Answers bound (fun _ => False)
      (fillRaw frame target) := by
  apply Advances.position.lift.bind'
  intro start
  dsimp only
  split
  · apply remainder_advances.answers.lift.bind'
    intro raw
    exact .store _ _ _
  · apply (balanced_advances _).answers.lift.bind'
    intro raw
    exact .store _ _ _

------------------------------------------------------------
-- Groups
------------------------------------------------------------

/- After an element a group goes on only past a comma. -/
theorem closing_advances
    {δ : Type}
    (start : Nat) :
    Advances Prod.fst Answers bound
      (fun another => another = true)
      (Fill.closing start : Fill δ Bool) := by
  apply Advances.skipBlanks.lift.bind'
  intro _
  rintro ⟨place, content⟩ hPlace
  apply AdvancesFrom.peekLift
  split
  · rename_i hPeek
    apply ((AdvancesFrom.skip hPeek).lift _).bind
    intro _ _ _ _
    exact .pure (by simp)
  · rename_i hPeek
    apply ((AdvancesFrom.skip hPeek).lift _).bind
    intro _ _ _ _
    exact .pure (by simp)
  · exact .throw nofun
  · refine (Advances.position.lift.bind' fun place => ?_)
      _ hPlace
    exact (Advances.unexpected _ _).answers.lift

theorem groupRound_advances
    {δ : Type}
    {element : Fill δ Unit}
    (hElement :
      Advances Prod.fst Answers bound (fun _ => False)
        element)
    (start : Nat) :
    Advances Prod.fst Answers bound
      (fun another => another = true)
      (Fill.groupRound element start) := by
  apply Advances.skipBlanks.lift.bind'
  intro _
  apply Advances.peek.lift.bind'
  intro next
  refine .ite ?_ ?_
  · exact .throw nofun
  · apply hElement.bind'
    intro _
    exact closing_advances start

/-
  A group passes its opening brace, so that its elements have
  fewer characters to read than the group.
-/
theorem group_advancesFrom
    {δ : Type}
    {element : Fill δ Unit}
    {cursor : Cursor}
    {content : δ}
    {c : Char}
    (hPeek : cursor.peek = some c)
    (hElement :
      Advances Prod.fst Answers cursor.ahead.length
        (fun _ => False) element) :
    AdvancesFrom Prod.fst Answers (fun _ => True)
      (Fill.group element) (cursor, content) := by
  rw [Fill.group_eq]
  apply AdvancesFrom.delimitedLift hPeek
  intro start place hPlace
  refine (Advances.skipBlanks.lift.bind' fun _ => ?_)
    place hPlace
  apply (Advances.eat _).lift.bind'
  intro closed
  refine .ite ?_ ?_
  · exact .pure not_false
  · exact .loopWhile (groupRound_advances hElement start)

------------------------------------------------------------
-- Slices and Maps
------------------------------------------------------------

/- What the readers of items below are asked for. -/
def ItemReader.AdvancesBelow
    (item : ItemReader)
    (bound : Nat) : Prop :=
  ∀ frame target,
    Advances Prod.fst Answers bound (fun _ => False)
      (item frame target)

variable {item : ItemReader}

theorem fillItem_advances
    (hItem : item.AdvancesBelow bound)
    (frame : Frame)
    (target : Target) :
    Advances Prod.fst Answers bound (fun _ => False)
      (fillItem item frame target) := by
  apply Advances.position.lift.bind'
  intro start
  apply (Advances.store _ _ _).bind'
  intro child
  exact .within child (hItem frame child.inner)

/- After an item a run goes on only past a semicolon. -/
theorem sliceRound_advances
    (hItem : item.AdvancesBelow bound)
    (frame : Frame)
    (target : Target) :
    Advances Prod.fst Answers bound
      (fun another => another = true)
      (sliceRound item frame target) := by
  apply (fillItem_advances hItem _ _).bind'
  intro _
  apply Advances.skipBlanks.lift.bind'
  intro _
  refine .ite ?_ ?_
  · exact .pure (by simp)
  · exact (Advances.eat _).lift

/-
  A slice in braces needs a reader only for what is inside of
  the braces, a run one for all that is ahead.
-/
theorem fillSlice_advancesFrom
    {cursor : Cursor}
    (frame : Frame)
    (target : Target)
    (content : target.Content)
    (hItem : item.AdvancesBelow bound)
    (hBound :
      cursor.ahead.length < bound ∨
        cursor.peek = some '{' ∧
          cursor.ahead.length = bound) :
    AdvancesFrom Prod.fst Answers (fun _ => False)
      (fillSlice item frame target) (cursor, content) := by
  refine .positionLift (.storeBind fun _ content' => ?_)
  refine .peekLift ?_
  split
  · rename_i hPeek
    refine (group_advancesFrom hPeek ?_).imp (by simp)
    apply (fillItem_advances hItem _ _).mono
    omega
  · exact .pure not_false
  · exact .pure not_false
  · exact .pure not_false
  · exact .pure not_false
  · rename_i c hNotBrace _ _ _ hPeek
    have hCursor : cursor.ahead.length < bound := by
      rcases hBound with hBound | ⟨hBrace, _⟩
      · exact hBound
      · rw [hPeek] at hBrace
        exact (hNotBrace (Option.some.inj hBrace)).elim
    exact Advances.loopWhile
      (sliceRound_advances hItem frame target) _ hCursor

theorem fillEntry_advances
    (hItem : item.AdvancesBelow bound)
    (target : Target) :
    Advances Prod.fst Answers bound (fun _ => False)
      (fillEntry item target) := by
  rw [fillEntry_eq]
  apply Advances.position.lift.bind'
  intro keyStart
  apply (string_advances _).answers.lift.bind'
  intro key
  apply Advances.skipBlanks.lift.bind'
  intro _
  apply Advances.position.lift.bind'
  intro colonStart
  apply (Advances.eat _).lift.bind'
  intro colon
  refine .ite ?_ ?_
  · apply (Advances.store _ _ _).bind'
    intro child
    exact .within child (hItem .group child.inner)
  · exact (Advances.unexpected _ _).answers.lift

theorem fillMap_advancesFrom
    {cursor : Cursor}
    (target : Target)
    (content : target.Content)
    (hItem : item.AdvancesBelow bound)
    (hBound : cursor.ahead.length ≤ bound) :
    AdvancesFrom Prod.fst Answers (fun _ => False)
      (fillMap item target) (cursor, content) := by
  rw [fillMap_eq]
  refine .positionLift (.peekLift ?_)
  by_cases hPeek : cursor.peek = some '{'
  · rw [if_pos hPeek]
    refine .storeBind fun _ content' => ?_
    refine (group_advancesFrom hPeek ?_).imp (by simp)
    exact (fillEntry_advances hItem _).mono hBound
  · rw [if_neg hPeek]
    exact (Advances.unexpected _ _).answers.lift
      (cursor, content) (Nat.lt_succ_self _)

------------------------------------------------------------
-- Inference
------------------------------------------------------------

theorem inferToken_advances
    (token : String)
    (start : Nat) :
    Advances id Lexical bound (fun _ => False)
      (inferToken token start) := by
  unfold inferToken
  split
  · exact .pure not_false
  · exact .pure not_false
  · split
    · exact .ite (.pure not_false) (.throw trivial)
    · exact .pure not_false

/- Every round of a run passes its semicolon. -/
theorem runRound_advances
    {element : Scan Value}
    (hElement :
      Advances id Answers bound (fun _ => False) element)
    (items : List Value) :
    Advances id Answers bound
      (fun step => ∃ next, step = .again next)
      (runRound element items) := by
  apply (Advances.eat _).bind
  intro another
  by_cases hAnother : another = true
  · rw [if_pos hAnother]
    apply hElement.bind'
    intro item
    apply Advances.skipBlanks.bind'
    intro _
    exact .pure (by simp [hAnother])
  · rw [if_neg hAnother]
    exact .pure (by simp)

theorem inferRun_advances
    {element : Scan Value}
    (hElement :
      Advances id Answers bound (fun _ => False) element)
    (first : Value) :
    Advances id Answers bound (fun _ => False)
      (inferRun element first) :=
  .loop (runRound_advances hElement) _

theorem inferWith_advances
    {element : Scan Value}
    (hElement :
      Advances id Answers bound (fun _ => False) element)
    (frame : Frame) :
    Advances id Answers bound (fun _ => False)
      (inferWith element frame) := by
  apply hElement.bind'
  intro first
  refine .ite (.pure not_false) ?_
  apply Advances.skipBlanks.bind'
  intro _
  apply Advances.peek.bind'
  intro next
  exact .ite (inferRun_advances hElement first)
    (.pure not_false)

theorem fillAny_advances
    {element : Scan Value}
    (hElement :
      Advances id Answers bound (fun _ => False) element) :
    (fillAny element).AdvancesBelow bound := by
  intro frame target
  apply Advances.position.lift.bind'
  intro start
  apply (inferWith_advances hElement _).lift.bind'
  intro value
  exact .store _ _ _

/- A group needs a reader for what is inside of its braces. -/
theorem inferGroup_advancesFrom
    {cursor : Cursor}
    (hPeek : cursor.peek = some '{')
    (hItem : item.AdvancesBelow bound)
    (hBound : cursor.ahead.length ≤ bound) :
    AdvancesFrom id Answers (fun _ => False)
      (inferGroup item) cursor := by
  refine .get (.ite (fun _ => ?_) (fun _ => ?_))
  · exact .collect _
      (fillMap_advancesFrom .dynamic Value.null hItem hBound)
  · refine .collect _
      (fillSlice_advancesFrom .group .dynamic Value.null
        hItem ?_)
    rcases Nat.lt_or_eq_of_le hBound with hLess | hEq
    · exact Or.inl hLess
    · exact Or.inr ⟨hPeek, hEq⟩

/-
  The number by which groups are limited is large enough if
  fewer characters are ahead: every group has one of its own.
-/
theorem inferElement_advances
    (depth : Nat) :
    Advances id Answers depth (fun _ => False)
      (inferElement depth) := by
  induction depth with
  | zero =>
      intro cursor hCursor
      exact absurd hCursor (Nat.not_lt_zero _)
  | succ depth ih =>
      rw [inferElement_succ]
      refine Advances.skipBlanks.bind' fun _ => ?_
      intro cursor hCursor
      apply AdvancesFrom.peek
      split
      · rename_i hPeek
        have hItem : (anyItem depth).AdvancesBelow depth := by
          intro frame target
          apply Advances.skipBlanks.lift.bind'
          intro _
          exact fillAny_advances ih frame target
        exact inferGroup_advancesFrom hPeek hItem
          (Nat.le_of_lt_succ hCursor)
      · rename_i hPeek
        apply (quoted_advancesFrom hPeek).answers.bind
        intro _ _ _ _
        exact .pure (by simp)
      · rename_i hPeek
        apply (backtick_advancesFrom hPeek).answers.bind
        intro _ _ _ _
        exact .pure (by simp)
      · refine (Advances.position.bind' fun start => ?_)
          cursor hCursor
        apply (bare_advances _).answers.bind'
        intro token
        exact (inferToken_advances _ _).answers

theorem element_advances :
    Advances id Answers bound (fun _ => False) element := by
  intro cursor _
  unfold element
  refine .get ?_
  exact inferElement_advances (cursor.ahead.length + 1)
    cursor (Nat.lt_succ_self _)

end Literal

------------------------------------------------------------
-- Descriptors
------------------------------------------------------------

namespace Descriptor

open Literal

/- The grammar of kinds that have no items. -/
def fillFlat
    {σ : Type}
    [Reader σ]
    (descriptor : Descriptor)
    (frame : Frame)
    (target : Target) : Filling σ target.Content Unit :=
  match descriptor.kind with
  | .bool => fillBool target
  | .signed => fillSigned target
  | .unsigned => fillUnsigned target
  | .string => fillString target
  | .raw => fillRaw frame target
  | .any => fillAny element frame target
  | .slice | .map =>
      throw (.unsupported (.itemless descriptor))
  | .invalid =>
      throw (.unsupported (.descriptor descriptor))

/- Every grammar first skips blanks. -/
theorem fill_eq
    {σ : Type}
    [Reader σ]
    (descriptor : Descriptor)
    (frame : Frame)
    (target : Target) :
    descriptor.fill (σ := σ) frame target = (do
      Scan.skipBlanks (σ := σ)
      match descriptor with
      | nested .slice item =>
          fillSlice item.fill frame target
      | nested .map item => fillMap item.fill target
      | descriptor => descriptor.fillFlat frame target) := by
  cases descriptor with
  | plain kind => rfl
  | nested kind item => cases kind <;> rfl

theorem fillFlat_advances
    (descriptor : Descriptor)
    (frame : Frame)
    (target : Target) :
    Advances Prod.fst Answers bound (fun _ => False)
      (descriptor.fillFlat frame target) := by
  unfold fillFlat
  split
  · exact fillBool_advances _
  · exact fillSigned_advances _
  · exact fillUnsigned_advances _
  · exact fillString_advances _
  · exact fillRaw_advances _ _
  · exact fillAny_advances element_advances _ _
  · exact .throw nofun
  · exact .throw nofun
  · exact .throw nofun

/- The grammars advance, whatever the descriptor asks for. -/
theorem fill_advances
    (descriptor : Descriptor)
    (bound : Nat) :
    descriptor.fill.AdvancesBelow bound := by
  induction descriptor generalizing bound with
  | plain kind =>
      intro frame target
      rw [fill_eq]
      apply Advances.skipBlanks.lift.bind'
      intro _
      exact fillFlat_advances _ _ _
  | nested kind item ih =>
      intro frame target
      rw [fill_eq]
      apply Advances.skipBlanks.lift.bind'
      intro _
      split
      · rename_i hEq
        cases hEq
        rintro ⟨cursor, content⟩ hCursor
        exact fillSlice_advancesFrom frame target content
          (ih bound) (Or.inl hCursor)
      · rename_i hEq
        cases hEq
        rintro ⟨cursor, content⟩ hCursor
        exact fillMap_advancesFrom target content (ih _)
          (Nat.le_of_lt hCursor)
      · exact fillFlat_advances _ _ _

theorem expectEnd_advances :
    Advances id Lexical bound (fun _ => False)
      expectEnd := by
  apply Advances.skipBlanks.bind'
  intro _
  apply Advances.get.bind'
  intro cursor
  refine .ite ?_ ?_
  · exact .pure not_false
  · apply Advances.position.bind'
    intro place
    exact .unexpected _ _

/- At the end there are but blanks. -/
theorem expectEnd_eq_ok
    {cursor place : Cursor}
    (hRun : expectEnd cursor = .ok () place) :
    Text.Blank cursor.ahead := by
  have hEnd :
      expectEnd cursor =
        (if cursor.skipBlanks.atEnd then
          Pure.pure ()
        else do
          Scan.unexpected .endOfInput (← Scan.position) :
          Scan Unit) cursor.skipBlanks :=
    rfl
  rw [hEnd] at hRun
  by_cases hAtEnd : cursor.skipBlanks.atEnd = true
  · have hNone : cursor.ahead.dropWhile Text.isBlank = [] :=
      List.isEmpty_iff.mp hAtEnd
    exact List.dropWhile_eq_nil_iff.mp hNone
  · rw [if_neg hAtEnd] at hRun
    rcases run_bind_eq_ok.mp hRun with
      ⟨start, middle, _, hFails⟩
    rcases Scan.exists_run_unexpected .endOfInput start
        middle with
      ⟨found, state, hError⟩
    rw [hError Unit] at hFails
    cases hFails

/- Reading a whole text never fails for lack of rounds. -/
theorem read_answers
    (descriptor : Descriptor)
    (target : Target)
    (state : Cursor × target.Content) :
    Ends (fun _ _ => True)
      (fun error _ => error.Answers)
      ((do
        descriptor.fill .whole target
        expectEnd : Fill target.Content Unit) state) := by
  have hRead :
      Advances Prod.fst Answers (state.1.ahead.length + 1)
        (fun _ => False)
        (do
          descriptor.fill .whole target
          expectEnd : Fill target.Content Unit) :=
    (descriptor.fill_advances _ .whole target).bind'
      fun _ => expectEnd_advances.answers.lift
  exact Ends.imp (hRead state (Nat.lt_succ_self _))
    (fun _ _ _ => trivial) (fun _ _ hError => hError.1)

------------------------------------------------------------
-- Outcomes
------------------------------------------------------------

section Outcomes

variable {action : Fill δ Unit}
variable {cursor : Cursor}
variable {content : δ}

/- An outcome is the one of its run. -/
theorem run_of_outcome_ok
    (hResult :
      (outcomeOf action cursor content).result = .ok ()) :
    action (cursor, content) =
      .ok ()
        ((outcomeOf action cursor content).cursor,
          (outcomeOf action cursor content).content) := by
  unfold outcomeOf at hResult ⊢
  cases hRun : action (cursor, content) with
  | ok result state => rfl
  | error error state =>
      rw [hRun] at hResult
      cases hResult

theorem run_of_outcome_error
    {error : ReadError}
    (hResult :
      (outcomeOf action cursor content).result =
        .error error) :
    action (cursor, content) =
      .error error
        ((outcomeOf action cursor content).cursor,
          (outcomeOf action cursor content).content) := by
  unfold outcomeOf at hResult ⊢
  cases hRun : action (cursor, content) with
  | ok result state =>
      rw [hRun] at hResult
      cases hResult
  | error other state =>
      rw [hRun] at hResult
      cases hResult
      rfl

end Outcomes

/- A text that is read is a literal with blanks behind it. -/
theorem exists_fill_of_read
    {descriptor : Descriptor}
    {text : String}
    {target : Target}
    {content : target.Content}
    (hRead :
      (descriptor.read text target content).result =
        .ok ()) :
    ∃ place,
      descriptor.fill .whole target
            (Cursor.ofText text, content) =
          .ok ()
            (place,
              (descriptor.read text target content).content) ∧
        Text.Blank place.ahead := by
  rcases run_bind_eq_ok.mp (run_of_outcome_ok hRead) with
    ⟨_, ⟨place, written⟩, hFill, hLast⟩
  rw [Fill.run_lift] at hLast
  cases hEnd : expectEnd place with
  | ok result place' =>
      rw [hEnd] at hLast
      injection hLast with _ hState
      have hWritten :
          written =
            (descriptor.read text target content).content :=
        congrArg Prod.snd hState
      rw [← hWritten]
      exact ⟨place, hFill, expectEnd_eq_ok hEnd⟩
  | error error place' =>
      rw [hEnd] at hLast
      cases hLast

end Descriptor

end Marginalia
