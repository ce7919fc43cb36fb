import Marginalia.Proofs.Literal.Shifts
import Marginalia.Proofs.Positions
import Marginalia.Scanner

/-
  Scanners keep step with cursors: what a scanner stores is at
  every moment what a cursor sees from both sides of its
  place, so that no cut fails and literals are read alike.

  Key definitions include:
    * `Scanner.Trace.at`
    * `Scanner.translation`
    * `Scanner.Trace.Represents`
    * `Scanner.LongestRun`

  Main statements:
    * `Scanner.advance_at`
    * `Scanner.parse_at`
    * `Scanner.runAll_at`
    * `Scanner.runAll_represents`
-/

namespace Marginalia

------------------------------------------------------------
-- Cuts at Byte Offsets
------------------------------------------------------------

namespace Text

/- A text is cut out of a longer one by its bytes. -/
theorem slice?_append
    (front middle back : String) :
    slice? (front ++ middle ++ back) front.utf8ByteSize
        (front ++ middle).utf8ByteSize =
      some middle := by
  have hFirst :
      String.Pos.Raw.IsValid (front ++ middle ++ back)
        ⟨front.utf8ByteSize⟩ := by
    rw [String.Pos.Raw.isValid_iff_exists_append]
    exact ⟨front, middle ++ back, String.append_assoc, rfl⟩
  have hLast :
      String.Pos.Raw.IsValid (front ++ middle ++ back)
        ⟨(front ++ middle).utf8ByteSize⟩ := by
    rw [String.Pos.Raw.isValid_iff_exists_append]
    exact ⟨front ++ middle, back, rfl, rfl⟩
  have hBytes :
      (front ++ middle ++ back).toByteArray.extract
          front.utf8ByteSize (front ++ middle).utf8ByteSize =
        middle.toByteArray := by
    have hSize :
        (front.toByteArray ++ middle.toByteArray).size =
          front.utf8ByteSize + middle.utf8ByteSize := by
      simp
    rw [String.toByteArray_append, String.toByteArray_append,
      String.utf8ByteSize_append, ByteArray.extract_append,
      hSize, Nat.sub_self, Nat.sub_eq_zero_of_le
        (Nat.le_add_right _ _), ByteArray.extract_same,
      ByteArray.append_empty]
    exact ByteArray.extract_append_eq_right (by simp) (by simp)
  have hLe :
      front.utf8ByteSize ≤ (front ++ middle).utf8ByteSize := by
    rw [String.utf8ByteSize_append]
    exact Nat.le_add_right _ _
  unfold slice?
  rw [if_pos ⟨hLe, hFirst, hLast⟩, hBytes]
  unfold String.fromUTF8?
  rw [dif_pos middle.isValidUTF8]
  rfl

end Text

/- Reading a literal does not lead back, even if it fails. -/
theorem Descriptor.reaches_readAt
    (descriptor : Descriptor)
    (cursor : Cursor)
    (target : Target)
    (content : target.Content) :
    cursor.Reaches
      (descriptor.readAt cursor target content).cursor := by
  have hAdvances :=
    descriptor.fill_advances (cursor.ahead.length + 1) .whole
      target (cursor, content) (Nat.lt_succ_self _)
  unfold AdvancesFrom at hAdvances
  unfold Descriptor.readAt
  cases hResult :
    (Descriptor.outcomeOf (descriptor.fill .whole target)
      cursor content).result with
  | ok result =>
      exact (Ends.of_ok hAdvances
        (Descriptor.run_of_outcome_ok hResult)).1
  | error error =>
      exact (Ends.of_error hAdvances
        (Descriptor.run_of_outcome_error hResult)).2

namespace Scanner

variable {α β : Type}

------------------------------------------------------------
-- Scanners at Cursors
------------------------------------------------------------

/-
  The scanner that stores what the cursor sees: the whole
  text, the bytes behind and the next character. Everything
  behind has been consumed.
-/
def Trace.at
    (cursor : Cursor) : Trace :=
  { scanner :=
      { text := cursor.source
        cursor := cursor.position
        lookahead := cursor.peek }
    consumed := cursor.behind.reverse }

theorem start_eq_at
    (text : String) :
    Trace.start text = Trace.at (Cursor.ofText text) := by
  have hText :
      (Cursor.ofText text).source = text :=
    String.ofList_toList
  unfold Trace.start Trace.at new
  rw [hText]
  rfl

/- What lies between two places is cut out by their offsets. -/
theorem slice?_of_reaches
    {start cursor : Cursor}
    (hReaches : start.Reaches cursor) :
    Text.slice? cursor.source start.position
        cursor.position =
      some (String.ofList
        (start.ahead.take
          (start.ahead.length - cursor.ahead.length))) := by
  rcases hReaches with ⟨passed, hAhead, hBehind⟩
  have hSource :
      cursor.source =
        String.ofList start.behind.reverse ++
          String.ofList passed ++
          String.ofList cursor.ahead := by
    unfold Cursor.source Cursor.chars
    rw [hBehind, List.reverse_append, List.reverse_reverse,
      String.ofList_append, String.ofList_append]
  have hStart :
      start.position =
        (String.ofList start.behind.reverse).utf8ByteSize := by
    rw [start.position_eq, ← Text.byteLength_eq_utf8ByteSize,
      Text.byteLength_reverse]
  have hPosition :
      cursor.position =
        (String.ofList start.behind.reverse ++
          String.ofList passed).utf8ByteSize := by
    rw [cursor.position_eq, hBehind, ← String.ofList_append,
      ← Text.byteLength_eq_utf8ByteSize, Text.byteLength_append,
      Text.byteLength_append, Text.byteLength_reverse,
      Text.byteLength_reverse, Nat.add_comm]
  have hPassed :
      start.ahead.take
          (start.ahead.length - cursor.ahead.length) =
        passed := by
    simp [hAhead]
  rw [hSource, hStart, hPosition, hPassed]
  exact Text.slice?_append _ _ _

/- The rest of the text is what is cut out up to its end. -/
theorem rest?_at
    (cursor : Cursor) :
    (Trace.at cursor).scanner.rest? = some cursor.rest := by
  have hReaches : cursor.Reaches cursor.toEnd :=
    .span cursor _
  have hSource : cursor.toEnd.source = cursor.source :=
    congrArg String.ofList hReaches.chars_eq
  have hAhead : cursor.toEnd.ahead = [] :=
    List.dropWhile_eq_nil_iff.mpr fun _ _ => rfl
  have hPosition :
      cursor.toEnd.position = cursor.source.utf8ByteSize := by
    rw [cursor.toEnd.position_eq, ← hSource]
    unfold Cursor.source Cursor.chars
    rw [hAhead, List.append_nil,
      ← Text.byteLength_eq_utf8ByteSize,
      Text.byteLength_reverse]
  have hSlice := slice?_of_reaches hReaches
  rw [hSource, hPosition, hAhead, List.length_nil,
    Nat.sub_zero, List.take_length] at hSlice
  exact hSlice

------------------------------------------------------------
-- Moves
------------------------------------------------------------

/- An action goes on where the one before it has ended. -/
theorem bind_of_some
    {first : Action α}
    {next : α → Action β}
    {trace trace' : Trace}
    {result : α}
    (hFirst : first trace = some (result, trace')) :
    (first >>= next) trace = next result trace' := by
  show (first trace).bind _ = _
  rw [hFirst]
  rfl

/-
  The next character is handed out, and the one after it is
  found where its bytes end.
-/
theorem advance_at
    (cursor : Cursor) :
    advance (Trace.at cursor) =
      some (cursor.peek, Trace.at cursor.advance) := by
  cases hPeek : cursor.peek with
  | none =>
      have hAhead := Cursor.peek_eq_none_iff.mp hPeek
      rcases cursor with ⟨behind, ahead, position, hPosition⟩
      cases hAhead
      rfl
  | some c =>
      have hReaches := Cursor.Reaches.advance cursor
      have hSource : cursor.advance.source = cursor.source :=
        congrArg String.ofList hReaches.chars_eq
      have hBehind := Cursor.advance_behind hPeek
      have hPosition :
          cursor.advance.position =
            cursor.position + c.utf8Size := by
        rw [cursor.advance.position_eq, hBehind,
          cursor.position_eq, Text.byteLength_cons,
          Nat.add_comm]
      have hRest :
          Text.slice? cursor.source
              (cursor.position + c.utf8Size)
              cursor.source.utf8ByteSize =
            some cursor.advance.rest := by
        rw [← hSource, ← hPosition]
        exact rest?_at cursor.advance
      have hHead :
          cursor.advance.rest.toList.head? =
            cursor.advance.peek := by
        unfold Cursor.rest
        rw [String.toList_ofList]
        rfl
      unfold Trace.at advance rest?
      simp only [hPeek, hRest, hHead, hBehind, hSource,
        hPosition, List.reverse_cons]

theorem eat_at
    (c : Char)
    (cursor : Cursor) :
    eat c (Trace.at cursor) =
      some
        (if cursor.peek = some c then
          (true, Trace.at cursor.advance)
        else
          (false, Trace.at cursor)) := by
  have hRun :
      eat c (Trace.at cursor) =
        (if cursor.peek = some c then
          (do
            let _ ← advance
            return true)
        else
          return false : Action Bool) (Trace.at cursor) :=
    rfl
  rw [hRun]
  by_cases hPeek : cursor.peek = some c
  · rw [if_pos hPeek, if_pos hPeek,
      bind_of_some (advance_at cursor)]
    rfl
  · rw [if_neg hPeek, if_neg hPeek]
    rfl

/- The loop is done, or it starts again after a move. -/
theorem advanceWhile_eq
    (p : Char → Bool)
    (trace : Trace) :
    advanceWhile p trace =
      match trace.scanner.lookahead with
      | none => some ((), trace)
      | some c =>
          if p c then
            (advance trace).bind fun moved =>
              advanceWhile p moved.2
          else
            some ((), trace) := by
  rw [advanceWhile]
  split
  · rename_i hNone
    rw [hNone]
  · rename_i c hSome
    rw [hSome]
    dsimp only
    split
    · split
      · rename_i hAdvance
        rw [hAdvance]
        rfl
      · rename_i result next hAdvance
        rw [hAdvance]
        rfl
    · rfl

/- A run ends where it would begin if nothing is taken. -/
theorem span_of_stop
    {p : Char → Bool}
    {cursor : Cursor}
    (hStop : ∀ c, cursor.peek = some c → p c = false) :
    (cursor.span p).2 = cursor := by
  rcases cursor with ⟨behind, ahead, position, hPosition⟩
  cases ahead with
  | nil => exact Cursor.ext rfl rfl
  | cons c ahead =>
      have hOther := hStop c rfl
      refine Cursor.ext ?_ ?_
      · simp [Cursor.span, hOther]
      · simp [Cursor.span, hOther]

/- It ends where the run from its second character does. -/
theorem span_advance
    {p : Char → Bool}
    {cursor : Cursor}
    {c : Char}
    (hPeek : cursor.peek = some c)
    (hTaken : p c = true) :
    (cursor.advance.span p).2 = (cursor.span p).2 := by
  rcases Cursor.peek_eq_some_iff.mp hPeek with
    ⟨ahead, hAhead⟩
  refine Cursor.ext ?_ ?_
  · simp [Cursor.span, hAhead, hTaken,
      Cursor.advance_behind hPeek]
  · simp [Cursor.span, hAhead, hTaken]

/- The induction is on the characters ahead. -/
theorem advanceWhile_at
    (p : Char → Bool)
    (cursor : Cursor) :
    advanceWhile p (Trace.at cursor) =
      some ((), Trace.at (cursor.span p).2) := by
  induction hAhead : cursor.ahead generalizing cursor with
  | nil =>
      have hPeek := Cursor.peek_eq_none_iff.mpr hAhead
      have hStop :
          ∀ c, cursor.peek = some c → p c = false := by
        rw [hPeek]
        nofun
      rw [advanceWhile_eq, span_of_stop hStop]
      unfold Trace.at
      rw [hPeek]
  | cons c ahead ih =>
      have hPeek :=
        Cursor.peek_eq_some_iff.mpr ⟨ahead, hAhead⟩
      have hStep :
          advanceWhile p (Trace.at cursor) =
            if p c then
              (advance (Trace.at cursor)).bind fun moved =>
                advanceWhile p moved.2
            else
              some ((), Trace.at cursor) := by
        rw [advanceWhile_eq]
        show
          (match cursor.peek with
            | none => _
            | some c => _) = _
        rw [hPeek]
      rw [hStep, advance_at]
      by_cases hTaken : p c = true
      · rw [if_pos hTaken, ← span_advance hPeek hTaken]
        refine ih cursor.advance ?_
        rw [Cursor.advance_ahead, hAhead, List.tail_cons]
      · have hStop :
            ∀ d, cursor.peek = some d → p d = false := by
          intro d hOther
          rw [hPeek, Option.some.injEq] at hOther
          rw [← hOther]
          exact eq_false_of_ne_true hTaken
        rw [if_neg hTaken, span_of_stop hStop]

theorem sliceFrom_at
    {start cursor : Cursor}
    (hReaches : start.Reaches cursor) :
    sliceFrom start.position (Trace.at cursor) =
      some
        (String.ofList
          (start.ahead.take
            (start.ahead.length - cursor.ahead.length)),
          Trace.at cursor) := by
  show
    (Text.slice? cursor.source start.position
      cursor.position).bind _ = _
  rw [slice?_of_reaches hReaches]
  rfl

theorem takeWhile_at
    (p : Char → Bool)
    (cursor : Cursor) :
    takeWhile p (Trace.at cursor) =
      some
        (String.ofList (cursor.ahead.takeWhile p),
          Trace.at (cursor.span p).2) := by
  have hRun :
      takeWhile p (Trace.at cursor) =
        (do
          advanceWhile p
          sliceFrom cursor.position : Action String)
          (Trace.at cursor) :=
    rfl
  have hTaken :
      cursor.ahead.take
          (cursor.ahead.length -
            (cursor.span p).2.ahead.length) =
        cursor.ahead.takeWhile p := by
    have hPrefix := List.takeWhile_prefix p (l := cursor.ahead)
    have hLength :
        (cursor.ahead.takeWhile p).length +
            (cursor.span p).2.ahead.length =
          cursor.ahead.length := by
      rw [Cursor.span_ahead, ← List.length_append,
        List.takeWhile_append_dropWhile]
    rw [← hLength, Nat.add_sub_cancel]
    exact (List.prefix_iff_eq_take.mp hPrefix).symm
  rw [hRun, bind_of_some (advanceWhile_at p cursor),
    sliceFrom_at (.span cursor p), hTaken]

/- The rest of the text is read off, not consumed. -/
theorem rest_at
    (cursor : Cursor) :
    rest (Trace.at cursor) =
      some (cursor.rest, Trace.at cursor) := by
  show (Trace.at cursor).scanner.rest?.bind _ = _
  rw [rest?_at]
  rfl

theorem takeRest_at
    (cursor : Cursor) :
    takeRest (Trace.at cursor) =
      some (cursor.rest, Trace.at cursor.toEnd) := by
  unfold takeRest
  rw [bind_of_some (rest_at cursor),
    bind_of_some (advanceWhile_at _ cursor)]
  rfl

theorem hasTopLevel_at
    (target : Char)
    (cursor : Cursor) :
    hasTopLevel target (Trace.at cursor) =
      some (cursor.hasTopLevel target, Trace.at cursor) := by
  unfold hasTopLevel
  rw [bind_of_some (rest_at cursor)]
  unfold Cursor.rest
  rw [String.toList_ofList]
  rfl

------------------------------------------------------------
-- Literals
------------------------------------------------------------

/- An action that succeeds is not stopped. -/
theorem run_of_some
    [Inhabited α]
    {action : Action α}
    {trace trace' : Trace}
    {result : α}
    (hAction : action trace = some (result, trace')) :
    action.run (some trace) = (result, some trace') := by
  unfold Action.run
  dsimp only
  rw [hAction]

/- The characters of a text that is cut out. -/
theorem map_toList_of_some
    {action : Action String}
    {trace trace' : Trace}
    {text : List Char}
    (hAction :
      action trace = some (String.ofList text, trace')) :
    (String.toList <$> action) trace =
      some (text, trace') := by
  show (action trace).bind _ = _
  rw [hAction]
  exact congrArg (fun text => some (text, trace'))
    String.toList_ofList

/-
  A scanner does what the cursor does, and no cut fails while
  it is moved.
-/
def translation : Translation (Option Trace) where
  place cursor := some (Trace.at cursor)
  bytes := 0
  position cursor := (Nat.zero_add cursor.position).symm
  peek _ := rfl
  left cursor := by
    show
      ((Trace.at cursor).scanner.rest?).elim 0
        String.length = _
    rw [rest?_at]
    exact String.length_ofList
  next cursor := run_of_some (advance_at cursor)
  eat c cursor := by
    have hEat := eat_at c cursor
    show (eat c).run (some (Trace.at cursor)) = _
    by_cases hPeek : cursor.peek = some c
    · rw [if_pos hPeek] at hEat ⊢
      exact run_of_some hEat
    · rw [if_neg hPeek] at hEat ⊢
      exact run_of_some hEat
  skipBlanks cursor :=
    congrArg Prod.snd
      (run_of_some (advanceWhile_at Text.isBlank cursor))
  takeWhile p cursor :=
    run_of_some (map_toList_of_some (takeWhile_at p cursor))
  remainder cursor := run_of_some (takeRest_at cursor)
  since start cursor hReaches :=
    run_of_some (map_toList_of_some (sliceFrom_at hReaches))
  hasTopLevel target cursor :=
    run_of_some (hasTopLevel_at target cursor)

theorem parse_at
    (descriptor : Descriptor)
    (target : Target)
    (content : target.Content)
    (cursor : Cursor) :
    parse descriptor target content (Trace.at cursor) =
      let outcome := descriptor.readAt cursor target content
      some ((outcome.result, outcome.content),
        Trace.at outcome.cursor) := by
  have hRun :=
    descriptor.fill_shifts (t := translation) .whole target
      (cursor, content)
  change
    descriptor.fill .whole target
        (some (Trace.at cursor), content) =
      shiftEnd translation.state 0
        (descriptor.fill .whole target (cursor, content))
    at hRun
  unfold parse Descriptor.readAt Descriptor.outcomeOf
  rw [hRun]
  cases descriptor.fill .whole target (cursor, content) with
  | ok result state => rfl
  | error error state =>
      unfold shiftEnd
      dsimp only
      rw [error.shift_zero]
      rfl

------------------------------------------------------------
-- Sequences of Steps
------------------------------------------------------------

/- A step leads from a place in the text to a later one. -/
theorem Step.run_at
    (step : Step)
    (cursor : Cursor) :
    ∃ place,
      cursor.Reaches place ∧
        step.run (Trace.at cursor) =
          some ((), Trace.at place) := by
  cases step with
  | advance =>
      refine ⟨cursor.advance, .advance cursor, ?_⟩
      exact bind_of_some (advance_at cursor)
  | eat c =>
      have hEat := eat_at c cursor
      by_cases hPeek : cursor.peek = some c
      · rw [if_pos hPeek] at hEat
        exact ⟨cursor.advance, .advance cursor,
          bind_of_some hEat⟩
      · rw [if_neg hPeek] at hEat
        exact ⟨cursor, .refl cursor, bind_of_some hEat⟩
  | skipWhitespace =>
      exact ⟨cursor.skipBlanks, .skipBlanks cursor,
        advanceWhile_at Text.isBlank cursor⟩
  | takeWhile p =>
      exact ⟨(cursor.span p).2, .span cursor p,
        bind_of_some (takeWhile_at p cursor)⟩
  | hasTopLevel target =>
      exact ⟨cursor, .refl cursor,
        bind_of_some (hasTopLevel_at target cursor)⟩
  | parse descriptor target content =>
      exact ⟨_,
        descriptor.reaches_readAt cursor target content,
        bind_of_some
          (parse_at descriptor target content cursor)⟩

theorem runAll_at
    (steps : List Step)
    (cursor : Cursor) :
    ∃ place,
      cursor.Reaches place ∧
        runAll steps (Trace.at cursor) =
          some ((), Trace.at place) := by
  induction steps generalizing cursor with
  | nil => exact ⟨cursor, .refl cursor, rfl⟩
  | cons step later ih =>
      rcases step.run_at cursor with ⟨place, hStep, hRun⟩
      rcases ih place with ⟨last, hLater, hRest⟩
      refine ⟨last, hStep.trans hLater, ?_⟩
      unfold runAll
      rw [bind_of_some hRun]
      exact hRest

------------------------------------------------------------
-- Representation
------------------------------------------------------------

/-
  The scanner is in the text between what was consumed and
  the rest: its offset counts the bytes of the former, and the
  next character is the first one of the latter.
-/
structure Trace.Represents
    (trace : Trace)
    (text rest : String) : Prop where
  source : trace.scanner.text = text
  cursor :
    trace.scanner.cursor =
      (String.ofList trace.consumed).utf8ByteSize
  boundary :
    String.Pos.Raw.IsValid text ⟨trace.scanner.cursor⟩
  ahead : trace.scanner.rest? = some rest
  split : String.ofList trace.consumed ++ rest = text
  peek : trace.scanner.lookahead = rest.toList.head?
  atEnd : trace.scanner.atEnd = true ↔ rest = ""

theorem represents_at
    {text : String}
    {cursor : Cursor}
    (hReaches : (Cursor.ofText text).Reaches cursor) :
    (Trace.at cursor).Represents text cursor.rest := by
  have hChars : cursor.chars = text.toList :=
    hReaches.chars_eq
  have hText : cursor.source = text := by
    unfold Cursor.source
    rw [hChars, String.ofList_toList]
  refine ⟨hText, ?_, ?_, rest?_at cursor, ?_, ?_, ?_⟩
  · show
      cursor.position =
        (String.ofList cursor.behind.reverse).utf8ByteSize
    rw [cursor.position_eq, ← Text.byteLength_eq_utf8ByteSize,
      Text.byteLength_reverse]
  · exact Text.isPlace_iff_isValid.mp (.of_chars hChars)
  · rw [← hText]
    exact String.ofList_append.symm
  · unfold Cursor.rest
    rw [String.toList_ofList]
    rfl
  · unfold Cursor.rest
    rw [String.ofList_eq_empty_iff]
    show cursor.peek.isNone = true ↔ _
    rw [Option.isNone_iff_eq_none, Cursor.peek_eq_none_iff]

/-
  The text is the longest beginning of the other one in which
  every character satisfies the predicate.
-/
structure LongestRun
    (p : Char → Bool)
    (taken rest : String) : Prop where
  all : ∀ c ∈ taken.toList, p c = true
  begins : ∃ left, rest = taken ++ left
  longest : ∀ front back,
    rest = front ++ back →
      (∀ c ∈ front.toList, p c = true) →
        front.toList <+: taken.toList

theorem longestRun_takeWhile
    (p : Char → Bool)
    (text : List Char) :
    LongestRun p (String.ofList (text.takeWhile p))
      (String.ofList text) := by
  refine ⟨?_, ?_, ?_⟩
  · intro c hMember
    rw [String.toList_ofList] at hMember
    exact List.mem_takeWhile_imp hMember
  · refine ⟨String.ofList (text.dropWhile p), ?_⟩
    rw [← String.ofList_append,
      List.takeWhile_append_dropWhile]
  · intro front back hRest hFront
    have hText : text = front.toList ++ back.toList := by
      rw [← String.toList_append, ← hRest,
        String.toList_ofList]
    rw [String.toList_ofList, hText,
      List.takeWhile_append_of_pos hFront]
    exact List.prefix_append _ _

/-
  Whatever is done with a scanner, one step after another, no
  cut fails, and it represents what was consumed. A further
  run of characters is what is then consumed, and the longest
  one that there is.
-/
theorem runAll_represents
    (text : String)
    (steps : List Step) :
    ∃ trace rest,
      runAll steps (Trace.start text) = some ((), trace) ∧
        trace.Represents text rest ∧
          ∀ p, ∃ taken next left,
            takeWhile p trace = some (taken, next) ∧
              next.Represents text left ∧
                next.consumed =
                    trace.consumed ++ taken.toList ∧
                  LongestRun p taken rest := by
  rcases runAll_at steps (Cursor.ofText text) with
    ⟨cursor, hReaches, hRun⟩
  refine ⟨Trace.at cursor, cursor.rest, ?_,
    represents_at hReaches, ?_⟩
  · rw [start_eq_at]
    exact hRun
  · intro p
    have hNext := hReaches.trans (.span cursor p)
    refine ⟨_, _, _, takeWhile_at p cursor,
      represents_at hNext, ?_, longestRun_takeWhile p _⟩
    rw [String.toList_ofList]
    show (_ ++ cursor.behind).reverse = _
    rw [List.reverse_append, List.reverse_reverse]
    rfl

end Scanner

end Marginalia
