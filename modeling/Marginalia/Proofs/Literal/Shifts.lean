import Marginalia.Proofs.Literal.Progress
import Marginalia.Proofs.Shifts

/-
  Reading a literal depends only on the text ahead: every
  reader that looks and moves like the cursor reads what the
  cursor reads. At a place in a longer text everything is as
  if that text began there, apart from the positions.

  Key definitions include:
    * `ItemReader.ShiftsTo`

  Main statements:
    * `Literal.string_shifts`
    * `Literal.inferElement_shifts`
    * `Descriptor.fill_shifts`
    * `Descriptor.readAt_ahead`
-/

namespace Marginalia

variable {τ : Type}
variable [Reader τ]
variable {t : Translation τ}

namespace Literal

------------------------------------------------------------
-- Strings
------------------------------------------------------------

theorem scalarOf_shifts
    (digits : List Char)
    (start : Nat) :
    Shifts t.place t.bytes (scalarOf digits start)
      (scalarOf digits (t.bytes + start)) := by
  unfold scalarOf
  cases Text.scalar? digits with
  | none => exact .wrong _ _ start
  | some c => exact .pure c

theorem hexDigits_shifts
    (count : Nat) :
    Shifts t.place t.bytes (hexDigits count)
      (hexDigits count) := by
  induction count with
  | zero => exact .pure []
  | succ count ih =>
      unfold hexDigits
      apply Shifts.peek.bind
      intro next
      cases next with
      | none => exact .pure []
      | some c =>
          refine .ite ?_ (.pure [])
          apply Shifts.skip.bind
          intro _
          exact ih.bind fun digits => .pure (c :: digits)

theorem scalarOfLength_shifts
    (count start : Nat) :
    Shifts t.place t.bytes (scalarOfLength count start)
      (scalarOfLength count
        (t.bytes + start)) := by
  apply (hexDigits_shifts count).bind
  intro digits
  exact .ite (.wrong _ _ start) (scalarOf_shifts digits start)

theorem escape_shifts
    (letter : Char)
    (start : Nat) :
    Shifts t.place t.bytes (escape letter start)
      (escape letter (t.bytes + start)) := by
  unfold escape
  cases simpleEscape? letter with
  | some c => exact .pure c
  | none =>
      dsimp only
      split
      · exact scalarOfLength_shifts 2 start
      · apply (Shifts.eat '{').bind
        intro opened
        refine .ite ?_ (scalarOfLength_shifts 4 start)
        apply (Shifts.takeWhile _).bind
        intro digits
        apply (Shifts.eat '}').bind
        intro closed
        exact .ite (scalarOf_shifts digits start)
          (.unexpected _ start)
      · exact scalarOfLength_shifts 8 start
      · exact .wrong _ _ start

theorem quotedRound_shifts
    (start : Nat)
    (read : List Char) :
    Shifts t.place t.bytes (quotedRound start read)
      (quotedRound (t.bytes + start) read) := by
  refine .position fun place => ?_
  apply Shifts.next.bind
  intro next
  split
  · exact .throw (.unterminated .quoted start)
  · exact .pure _
  · apply Shifts.next.bind
    intro letter
    cases letter with
    | none => exact .throw (.unterminated .quoted start)
    | some letter =>
        apply (escape_shifts letter place).bind
        intro c
        exact .pure _
  · exact .pure _

theorem quoted_shifts :
    Shifts t.place t.bytes quoted quoted := by
  rw [quoted_eq, quoted_eq]
  refine .position fun start => ?_
  apply Shifts.skip.bind
  intro _
  exact .loop (quotedRound_shifts start) []

theorem backtick_shifts :
    Shifts t.place t.bytes backtick backtick := by
  refine .position fun start => ?_
  apply Shifts.skip.bind
  intro _
  apply (Shifts.takeWhile _).bind
  intro body
  apply (Shifts.eat '`').bind
  intro closed
  exact .ite (.pure _) (.throw (.unterminated .backtick start))

theorem bare_shifts
    (stops : List Char) :
    Shifts t.place t.bytes (bare stops) (bare stops) :=
  (Shifts.takeWhile _).bind fun _ => .pure _

theorem string_shifts
    (stops : List Char) :
    Shifts t.place t.bytes (string stops)
      (string stops) := by
  apply Shifts.peek.bind
  intro next
  split
  · exact quoted_shifts
  · exact backtick_shifts
  · exact bare_shifts stops

------------------------------------------------------------
-- Raw Text
------------------------------------------------------------

theorem balancedStep_shifts
    (depth : Nat)
    (c : Char) :
    Shifts t.place t.bytes (balancedStep depth c)
      (balancedStep depth c) := by
  unfold balancedStep
  split
  · exact quoted_shifts.bind fun _ => .pure _
  · exact backtick_shifts.bind fun _ => .pure _
  · exact Shifts.skip.bind fun _ => .pure _
  · exact Shifts.skip.bind fun _ => .pure _
  · exact Shifts.skip.bind fun _ => .pure _
  · exact Shifts.skip.bind fun _ => .pure _
  · exact Shifts.skip.bind fun _ => .pure _

theorem balancedRound_shifts
    (stops : List Char)
    (depth : Nat) :
    Shifts t.place t.bytes (balancedRound stops depth)
      (balancedRound stops depth) := by
  apply Shifts.peek.bind
  intro next
  cases next with
  | none => exact .pure _
  | some c => exact .ite (.pure _) (balancedStep_shifts depth c)

/- What was passed is cut out where the loop has stopped. -/
theorem passed_shifts
    {start place : Cursor}
    (hReaches : start.Reaches place)
    (next : List Char → String) :
    (do
      return next (← passedSince (t.place start)) :
      Reading τ String) (t.place place) =
      shiftEnd t.place t.bytes
        ((do return next (← passedSince start) : Scan String)
          place) := by
  have hPassed :
      passedSince (t.place start) (t.place place) =
        .ok
          (Reader.since (t.place start) (t.place place)).1
          (Reader.since (t.place start) (t.place place)).2 :=
    rfl
  rw [run_bind, hPassed, t.since start place hReaches]
  rfl

theorem balanced_shifts
    (stops : List Char) :
    Shifts t.place t.bytes (balanced stops)
      (balanced stops) := by
  intro start
  have hLoop :=
    Shifts.loop (t := t) (balancedRound_shifts stops) 0 start
  have hAdvances :=
    Advances.loop (balancedRound_advances stops) 0 start
      (Nat.lt_succ_self _)
  unfold AdvancesFrom at hAdvances
  rw [balanced_eq, balanced_eq]
  show
    ((do
      Scan.loop (balancedRound stops) 0
      return String.ofList
        (Text.trimEnd (← passedSince (t.place start)))) :
      Reading τ String) (t.place start) =
      shiftEnd t.place t.bytes
        (((do
          Scan.loop (balancedRound stops) 0
          return String.ofList
            (Text.trimEnd (← passedSince start))) :
          Scan String) start)
  rw [run_bind, run_bind, hLoop]
  cases hRun : Scan.loop (balancedRound stops) 0 start with
  | error error place => rfl
  | ok result place =>
      rw [hRun] at hAdvances
      exact passed_shifts hAdvances.1
        (fun passed => String.ofList (Text.trimEnd passed))

theorem remainder_shifts :
    Shifts t.place t.bytes remainder remainder :=
  .modifyGet t.remainder

------------------------------------------------------------
-- Scalars
------------------------------------------------------------

theorem storeBool_shifts
    (target : Target)
    (word : String)
    (start : Nat) :
    Shifts t.state t.bytes (storeBool target word start)
      (storeBool target word
        (t.bytes + start)) := by
  unfold storeBool
  split
  · exact .store _ _ start
  · exact .store _ _ start
  · exact .lift (.unexpected _ start)
  · exact .lift (.wrong _ _ start)

theorem storeSigned_shifts
    (target : Target)
    (negative : Bool)
    (digits : List Char)
    (start : Nat) :
    Shifts t.state t.bytes
      (storeSigned target negative digits start)
      (storeSigned target negative digits
        (t.bytes + start)) := by
  unfold storeSigned
  exact .ite (.store _ _ start)
    (.throw (.overflow _ _ start))

theorem storeUnsigned_shifts
    (target : Target)
    (digits : List Char)
    (start : Nat) :
    Shifts t.state t.bytes
      (storeUnsigned target digits start)
      (storeUnsigned target digits
        (t.bytes + start)) := by
  unfold storeUnsigned
  exact .ite (.store _ _ start)
    (.throw (.overflow _ _ start))

theorem fillBool_shifts
    (target : Target) :
    Shifts t.state t.bytes (fillBool target)
      (fillBool target) := by
  rw [fillBool_eq, fillBool_eq]
  refine .positionLift fun start => ?_
  apply (Shifts.takeWhile _).lift.bind
  intro word
  exact storeBool_shifts target _ start

theorem fillSigned_shifts
    (target : Target) :
    Shifts t.state t.bytes (fillSigned target)
      (fillSigned target) := by
  rw [fillSigned_eq, fillSigned_eq]
  refine .positionLift fun start => ?_
  apply (Shifts.eat '-').lift.bind
  intro negative
  refine .positionLift fun digitsStart => ?_
  apply (Shifts.takeWhile _).lift.bind
  intro digits
  exact .ite (.lift (.unexpected _ digitsStart))
    (storeSigned_shifts target negative digits start)

theorem fillUnsigned_shifts
    (target : Target) :
    Shifts t.state t.bytes (fillUnsigned target)
      (fillUnsigned target) := by
  rw [fillUnsigned_eq, fillUnsigned_eq]
  refine .positionLift fun start => ?_
  apply Shifts.peek.lift.bind
  intro next
  refine .ite (.lift (.unexpected _ start)) ?_
  apply (Shifts.takeWhile _).lift.bind
  intro digits
  exact .ite (.lift (.unexpected _ start))
    (storeUnsigned_shifts target digits start)

theorem fillString_shifts
    (target : Target) :
    Shifts t.state t.bytes (fillString target)
      (fillString target) := by
  refine .positionLift fun start => ?_
  apply (string_shifts _).lift.bind
  intro value
  exact .store _ _ start

theorem fillRaw_shifts
    (frame : Frame)
    (target : Target) :
    Shifts t.state t.bytes (fillRaw frame target)
      (fillRaw frame target) := by
  refine .positionLift fun start => ?_
  cases frame with
  | whole =>
      apply remainder_shifts.lift.bind
      intro raw
      exact .store _ _ start
  | group | run =>
      apply (balanced_shifts _).lift.bind
      intro raw
      exact .store _ _ start

------------------------------------------------------------
-- Groups
------------------------------------------------------------

theorem closing_shifts
    {δ : Type}
    (start : Nat) :
    Shifts t.state t.bytes
      (Fill.closing start : Fill δ Bool)
      (Fill.closing (t.bytes + start)) := by
  apply Shifts.skipBlanks.lift.bind
  intro _
  apply Shifts.peek.lift.bind
  intro next
  split
  · exact Shifts.skip.lift.bind fun _ => .pure _
  · exact Shifts.skip.lift.bind fun _ => .pure _
  · exact .throw (.unterminated .group start)
  · exact .positionLift fun place =>
      .lift (.unexpected _ place)

theorem groupRound_shifts
    {δ : Type}
    {element : Fill δ Unit}
    {element' : Filling τ δ Unit}
    (hElement : Shifts t.state t.bytes element element')
    (start : Nat) :
    Shifts t.state t.bytes (Fill.groupRound element start)
      (Fill.groupRound element' (t.bytes + start)) := by
  apply Shifts.skipBlanks.lift.bind
  intro _
  apply Shifts.peek.lift.bind
  intro next
  refine .ite (.throw (.unterminated .group start)) ?_
  exact hElement.bind fun _ => closing_shifts start

theorem group_shifts
    {δ : Type}
    {element : Fill δ Unit}
    {element' : Filling τ δ Unit}
    (hElement : Shifts t.state t.bytes element element') :
    Shifts t.state t.bytes (Fill.group element)
      (Fill.group element') := by
  rw [Fill.group_eq, Fill.group_eq]
  refine .positionLift fun start => ?_
  apply Shifts.skip.lift.bind
  intro _
  apply Shifts.skipBlanks.lift.bind
  intro _
  apply (Shifts.eat '}').lift.bind
  intro closed
  exact .ite (.pure _)
    (.loopWhile (groupRound_shifts hElement start))

------------------------------------------------------------
-- Slices and Maps
------------------------------------------------------------

/- The other reader reads the items alike. -/
def ItemReader.ShiftsTo
    (item : ItemReader)
    (t : Translation τ)
    (item' : ItemReader τ) : Prop :=
  ∀ frame target,
    Shifts t.state t.bytes (item frame target)
      (item' frame target)

variable {item : ItemReader}
variable {item' : ItemReader τ}

theorem fillItem_shifts
    (hItem : item.ShiftsTo t item')
    (frame : Frame)
    (target : Target) :
    Shifts t.state t.bytes (fillItem item frame target)
      (fillItem item' frame target) := by
  refine .positionLift fun start => ?_
  apply (Shifts.store _ _ start).bind
  intro child
  exact .within child (hItem frame child.inner)

theorem sliceRound_shifts
    (hItem : item.ShiftsTo t item')
    (frame : Frame)
    (target : Target) :
    Shifts t.state t.bytes (sliceRound item frame target)
      (sliceRound item' frame target) := by
  apply (fillItem_shifts hItem .run target).bind
  intro _
  apply Shifts.skipBlanks.lift.bind
  intro _
  exact .ite (.pure false) (Shifts.eat ';').lift

theorem fillSlice_shifts
    (hItem : item.ShiftsTo t item')
    (frame : Frame)
    (target : Target) :
    Shifts t.state t.bytes (fillSlice item frame target)
      (fillSlice item' frame target) := by
  rw [fillSlice_eq, fillSlice_eq]
  refine .positionLift fun start => ?_
  apply (Shifts.store _ _ start).bind
  intro _
  apply Shifts.peek.lift.bind
  intro next
  split
  · exact group_shifts (fillItem_shifts hItem .group target)
  · exact .pure ()
  · exact .pure ()
  · exact .pure ()
  · exact .pure ()
  · exact .loopWhile (sliceRound_shifts hItem frame target)

theorem fillUnder_shifts
    (hItem : item.ShiftsTo t item')
    (target : Target)
    (key : String)
    (start : Nat) :
    Shifts t.state t.bytes (fillUnder item target key start)
      (fillUnder item' target key
        (t.bytes + start)) := by
  apply (Shifts.store _ _ start).bind
  intro child
  exact .within child (hItem .group child.inner)

theorem fillEntry_shifts
    (hItem : item.ShiftsTo t item')
    (target : Target) :
    Shifts t.state t.bytes (fillEntry item target)
      (fillEntry item' target) := by
  rw [fillEntry_eq, fillEntry_eq]
  refine .positionLift fun keyStart => ?_
  apply (string_shifts _).lift.bind
  intro key
  apply Shifts.skipBlanks.lift.bind
  intro _
  refine .positionLift fun colonStart => ?_
  apply (Shifts.eat ':').lift.bind
  intro colon
  exact .ite (fillUnder_shifts hItem target key keyStart)
    (.lift (.unexpected _ colonStart))

theorem fillMap_shifts
    (hItem : item.ShiftsTo t item')
    (target : Target) :
    Shifts t.state t.bytes (fillMap item target)
      (fillMap item' target) := by
  rw [fillMap_eq, fillMap_eq]
  refine .positionLift fun start => ?_
  apply Shifts.peek.lift.bind
  intro next
  refine .ite ?_ (.lift (.unexpected _ start))
  apply (Shifts.store _ _ start).bind
  intro _
  exact group_shifts (fillEntry_shifts hItem target)

------------------------------------------------------------
-- Inference
------------------------------------------------------------

theorem inferToken_shifts
    (token : String)
    (start : Nat) :
    Shifts t.place t.bytes (inferToken token start)
      (inferToken token (t.bytes + start)) := by
  unfold inferToken
  split
  · exact .pure _
  · exact .pure _
  · split
    · exact .ite (.pure _) (.throw (.overflow _ _ start))
    · exact .pure _

theorem inferRun_shifts
    {element : Scan Value}
    {element' : Reading τ Value}
    (hElement : Shifts t.place t.bytes element element')
    (first : Value) :
    Shifts t.place t.bytes (inferRun element first)
      (inferRun element' first) := by
  refine .loop (fun items => ?_) [first]
  apply (Shifts.eat ';').bind
  intro another
  refine .ite ?_ (.pure _)
  apply hElement.bind
  intro item
  exact Shifts.skipBlanks.bind fun _ => .pure _

theorem inferWith_shifts
    {element : Scan Value}
    {element' : Reading τ Value}
    (hElement : Shifts t.place t.bytes element element')
    (frame : Frame) :
    Shifts t.place t.bytes (inferWith element frame)
      (inferWith element' frame) := by
  apply hElement.bind
  intro first
  refine .ite (.pure first) ?_
  apply Shifts.skipBlanks.bind
  intro _
  apply Shifts.peek.bind
  intro next
  exact .ite (inferRun_shifts hElement first) (.pure first)

theorem fillAny_shifts
    {element : Scan Value}
    {element' : Reading τ Value}
    (hElement : Shifts t.place t.bytes element element') :
    (fillAny element).ShiftsTo t (fillAny element') := by
  intro frame target
  refine .positionLift fun start => ?_
  apply (inferWith_shifts hElement frame).lift.bind
  intro value
  exact .store _ _ start

/- The colon is looked for in the text ahead. -/
theorem inferGroup_shifts
    (hItem : item.ShiftsTo t item') :
    Shifts t.place t.bytes (inferGroup item)
      (inferGroup item') := by
  apply (Shifts.hasTopLevel ':').bind
  intro isMap
  refine .ite ?_ ?_
  · exact .collect _ (fillMap_shifts hItem .dynamic)
  · exact .collect _ (fillSlice_shifts hItem .group .dynamic)

theorem inferElement_shifts
    (depth : Nat) :
    Shifts t.place t.bytes (inferElement depth)
      (inferElement depth) := by
  induction depth with
  | zero => exact .throw .exhausted
  | succ depth ih =>
      have hItem :
          (anyItem depth).ShiftsTo t (anyItem depth) := by
        intro frame target
        apply Shifts.skipBlanks.lift.bind
        intro _
        exact fillAny_shifts ih frame target
      rw [inferElement_succ, inferElement_succ]
      apply Shifts.skipBlanks.bind
      intro _
      apply Shifts.peek.bind
      intro next
      split
      · exact inferGroup_shifts hItem
      · exact quoted_shifts.bind fun _ => .pure _
      · exact backtick_shifts.bind fun _ => .pure _
      · refine .position fun start => ?_
        apply (bare_shifts _).bind
        intro token
        exact inferToken_shifts token start

/- The number of groups is limited by the text ahead. -/
theorem element_shifts :
    Shifts t.place t.bytes element element := by
  refine .get fun cursor => ?_
  rw [t.left]
  exact inferElement_shifts (cursor.ahead.length + 1)

end Literal

------------------------------------------------------------
-- Descriptors
------------------------------------------------------------

namespace Descriptor

open Literal

theorem fillFlat_shifts
    (descriptor : Descriptor) :
    ItemReader.ShiftsTo descriptor.fillFlat t
      descriptor.fillFlat := by
  intro frame target
  unfold fillFlat
  split
  · exact fillBool_shifts target
  · exact fillSigned_shifts target
  · exact fillUnsigned_shifts target
  · exact fillString_shifts target
  · exact fillRaw_shifts frame target
  · exact fillAny_shifts element_shifts frame target
  · exact .throw (.unsupported _)
  · exact .throw (.unsupported _)
  · exact .throw (.unsupported _)

/- Every grammar reads alike in a longer text. -/
theorem fill_shifts
    (descriptor : Descriptor) :
    ItemReader.ShiftsTo descriptor.fill t descriptor.fill := by
  induction descriptor with
  | plain kind =>
      intro frame target
      rw [fill_eq, fill_eq]
      apply Shifts.skipBlanks.lift.bind
      intro _
      exact fillFlat_shifts _ frame target
  | nested kind item ih =>
      intro frame target
      rw [fill_eq, fill_eq]
      apply Shifts.skipBlanks.lift.bind
      intro _
      cases kind with
      | slice => exact fillSlice_shifts ih frame target
      | map => exact fillMap_shifts ih target
      | _ => exact fillFlat_shifts _ frame target

/- The outcome, with another text in front of its own. -/
def Outcome.after
    {δ : Type}
    (front : List Char)
    (outcome : Outcome δ) : Outcome δ :=
  { result :=
      outcome.result.mapError
        (ReadError.shift (Text.byteLength front))
    cursor := outcome.cursor.after front
    content := outcome.content }

theorem outcomeOf_after
    {δ : Type}
    {action : Fill δ Unit}
    (hAction :
      Shifts (Translation.inFront front).state
        (Text.byteLength front) action action)
    (cursor : Cursor)
    (content : δ) :
    outcomeOf action (cursor.after front) content =
      (outcomeOf action cursor content).after front := by
  have hRun := hAction (cursor, content)
  unfold Translation.state at hRun
  unfold outcomeOf
  dsimp only [Translation.inFront] at hRun
  rw [hRun]
  cases action (cursor, content) <;> rfl

theorem readAt_after
    (descriptor : Descriptor)
    (front : List Char)
    (cursor : Cursor)
    (target : Target)
    (content : target.Content) :
    descriptor.readAt (cursor.after front) target content =
      (descriptor.readAt cursor target content).after front :=
  outcomeOf_after
    (descriptor.fill_shifts
      (t := Translation.inFront front) .whole target)
    cursor content

/-
  A literal at a place in a text is read as if the text began
  at that place. The destination is left the same, and so is
  the result, except for the position in an error. This and
  the place where reading ends are farther by the bytes in
  front.
-/
theorem readAt_ahead
    (descriptor : Descriptor)
    (cursor : Cursor)
    (target : Target)
    (content : target.Content) :
    let inside := descriptor.readAt cursor target content
    let alone :=
      descriptor.readAt (Cursor.ofText cursor.rest) target
        content
    inside.content = alone.content ∧
      inside.result =
          alone.result.mapError
            (ReadError.shift cursor.position) ∧
        inside.cursor.position =
            cursor.position + alone.cursor.position ∧
          inside.cursor.ahead = alone.cursor.ahead := by
  intro inside alone
  -- The place is the start of the text ahead, with what is
  -- behind it put in front again.
  have hStart :
      (Cursor.ofText cursor.rest).after
          cursor.behind.reverse =
        cursor := by
    unfold Cursor.ofText Cursor.rest
    rw [String.toList_ofList]
    exact cursor.after_ofChars
  have hBytes :
      Text.byteLength cursor.behind.reverse =
        cursor.position := by
    rw [Text.byteLength_reverse, cursor.position_eq]
  have hInside :
      inside = alone.after cursor.behind.reverse := by
    have hAfter :=
      descriptor.readAt_after cursor.behind.reverse
        (Cursor.ofText cursor.rest) target content
    rw [hStart] at hAfter
    exact hAfter
  rw [hInside, ← hBytes]
  exact ⟨rfl, rfl, rfl, rfl⟩

end Descriptor

end Marginalia
