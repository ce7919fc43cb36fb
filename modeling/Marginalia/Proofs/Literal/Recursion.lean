import Marginalia.Proofs.Literal.Progress
import Marginalia.Proofs.Regions

/-
  How the grammars call one another: later in the text, or at
  the same place for a smaller descriptor. Together with the
  rounds of the loops, which pass a character each, this ends
  every reading.

  Key definitions include:
    * `Literal.elementWith`
    * `Descriptor.fillWith`
    * `Descriptor.Below`
    * `Descriptor.CallsBelow`
    * `Descriptor.fillWithin`
    * `Descriptor.RoundsAdvance`
    * `Descriptor.Proceeds`

  Main statements:
    * `Descriptor.element_eq_elementWith`
    * `Descriptor.fillWith_eq_fill`
    * `Descriptor.fillWithin_eq_fill`
    * `Descriptor.fill_proceeds`
-/

namespace Marginalia

open ReadError (Answers)

variable {region : Region}
variable {cursor : Cursor}

namespace Literal

------------------------------------------------------------
-- Items that are Read the Same
------------------------------------------------------------

/- In the region it does not matter which reader is called. -/
def ItemReader.SameIn
    (region : Region)
    (item item' : ItemReader) : Prop :=
  ∀ frame target,
    Marginalia.SameIn Prod.fst region (item frame target)
      (item' frame target)

variable {item item' : ItemReader}

theorem ItemReader.SameIn.mono
    {region' : Region}
    (hItem : ItemReader.SameIn region item item')
    (hRegion : ∀ place,
      region'.contains place → region.contains place) :
    ItemReader.SameIn region' item item' := by
  intro frame target state hState
  exact hItem frame target state (hRegion _ hState)

theorem fillItem_same
    (hItem : ItemReader.SameIn region item item')
    (frame : Frame)
    (target : Target) :
    SameIn Prod.fst region (fillItem item frame target)
      (fillItem item' frame target) := by
  apply (SameIn.of_advances
    fun _ => Advances.position.lift).bind
  intro start
  apply (SameIn.of_advances fun _ => .store _ _ _).bind
  intro child
  exact .within child (hItem frame child.inner)

theorem sliceRound_same
    (hItem : ItemReader.SameIn region item item')
    (frame : Frame)
    (target : Target) :
    SameIn Prod.fst region (sliceRound item frame target)
      (sliceRound item' frame target) := by
  apply (fillItem_same hItem .run target).bind
  intro _
  apply (SameIn.of_advances
    fun _ => Advances.skipBlanks.lift).bind
  intro _
  refine .ite (.pure _) ?_
  exact .of_advances fun _ => (Advances.eat _).lift

theorem fillEntry_same
    (hItem : ItemReader.SameIn region item item')
    (target : Target) :
    SameIn Prod.fst region (fillEntry item target)
      (fillEntry item' target) := by
  rw [fillEntry_eq, fillEntry_eq]
  apply (SameIn.of_advances
    fun _ => Advances.position.lift).bind
  intro keyStart
  apply (SameIn.of_advances
    fun _ => (string_advances _).answers.lift).bind
  intro key
  apply (SameIn.of_advances
    fun _ => Advances.skipBlanks.lift).bind
  intro _
  apply (SameIn.of_advances
    fun _ => Advances.position.lift).bind
  intro colonStart
  apply (SameIn.of_advances
    fun _ => (Advances.eat _).lift).bind
  intro colon
  refine .ite ?_ ?_
  · apply (SameIn.of_advances fun _ => .store _ _ _).bind
    intro child
    exact .within child (hItem .group child.inner)
  · exact (SameIn.unexpected _ _).lift

------------------------------------------------------------
-- Groups
------------------------------------------------------------

section Groups

variable {δ : Type}
variable {element element' : Fill δ Unit}

theorem groupRound_same
    (hElement : SameIn Prod.fst region element element')
    (start : Nat) :
    SameIn Prod.fst region (Fill.groupRound element start)
      (Fill.groupRound element' start) := by
  apply (SameIn.of_advances
    fun _ => Advances.skipBlanks.lift).bind
  intro _
  apply (SameIn.of_advances fun _ => Advances.peek.lift).bind
  intro next
  refine .ite (.throw _) ?_
  apply hElement.bind
  intro _
  exact .of_advances fun _ => closing_advances start

/- The elements of a group are past its opening brace. -/
theorem group_sameFrom
    {content : δ}
    {c : Char}
    (hPeek : cursor.peek = some c)
    (hAdvances : ∀ bound,
      Advances Prod.fst Answers bound (fun _ => False)
        element)
    (hElement :
      SameIn Prod.fst (.past cursor) element element') :
    SameFrom Prod.fst (Fill.group element)
      (Fill.group element') (cursor, content) := by
  have hInside :
      (Region.past cursor).contains
        cursor.advance.skipBlanks :=
    (Region.past cursor).onward
      (Region.past_advance hPeek) (Cursor.Reaches.skipBlanks _)
  constructor
  · rw [Fill.run_group, Fill.run_group]
    have hRounds :=
      SameIn.loopWhile
        (groupRound_same hElement cursor.position)
        (cursor.advance.skipBlanks, content) hInside
    rw [hRounds.1]
  · exact (SameFrom.of_advancesFrom
      (group_advancesFrom hPeek (hAdvances _))).2

end Groups

variable (hAdvances : ∀ bound, item.AdvancesBelow bound)

include hAdvances

/-
  Items of a group are past its brace. Only without a brace an
  item is read where the slice begins.
-/
theorem fillSlice_sameFrom
    (hInside : ItemReader.SameIn (.past cursor) item item')
    (hRun :
      cursor.peek ≠ some '{' →
        ItemReader.SameIn (.since cursor) item item')
    (frame : Frame)
    (target : Target)
    (content : target.Content) :
    SameFrom Prod.fst (fillSlice item frame target)
      (fillSlice item' frame target) (cursor, content) := by
  rw [fillSlice_eq, fillSlice_eq]
  refine .positionLift (.storeBind fun _ content' => ?_)
  refine .peekLift ?_
  split
  · rename_i hPeek
    exact group_sameFrom hPeek
      (fun _ => fillItem_advances (hAdvances _) _ _)
      (fillItem_same hInside .group target)
  · exact ⟨rfl, Cursor.Reaches.refl _⟩
  · exact ⟨rfl, Cursor.Reaches.refl _⟩
  · exact ⟨rfl, Cursor.Reaches.refl _⟩
  · exact ⟨rfl, Cursor.Reaches.refl _⟩
  · rename_i c hNotBrace _ _ _ hPeek
    have hNotOpen : cursor.peek ≠ some '{' := by
      intro hOpen
      rw [hPeek] at hOpen
      exact hNotBrace (Option.some.inj hOpen)
    exact SameIn.loopWhile
      (sliceRound_same (hRun hNotOpen) frame target)
      (cursor, content') (Cursor.Reaches.refl cursor)

theorem fillMap_sameFrom
    (hInside : ItemReader.SameIn (.past cursor) item item')
    (target : Target)
    (content : target.Content) :
    SameFrom Prod.fst (fillMap item target)
      (fillMap item' target) (cursor, content) := by
  rw [fillMap_eq, fillMap_eq]
  refine .positionLift (.peekLift ?_)
  by_cases hPeek : cursor.peek = some '{'
  · rw [if_pos hPeek, if_pos hPeek]
    refine .storeBind fun _ content' => ?_
    exact group_sameFrom hPeek
      (fun _ => fillEntry_advances (hAdvances _) _)
      (fillEntry_same hInside target)
  · rw [if_neg hPeek, if_neg hPeek]
    have hSame :
        SameIn id (.since cursor)
          (Scan.unexpected (.character '{') cursor.position :
            Scan Unit)
          (Scan.unexpected (.character '{')
            cursor.position) :=
      .unexpected _ _
    exact (hSame cursor (Cursor.Reaches.refl cursor)).lift

------------------------------------------------------------
-- Inference
------------------------------------------------------------

theorem inferGroup_sameFrom
    (hPeek : cursor.peek = some '{')
    (hInside : ItemReader.SameIn (.past cursor) item item') :
    SameFrom id (inferGroup item) (inferGroup item')
      cursor := by
  refine .get (.ite (fun _ => ?_) (fun _ => ?_))
  · exact .collect
      (fillMap_sameFrom hAdvances hInside .dynamic Value.null)
  · exact .collect
      (fillSlice_sameFrom hAdvances hInside
        (fun hNotOpen => absurd hPeek hNotOpen)
        .group .dynamic Value.null)

omit hAdvances

/-
  Read one element by the form of its text, given a reader for
  what is in a group.
-/
def elementWith
    (item : ItemReader) : Scan Value := do
  Scan.skipBlanks
  match ← Scan.peek with
  | some '{' => inferGroup item
  | some '"' => return .string (← quoted)
  | some '`' => return .string (← backtick)
  | _ =>
      let start ← Scan.position
      let token ← bare Scan.delimiters
      inferToken token start

theorem inferElement_eq_elementWith
    (depth : Nat) :
    inferElement (depth + 1) = elementWith (anyItem depth) :=
  inferElement_succ depth

include hAdvances

/- Only past the place of an element a reader is called. -/
theorem elementWith_same
    (hInside : ItemReader.SameIn (.past cursor) item item') :
    SameIn id (.since cursor) (elementWith item)
      (elementWith item') := by
  unfold elementWith
  apply (SameIn.of_advances fun _ => Advances.skipBlanks).bind
  intro _ place hPlace
  apply SameFrom.peek
  split
  · rename_i hPeek
    exact inferGroup_sameFrom hAdvances hPeek
      (hInside.mono fun _ => Region.past_of_reaches hPlace)
  · rename_i hPeek
    apply (SameFrom.of_advancesFrom
      (quoted_advancesFrom hPeek).answers).bind
    intro value state _
    exact ⟨rfl, Cursor.Reaches.refl _⟩
  · rename_i hPeek
    apply (SameFrom.of_advancesFrom
      (backtick_advancesFrom hPeek).answers).bind
    intro value state _
    exact ⟨rfl, Cursor.Reaches.refl _⟩
  · refine SameIn.bind
      (.of_advances fun _ => Advances.position)
      (fun start => ?_) place hPlace
    apply (SameIn.of_advances
      fun _ => (bare_advances _).answers).bind
    intro token
    exact .of_advances
      fun _ => (inferToken_advances _ _).answers

omit hAdvances

section Elements

variable {element element' : Scan Value}
variable (hElement : SameIn id region element element')

include hElement

theorem runRound_same
    (items : List Value) :
    SameIn id region (runRound element items)
      (runRound element' items) := by
  apply (SameIn.of_advances fun _ => Advances.eat _).bind
  intro another
  refine .ite ?_ (.pure _)
  apply hElement.bind
  intro item
  apply (SameIn.of_advances fun _ => Advances.skipBlanks).bind
  intro _
  exact .pure _

theorem inferWith_same
    (frame : Frame) :
    SameIn id region (inferWith element frame)
      (inferWith element' frame) := by
  apply hElement.bind
  intro first
  refine .ite (.pure _) ?_
  apply (SameIn.of_advances fun _ => Advances.skipBlanks).bind
  intro _
  apply (SameIn.of_advances fun _ => Advances.peek).bind
  intro next
  exact .ite (.loop (runRound_same hElement) [first])
    (.pure _)

theorem fillAny_same :
    ItemReader.SameIn region (fillAny element)
      (fillAny element') := by
  intro frame target
  apply (SameIn.of_advances
    fun _ => Advances.position.lift).bind
  intro start
  apply (inferWith_same hElement frame).lift.bind
  intro value
  exact .of_advances fun _ => .store _ _ _

end Elements

end Literal

namespace Descriptor

open Literal

------------------------------------------------------------
-- Elements
------------------------------------------------------------

/- The reader for items whose form is found out. -/
theorem fill_any_eq
    (frame : Frame)
    (target : Target) :
    (plain .any).fill (σ := Cursor) frame target = (do
      Scan.skipBlanks (σ := Cursor)
      fillAny element frame target) :=
  fill_eq _ frame target

theorem anyItem_same
    {depth : Nat}
    (hElement : SameIn id region element (inferElement depth)) :
    ItemReader.SameIn region (plain .any).fill
      (anyItem depth) := by
  intro frame target
  rw [fill_any_eq]
  apply (SameIn.of_advances
    fun _ => Advances.skipBlanks.lift).bind
  intro _
  exact fillAny_same hElement frame target

/-
  The number that limits the nesting of groups makes no
  difference as long as it is larger than the text ahead.
-/
theorem inferElement_eq_of_lt
    (depth : Nat)
    (cursor : Cursor)
    (hDepth : cursor.ahead.length < depth) :
    inferElement depth cursor =
      elementWith (plain .any).fill cursor := by
  induction depth using Nat.strong_induction_on
    generalizing cursor with
  | h depth ih =>
      cases depth with
      | zero => omega
      | succ depth =>
          -- An element in a group has a limit of its own,
          -- which is not larger than the one that is left.
          have hElement :
              SameIn id (.past cursor) element
                (inferElement depth) := by
            intro place hPlace
            have hLess :
                place.ahead.length < cursor.ahead.length :=
              hPlace.2
            have hOwn :
                element place =
                  elementWith (plain .any).fill place :=
              ih (place.ahead.length + 1) (by omega) place
                (Nat.lt_succ_self _)
            have hLeft :
                inferElement depth place =
                  elementWith (plain .any).fill place :=
              ih depth (Nat.lt_succ_self _) place (by omega)
            have hSame : SameFrom id element element place :=
              .of_advancesFrom
                (element_advances place (Nat.lt_succ_self _))
            exact ⟨hLeft.trans hOwn.symm, hSame.2⟩
          have hSame :=
            elementWith_same (fill_advances (plain .any))
              (anyItem_same hElement) cursor
              (Cursor.Reaches.refl cursor)
          rw [inferElement_eq_elementWith, hSame.1]

/- One element is read with readers that read like it. -/
theorem element_eq_elementWith :
    element = elementWith (plain .any).fill := by
  funext cursor
  exact inferElement_eq_of_lt _ cursor (Nat.lt_succ_self _)

------------------------------------------------------------
-- Calls
------------------------------------------------------------

/-
  The grammar of a descriptor, given what is called to read
  the items.
-/
def fillWith
    (call : Descriptor → ItemReader)
    (descriptor : Descriptor) : ItemReader :=
  fun frame target => do
    Scan.skipBlanks (σ := Cursor)
    match descriptor with
    | nested .slice item => fillSlice (call item) frame target
    | nested .map item => fillMap (call item) target
    | descriptor =>
        if descriptor.kind = .any then
          fillAny (elementWith (call (plain .any))) frame target
        else
          descriptor.fillFlat frame target

/- How many descriptors there are in a descriptor. -/
def size : Descriptor → Nat
  | plain _ => 1
  | nested _ item => item.size + 1

/-
  The place of the item is strictly later than that of the
  descriptor, or it is the same and the item strictly smaller.
  The item is never larger.
-/
def Below
    (descriptor : Descriptor)
    (cursor : Cursor)
    (item : Descriptor)
    (place : Cursor) : Prop :=
  item.size ≤ descriptor.size ∧
    cursor.Reaches place ∧
      (place.ahead.length < cursor.ahead.length ∨
        place = cursor ∧ item.size < descriptor.size)

instance
    (first second : Cursor) :
    Decidable (first.Reaches second) :=
  let passed :=
    first.ahead.take
      (first.ahead.length - second.ahead.length)
  decidable_of_iff
    (first.ahead = passed ++ second.ahead ∧
      second.behind = passed.reverse ++ first.behind)
    ⟨fun hPassed => ⟨passed, hPassed⟩, by
      rintro ⟨other, hAhead, hBehind⟩
      have hOther : passed = other := by
        simp [passed, hAhead]
      rw [hOther]
      exact ⟨hAhead, hBehind⟩⟩

instance : DecidableEq Cursor :=
  fun first second =>
    decidable_of_iff
      (first.behind = second.behind ∧
        first.ahead = second.ahead)
      ⟨fun hSame => Cursor.ext hSame.1 hSame.2, by
        rintro rfl
        exact ⟨rfl, rfl⟩⟩

instance
    (descriptor : Descriptor)
    (cursor : Cursor)
    (item : Descriptor)
    (place : Cursor) :
    Decidable (descriptor.Below cursor item place) := by
  unfold Below
  infer_instance

/-
  Call the grammar of an item, but only below the descriptor;
  a call from anywhere else fails.
-/
def callBelow
    (descriptor : Descriptor)
    (cursor : Cursor)
    (item : Descriptor) : ItemReader :=
  fun frame target (place, content) =>
    if descriptor.Below cursor item place then
      item.fill frame target (place, content)
    else
      .error .exhausted (place, content)

theorem Below.of_since
    {descriptor item : Descriptor}
    {cursor place : Cursor}
    (hSize : item.size < descriptor.size)
    (hPlace : (Region.since cursor).contains place) :
    descriptor.Below cursor item place :=
  ⟨hSize.le, hPlace, hPlace.lt_or_eq.imp_right
    fun hSame => ⟨hSame, hSize⟩⟩

theorem Below.of_past
    {descriptor item : Descriptor}
    {cursor place : Cursor}
    (hSize : item.size ≤ descriptor.size)
    (hPlace : (Region.past cursor).contains place) :
    descriptor.Below cursor item place :=
  ⟨hSize, hPlace.1, Or.inl hPlace.2⟩

/- No descriptor is smaller than one without items. -/
theorem size_plain_le
    (kind : Kind)
    (descriptor : Descriptor) :
    (plain kind).size ≤ descriptor.size := by
  cases descriptor with
  | plain _ => exact Nat.le_refl _
  | nested _ item => exact Nat.le_add_left _ _

theorem fillFlat_eq_fillAny
    {descriptor : Descriptor}
    (hKind : descriptor.kind = .any)
    (frame : Frame)
    (target : Target) :
    descriptor.fillFlat frame target =
      fillAny (elementWith (plain .any).fill) frame target := by
  unfold fillFlat
  rw [hKind, ← element_eq_elementWith]

/- What is called below the descriptor is the grammar. -/
def CallsBelow
    (descriptor : Descriptor)
    (cursor : Cursor)
    (call : Descriptor → ItemReader) : Prop :=
  ∀ item place,
    descriptor.Below cursor item place →
      ∀ frame target content,
        call item frame target (place, content) =
          item.fill frame target (place, content)

/- A reader that is the grammar in a region is the same there. -/
theorem fill_same
    {item : Descriptor}
    {reader : ItemReader}
    (hReader : ∀ place,
      region.contains place →
        ∀ frame target content,
          reader frame target (place, content) =
            item.fill frame target (place, content)) :
    ItemReader.SameIn region item.fill reader := by
  rintro frame target ⟨place, content⟩ hPlace
  have hSame :
      SameFrom Prod.fst (item.fill frame target)
        (item.fill frame target) (place, content) :=
    .of_advancesFrom
      (fill_advances item _ frame target (place, content)
        (Nat.lt_succ_self _))
  exact ⟨hReader place hPlace frame target content, hSame.2⟩

section Calls

variable {call : Descriptor → ItemReader}
variable {descriptor item : Descriptor}
variable (hCall : descriptor.CallsBelow cursor call)

include hCall

/- From the end of the blanks on, smaller items are below. -/
theorem CallsBelow.since
    (hSize : item.size < descriptor.size) :
    ItemReader.SameIn (.since cursor.skipBlanks) item.fill
      (call item) := by
  apply fill_same
  intro place hPlace
  have hReaches := Cursor.Reaches.skipBlanks cursor
  exact hCall item place
    (.of_since hSize (hReaches.trans hPlace))

/- Past it, items of the same size are below, too. -/
theorem CallsBelow.past
    (hSize : item.size ≤ descriptor.size) :
    ItemReader.SameIn (.past cursor.skipBlanks) item.fill
      (call item) := by
  apply fill_same
  intro place hPlace
  have hReaches := Cursor.Reaches.skipBlanks cursor
  exact hCall item place
    (.of_past hSize (Region.past_of_reaches hReaches hPlace))

/- Elements whose form is found out are called in groups. -/
theorem CallsBelow.fillAny_eq
    (frame : Frame)
    (target : Target)
    (content : target.Content) :
    fillAny (elementWith (call (plain .any))) frame target
        (cursor.skipBlanks, content) =
      fillAny (elementWith (plain .any).fill) frame target
        (cursor.skipBlanks, content) := by
  have hElement :=
    elementWith_same (fill_advances (plain .any))
      (hCall.past (size_plain_le .any descriptor))
  exact (fillAny_same hElement frame target
    (cursor.skipBlanks, content) (Cursor.Reaches.refl _)).1

/-
  What is called matters only for items below the descriptor:
  whatever it does elsewhere, the grammar does not ask for it.
-/
theorem fillWith_eq_fill
    (frame : Frame)
    (target : Target)
    (content : target.Content) :
    fillWith call descriptor frame target (cursor, content) =
      descriptor.fill frame target (cursor, content) := by
  have hFlat :
      (if descriptor.kind = .any then
        fillAny (elementWith (call (plain .any))) frame target
      else
        descriptor.fillFlat frame target)
          (cursor.skipBlanks, content) =
        descriptor.fillFlat frame target
          (cursor.skipBlanks, content) := by
    by_cases hKind : descriptor.kind = .any
    · rw [if_pos hKind, fillFlat_eq_fillAny hKind,
        hCall.fillAny_eq]
    · rw [if_neg hKind]
  rw [fill_eq]
  unfold fillWith
  rw [run_bind, run_bind, Fill.run_lift, Scan.run_skipBlanks]
  cases descriptor with
  | plain kind => exact hFlat
  | nested kind item =>
      have hSmaller : item.size < (nested kind item).size :=
        Nat.lt_succ_self _
      have hInside := hCall.past hSmaller.le
      cases kind with
      | slice =>
          exact (fillSlice_sameFrom (fill_advances item)
            hInside (fun _ => hCall.since hSmaller)
            frame target content).1
      | map =>
          exact (fillMap_sameFrom (fill_advances item)
            hInside target content).1
      | _ => exact hFlat

end Calls

------------------------------------------------------------
-- Bounded Recursion
------------------------------------------------------------

/- The grammar with calls nested no deeper than the number. -/
def fillWithin : Nat → Descriptor → ItemReader
  | 0, _ => fun _ _ => throw .exhausted
  | fuel + 1, descriptor =>
      fillWith (fillWithin fuel) descriptor

/-
  The length of the text ahead and the size of the descriptor
  together go down with every call.
-/
theorem fillWithin_eq_fill
    {fuel : Nat}
    {descriptor : Descriptor}
    {cursor : Cursor}
    (hFuel : cursor.ahead.length + descriptor.size < fuel)
    (frame : Frame)
    (target : Target)
    (content : target.Content) :
    fillWithin fuel descriptor frame target
        (cursor, content) =
      descriptor.fill frame target (cursor, content) := by
  induction fuel generalizing descriptor cursor frame target
    content with
  | zero => omega
  | succ fuel ih =>
      refine fillWith_eq_fill ?_ frame target content
      rintro item place ⟨hSize, hReaches, hLater⟩
      have hLess :
          place.ahead.length + item.size < fuel := by
        rcases hLater with hLess | ⟨rfl, hLess⟩
        · omega
        · omega
      intro frame target content
      exact ih hLess frame target content

------------------------------------------------------------
-- Progress
------------------------------------------------------------

/-
  A round of a loop passes a character if it asks for another
  one: in strings, in raw text, in runs and in groups.
-/
structure RoundsAdvance : Prop where
  quoted : ∀ start read cursor,
    AdvancesFrom id Answers
      (fun step => ∃ next, step = .again next)
      (quotedRound start read) cursor
  balanced : ∀ stops depth cursor,
    AdvancesFrom id Answers
      (fun step => ∃ next, step = .again next)
      (balancedRound stops depth) cursor
  run : ∀ items cursor,
    AdvancesFrom id Answers
      (fun step => ∃ next, step = .again next)
      (runRound element items) cursor
  slice : ∀ (item : Descriptor) frame target state,
    AdvancesFrom Prod.fst Answers
      (fun another => another = true)
      (sliceRound item.fill frame target) state
  items : ∀ (item : Descriptor) target start state,
    AdvancesFrom Prod.fst Answers
      (fun another => another = true)
      (Fill.groupRound (fillItem item.fill .group target)
        start)
      state
  entries : ∀ (item : Descriptor) target start state,
    AdvancesFrom Prod.fst Answers
      (fun another => another = true)
      (Fill.groupRound (fillEntry item.fill target) start)
      state

theorem rounds_advance : RoundsAdvance where
  quoted start read cursor :=
    (quotedRound_advances start read cursor
      (Nat.lt_succ_self _)).answers
  balanced stops depth cursor :=
    (balancedRound_advances stops depth cursor
      (Nat.lt_succ_self _)).answers
  run items cursor :=
    runRound_advances element_advances items cursor
      (Nat.lt_succ_self _)
  slice item frame target state :=
    sliceRound_advances (fill_advances item _) frame target
      state (Nat.lt_succ_self _)
  items item target start state :=
    groupRound_advances
      (fillItem_advances (fill_advances item _) .group target)
      start state (Nat.lt_succ_self _)
  entries item target start state :=
    groupRound_advances
      (fillEntry_advances (fill_advances item _) target)
      start state (Nat.lt_succ_self _)

/-
  How the grammar of a descriptor comes to an end: it answers
  and does not move back, it needs only calls below its own,
  and therefore only so many that are nested.
-/
structure Proceeds
    (descriptor : Descriptor)
    (frame : Frame)
    (target : Target)
    (cursor : Cursor)
    (content : target.Content) : Prop where
  answers :
    AdvancesFrom Prod.fst Answers (fun _ => False)
      (descriptor.fill frame target) (cursor, content)
  calls :
    descriptor.fill frame target (cursor, content) =
      descriptor.fillWith (descriptor.callBelow cursor)
        frame target (cursor, content)
  bounded : ∀ fuel,
    cursor.ahead.length + descriptor.size < fuel →
      fillWithin fuel descriptor frame target
          (cursor, content) =
        descriptor.fill frame target (cursor, content)

/-
  Every reading comes to an end, of whatever text and with
  whatever descriptor: the moves and the rounds of the loops
  only lead ahead, and calls are nested no deeper than the
  text is long and the descriptor large.
-/
theorem fill_proceeds :
    (∀ cursor : Cursor,
      cursor.Reaches cursor.advance ∧
        ∀ p, cursor.Reaches (cursor.span p).2) ∧
    RoundsAdvance ∧
    ∀ (descriptor : Descriptor) frame target cursor content,
      descriptor.Proceeds frame target cursor content := by
  refine ⟨?_, rounds_advance, ?_⟩
  · intro cursor
    exact ⟨Cursor.Reaches.advance cursor,
      Cursor.Reaches.span cursor⟩
  · intro descriptor frame target cursor content
    refine ⟨?_, ?_, ?_⟩
    · exact fill_advances descriptor _ frame target
        (cursor, content) (Nat.lt_succ_self _)
    · refine (fillWith_eq_fill ?_ frame target content).symm
      intro item place hBelow frame target content
      exact if_pos hBelow
    · intro fuel hFuel
      exact fillWithin_eq_fill hFuel frame target content

end Descriptor

end Marginalia
