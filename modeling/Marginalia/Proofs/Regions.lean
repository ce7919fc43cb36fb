import Marginalia.Proofs.Moves

/-
  Parts of a text in which two actions do the same. Because no
  action leads back, an action that begins in such a part only
  depends on what others do there.

  Key definitions include:
    * `Region`
    * `Region.since`
    * `Region.past`
    * `SameFrom`
    * `SameIn`

  Main statements:
    * the rules for sequences and loops
    * the rules for actions with a destination
-/

namespace Marginalia

open ReadError (Answers)

------------------------------------------------------------
-- Regions
------------------------------------------------------------

/- Places of which every later one is also among them. -/
structure Region where
  contains : Cursor → Prop
  onward : ∀ {first second : Cursor},
    contains first → first.Reaches second → contains second

namespace Region

/- The place itself and all later ones. -/
def since
    (cursor : Cursor) : Region where
  contains := cursor.Reaches
  onward := Cursor.Reaches.trans

/- The later places only. -/
def past
    (cursor : Cursor) : Region where
  contains place :=
    cursor.Reaches place ∧
      place.ahead.length < cursor.ahead.length
  onward := by
    intro first second hFirst hReaches
    exact ⟨hFirst.1.trans hReaches,
      hReaches.length_le.trans_lt hFirst.2⟩

/- What is past a later place is past the first one. -/
theorem past_of_reaches
    {first second place : Cursor}
    (hReaches : first.Reaches second)
    (hPlace : (past second).contains place) :
    (past first).contains place :=
  ⟨hReaches.trans hPlace.1,
    hPlace.2.trans_le hReaches.length_le⟩

/- Before a character, the next move is past it. -/
theorem past_advance
    {cursor : Cursor}
    {c : Char}
    (hPeek : cursor.peek = some c) :
    (past cursor).contains cursor.advance :=
  ⟨Cursor.Reaches.advance cursor,
    Cursor.advance_length hPeek⟩

end Region

------------------------------------------------------------
-- Actions that Do the Same
------------------------------------------------------------

variable {σ α β : Type}

/-
  Started at the given state, the actions end alike, and what
  they lead to is not before it.
-/
def SameFrom
    (place : σ → Cursor)
    (action action' : EStateM ReadError σ α)
    (state : σ) : Prop :=
  action' state = action state ∧
    Ends
      (fun _ state' => (place state).Reaches (place state'))
      (fun _ _ => True)
      (action state)

/- The actions do the same wherever they start in the region. -/
def SameIn
    (place : σ → Cursor)
    (region : Region)
    (action action' : EStateM ReadError σ α) : Prop :=
  ∀ state,
    region.contains (place state) →
      SameFrom place action action' state

variable {place : σ → Cursor}
variable {region : Region}

namespace SameFrom

variable {state : σ}

/- Every action that advances does the same as itself. -/
theorem of_advancesFrom
    {passes : α → Prop}
    {action : EStateM ReadError σ α}
    (hAction : AdvancesFrom place Answers passes action state) :
    SameFrom place action action state :=
  ⟨rfl, Ends.imp hAction (fun _ _ hEnd => hEnd.1)
    (fun _ _ _ => trivial)⟩

theorem bind
    {first first' : EStateM ReadError σ α}
    {next next' : α → EStateM ReadError σ β}
    (hFirst : SameFrom place first first' state)
    (hNext : ∀ result state',
      (place state).Reaches (place state') →
        SameFrom place (next result) (next' result) state') :
    SameFrom place (first >>= next) (first' >>= next')
      state := by
  constructor
  · rw [run_bind, run_bind, hFirst.1]
    have hEnds := hFirst.2
    cases hRun : first state with
    | ok result state' =>
        rw [hRun] at hEnds
        exact (hNext result state' hEnds).1
    | error error state' => rfl
  · apply hFirst.2.bind
    intro result state' hReaches
    refine Ends.imp (hNext result state' hReaches).2 ?_
      (fun _ _ h => h)
    intro final state'' hReaches'
    exact hReaches.trans hReaches'

theorem ite
    {p : Prop}
    [Decidable p]
    {action₁ action₁' action₂ action₂' :
      EStateM ReadError σ α}
    (hTrue : p → SameFrom place action₁ action₁' state)
    (hFalse : ¬ p → SameFrom place action₂ action₂' state) :
    SameFrom place
      (if p then action₁ else action₂)
      (if p then action₁' else action₂') state := by
  by_cases hp : p
  · rw [if_pos hp, if_pos hp]
    exact hTrue hp
  · rw [if_neg hp, if_neg hp]
    exact hFalse hp

/- The state tells what goes on. -/
theorem get
    {next next' : σ → EStateM ReadError σ α}
    (hNext : SameFrom place (next state) (next' state) state) :
    SameFrom place (MonadState.get >>= next)
      (MonadState.get >>= next') state :=
  hNext

theorem peek
    {next next' : Option Char → Scan α}
    {cursor : Cursor}
    (hNext :
      SameFrom id (next cursor.peek) (next' cursor.peek)
        cursor) :
    SameFrom id (Scan.peek >>= next) (Scan.peek >>= next')
      cursor :=
  hNext

end SameFrom

namespace SameIn

/- Every action that advances does the same as itself. -/
theorem of_advances
    {passes : α → Prop}
    {action : EStateM ReadError σ α}
    (hAction : ∀ bound,
      Advances place Answers bound passes action) :
    SameIn place region action action := by
  intro state _
  exact .of_advancesFrom
    (hAction _ state (Nat.lt_succ_self _))

theorem pure
    (result : α) :
    SameIn place region
      (Pure.pure result : EStateM ReadError σ α)
      (Pure.pure result) :=
  fun _ _ => ⟨rfl, Cursor.Reaches.refl _⟩

theorem throw
    (error : ReadError) :
    SameIn place region
      (MonadExcept.throw error : EStateM ReadError σ α)
      (MonadExcept.throw error) :=
  fun _ _ => ⟨rfl, trivial⟩

theorem unexpected
    (expected : Expected)
    (start : Nat) :
    SameIn id region
      (Scan.unexpected expected start : Scan α)
      (Scan.unexpected expected start) := by
  have hAction : ∀ bound,
      Advances id Answers bound (fun _ => False)
        (Scan.unexpected expected start : Scan α) :=
    fun _ => (Advances.unexpected expected start).answers
  exact .of_advances hAction

theorem bind
    {first first' : EStateM ReadError σ α}
    {next next' : α → EStateM ReadError σ β}
    (hFirst : SameIn place region first first')
    (hNext : ∀ result,
      SameIn place region (next result) (next' result)) :
    SameIn place region (first >>= next)
      (first' >>= next') := by
  intro state hState
  apply (hFirst state hState).bind
  intro result state' hReaches
  exact hNext result state' (region.onward hState hReaches)

theorem ite
    {p : Prop}
    [Decidable p]
    {action₁ action₁' action₂ action₂' :
      EStateM ReadError σ α}
    (hTrue : SameIn place region action₁ action₁')
    (hFalse : SameIn place region action₂ action₂') :
    SameIn place region
      (if p then action₁ else action₂)
      (if p then action₁' else action₂') := by
  intro state hState
  exact .ite (fun _ => hTrue state hState)
    (fun _ => hFalse state hState)

/- Loops do the same if their rounds do. -/
theorem iterate
    {body body' : β → EStateM ReadError σ (Step β α)}
    (hBody : ∀ round,
      SameIn place region (body round) (body' round))
    (rounds : Nat)
    (round : β) :
    SameIn place region
      (Marginalia.iterate .exhausted body rounds round)
      (Marginalia.iterate .exhausted body' rounds round) := by
  induction rounds generalizing round with
  | zero => exact throw _
  | succ rounds ih =>
      apply (hBody round).bind
      intro step
      cases step with
      | again next => exact ih next
      | done result => exact pure result

theorem loop
    {body body' : β → Scan (Step β α)}
    (hBody : ∀ round,
      SameIn id region (body round) (body' round))
    (round : β) :
    SameIn id region (Scan.loop body round)
      (Scan.loop body' round) := by
  intro cursor hCursor
  apply SameFrom.get
  exact iterate hBody _ round cursor hCursor

end SameIn

------------------------------------------------------------
-- Actions with a Destination
------------------------------------------------------------

variable {δ : Type}

namespace SameFrom

variable {cursor : Cursor}
variable {content : δ}

theorem lift
    {action action' : Scan α}
    (hAction : SameFrom id action action' cursor) :
    SameFrom Prod.fst (liftM action : Fill δ α)
      (liftM action') (cursor, content) := by
  constructor
  · rw [Fill.run_lift, Fill.run_lift, hAction.1]
  · exact Fill.ends_lift.mpr hAction.2

theorem positionLift
    {next next' : Nat → Fill δ α}
    (hNext :
      SameFrom Prod.fst (next cursor.position)
        (next' cursor.position) (cursor, content)) :
    SameFrom Prod.fst
      (liftM (Scan.position : Scan Nat) >>= next)
      (liftM (Scan.position : Scan Nat) >>= next')
      (cursor, content) :=
  hNext

theorem peekLift
    {next next' : Option Char → Fill δ α}
    (hNext :
      SameFrom Prod.fst (next cursor.peek)
        (next' cursor.peek) (cursor, content)) :
    SameFrom Prod.fst
      (liftM (Scan.peek : Scan (Option Char)) >>= next)
      (liftM (Scan.peek : Scan (Option Char)) >>= next')
      (cursor, content) :=
  hNext

/- After writing, the cursor is where it was. -/
theorem storeBind
    {action : Write δ α}
    {literal : String}
    {start : Nat}
    {next next' : α → Fill δ β}
    (hNext : ∀ result content',
      SameFrom Prod.fst (next result) (next' result)
        (cursor, content')) :
    SameFrom Prod.fst
      (Fill.store action literal start >>= next)
      (Fill.store action literal start >>= next')
      (cursor, content) := by
  unfold SameFrom
  rw [run_bind, run_bind, Fill.run_store]
  cases action content with
  | ok result content' => exact hNext result content'
  | error rejection content' => exact ⟨rfl, trivial⟩

theorem collect
    {action action' : Fill δ Unit}
    (hAction :
      SameFrom Prod.fst action action' (cursor, content)) :
    SameFrom id (Fill.collect content action)
      (Fill.collect content action') cursor := by
  constructor
  · unfold Fill.collect
    rw [hAction.1]
  · exact Fill.ends_collect.mpr hAction.2

end SameFrom

namespace SameIn

theorem lift
    {action action' : Scan α}
    (hAction : SameIn id region action action') :
    SameIn Prod.fst region (liftM action : Fill δ α)
      (liftM action') := by
  rintro ⟨cursor, content⟩ hCursor
  exact (hAction cursor hCursor).lift

theorem within
    {target : Target}
    (child : Child target)
    {action action' : Fill child.inner.Content α}
    (hAction : SameIn Prod.fst region action action') :
    SameIn Prod.fst region (Fill.within child action)
      (Fill.within child action') := by
  rintro ⟨cursor, content⟩ hCursor
  have hInner := hAction (cursor, child.inner.fresh) hCursor
  constructor
  · unfold Fill.within
    dsimp only
    rw [hInner.1]
  · exact Fill.ends_within.mpr hInner.2

theorem loopWhile
    {body body' : Fill δ Bool}
    (hBody : SameIn Prod.fst region body body') :
    SameIn Prod.fst region (Fill.loopWhile body)
      (Fill.loopWhile body') := by
  rintro ⟨cursor, content⟩ hCursor
  apply SameFrom.get
  refine iterate (fun _ => ?_) _ () (cursor, content) hCursor
  apply hBody.bind
  intro another
  exact .ite (.pure _) (.pure _)

end SameIn

end Marginalia
