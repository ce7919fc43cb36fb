import Marginalia.Proofs.Run
import Mathlib.Data.List.DropRight
import Mathlib.Data.List.TakeWhile

/-
  Moves of a cursor: where the single reading actions leave
  it, and that no action leads back or out of the text.

  Main declarations:
    * the runs of the single actions
    * `Cursor.Reaches`, a preorder on places
    * `Advances` and its rules for sequences and loops
-/

namespace Marginalia

------------------------------------------------------------
-- Single Actions
------------------------------------------------------------

variable {σ : Type}

/- The given character is consumed exactly if it comes next. -/
theorem Cursor.eat_eq
    (c : Char)
    (cursor : Cursor) :
    Reader.eat c cursor =
      if cursor.peek = some c then
        (true, cursor.advance)
      else
        (false, cursor) := by
  show
    ((cursor.eat? c).isSome, (cursor.eat? c).getD cursor) = _
  unfold Cursor.eat?
  split
  · rfl
  · rfl

namespace Scan

@[simp]
theorem run_position
    (cursor : Cursor) :
    Scan.position cursor = .ok cursor.position cursor :=
  rfl

@[simp]
theorem run_peek
    (cursor : Cursor) :
    Scan.peek cursor = .ok cursor.peek cursor :=
  rfl

@[simp]
theorem run_next
    (cursor : Cursor) :
    Scan.next cursor = .ok cursor.peek cursor.advance :=
  rfl

@[simp]
theorem run_skipBlanks
    (cursor : Cursor) :
    Scan.skipBlanks cursor = .ok () cursor.skipBlanks :=
  rfl

theorem run_eat
    (c : Char)
    (cursor : Cursor) :
    Scan.eat c cursor =
      if cursor.peek = some c then
        .ok true cursor.advance
      else
        .ok false cursor := by
  have hRun :
      Scan.eat c cursor =
        .ok (Reader.eat c cursor).1 (Reader.eat c cursor).2 :=
    rfl
  rw [hRun, Cursor.eat_eq]
  split
  · rfl
  · rfl

/- A message can always be composed. -/
theorem exists_run_offending
    [Reader σ]
    (place : σ) :
    ∃ found place',
      Scan.offending place = .ok found place' := by
  have hTake : ∀ p,
      Scan.takeWhile p place =
        .ok (Reader.takeWhile p place).1
          (Reader.takeWhile p place).2 :=
    fun _ => rfl
  have hPeek : ∀ place : σ,
      Scan.peek place = .ok (Reader.peek place) place :=
    fun _ => rfl
  unfold Scan.offending
  rw [run_bind, hTake]
  dsimp only
  split
  · rw [run_bind, hPeek]
    dsimp only
    cases Reader.peek (Reader.takeWhile _ place).2 with
    | none => exact ⟨_, _, rfl⟩
    | some c => exact ⟨_, _, rfl⟩
  · exact ⟨_, _, rfl⟩

/-
  The failure at a text that does not fit, which is the same
  whatever result is missed.
-/
theorem exists_run_unexpected
    [Reader σ]
    (expected : Expected)
    (start : Nat)
    (place : σ) :
    ∃ found place', ∀ α : Type,
      (Scan.unexpected expected start : Reading σ α) place =
        .error (.syntaxError expected found start)
          place' := by
  rcases exists_run_offending place with
    ⟨found, place', hRun⟩
  refine ⟨found, place', ?_⟩
  intro α
  unfold Scan.unexpected
  rw [run_bind_of_ok hRun]
  rfl

end Scan

------------------------------------------------------------
-- Texts Ahead
------------------------------------------------------------

namespace Cursor

@[simp]
theorem ofChars_ahead
    (text : List Char) :
    (ofChars text).ahead = text :=
  rfl

@[simp]
theorem advance_ahead
    (cursor : Cursor) :
    cursor.advance.ahead = cursor.ahead.tail := by
  rcases cursor with ⟨behind, ahead, position, hPosition⟩
  cases ahead <;> rfl

theorem advance_behind
    {cursor : Cursor}
    {c : Char}
    (hPeek : cursor.peek = some c) :
    cursor.advance.behind = c :: cursor.behind := by
  rcases cursor with ⟨behind, ahead, position, hPosition⟩
  cases ahead with
  | nil => cases hPeek
  | cons d ahead =>
      cases hPeek
      rfl

@[simp]
theorem span_ahead
    (cursor : Cursor)
    (p : Char → Bool) :
    (cursor.span p).2.ahead = cursor.ahead.dropWhile p :=
  rfl

@[simp]
theorem skipBlanks_ahead
    (cursor : Cursor) :
    cursor.skipBlanks.ahead =
      Text.trimStart cursor.ahead :=
  rfl

/- After blanks there are no more of them. -/
theorem skipBlanks_skipBlanks
    (cursor : Cursor) :
    cursor.skipBlanks.skipBlanks = cursor.skipBlanks := by
  have hTake :
      (cursor.ahead.dropWhile Text.isBlank).takeWhile
          Text.isBlank =
        [] := by
    cases hDrop : cursor.ahead.dropWhile Text.isBlank with
    | nil => rfl
    | cons c rest =>
        have hHead :=
          List.head?_dropWhile_not Text.isBlank cursor.ahead
        rw [hDrop] at hHead
        rw [List.takeWhile_cons_of_neg]
        simpa using hHead
  refine ext ?_ ?_
  · show
      (cursor.skipBlanks.ahead.takeWhile
          Text.isBlank).reverse ++
        cursor.skipBlanks.behind =
      cursor.skipBlanks.behind
    rw [skipBlanks_ahead]
    unfold Text.trimStart
    rw [hTake]
    rfl
  · exact List.dropWhile_idempotent Text.isBlank cursor.ahead

theorem peek_eq_some_iff
    {cursor : Cursor}
    {c : Char} :
    cursor.peek = some c ↔
      ∃ rest, cursor.ahead = c :: rest := by
  unfold peek
  cases cursor.ahead with
  | nil => simp
  | cons head rest => simp

theorem peek_eq_none_iff
    {cursor : Cursor} :
    cursor.peek = none ↔ cursor.ahead = [] := by
  unfold peek
  cases cursor.ahead with
  | nil => simp
  | cons head rest => simp

theorem advance_length
    {cursor : Cursor}
    {c : Char}
    (hPeek : cursor.peek = some c) :
    cursor.advance.ahead.length < cursor.ahead.length := by
  rcases peek_eq_some_iff.mp hPeek with ⟨rest, hAhead⟩
  simp [hAhead]

------------------------------------------------------------
-- Later Places
------------------------------------------------------------

/-
  The second place is in the same text as the first and not
  before it: what lies between them has been passed.
-/
def Reaches
    (first second : Cursor) : Prop :=
  ∃ passed,
    first.ahead = passed ++ second.ahead ∧
      second.behind = passed.reverse ++ first.behind

namespace Reaches

theorem refl
    (cursor : Cursor) :
    cursor.Reaches cursor :=
  ⟨[], by simp, by simp⟩

theorem trans
    {first second third : Cursor}
    (hFirst : first.Reaches second)
    (hSecond : second.Reaches third) :
    first.Reaches third := by
  rcases hFirst with ⟨passed, hAhead, hBehind⟩
  rcases hSecond with ⟨passed', hAhead', hBehind'⟩
  refine ⟨passed ++ passed', ?_, ?_⟩
  · rw [hAhead, hAhead', List.append_assoc]
  · rw [hBehind', hBehind, List.reverse_append,
      List.append_assoc]

theorem length_le
    {first second : Cursor}
    (hReaches : first.Reaches second) :
    second.ahead.length ≤ first.ahead.length := by
  rcases hReaches with ⟨passed, hAhead, _⟩
  rw [hAhead, List.length_append]
  omega

/- What is not later is the same place. -/
theorem lt_or_eq
    {first second : Cursor}
    (hReaches : first.Reaches second) :
    second.ahead.length < first.ahead.length ∨
      second = first := by
  rcases hReaches with ⟨passed, hAhead, hBehind⟩
  cases passed with
  | nil => exact Or.inr (ext hBehind hAhead.symm)
  | cons c passed =>
      refine Or.inl ?_
      rw [hAhead, List.length_append, List.length_cons]
      omega

theorem advance
    (cursor : Cursor) :
    cursor.Reaches cursor.advance := by
  rcases cursor with ⟨behind, ahead, position, hPosition⟩
  cases ahead with
  | nil => exact refl _
  | cons c rest => exact ⟨[c], rfl, rfl⟩

theorem span
    (cursor : Cursor)
    (p : Char → Bool) :
    cursor.Reaches (cursor.span p).2 :=
  ⟨cursor.ahead.takeWhile p,
    (List.takeWhile_append_dropWhile).symm, rfl⟩

theorem skipBlanks
    (cursor : Cursor) :
    cursor.Reaches cursor.skipBlanks :=
  span cursor _

end Reaches

end Cursor

------------------------------------------------------------
-- Actions that Advance
------------------------------------------------------------

namespace ReadError

/- The reason lies in the text that is read. -/
def Lexical : ReadError → Prop
  | syntaxError .. | overflow .. | unterminated .. => True
  | unsupported _ | mismatch .. | exhausted => False

/- The reason is another one than a lack of rounds. -/
def Answers
    (error : ReadError) : Prop :=
  error ≠ exhausted

theorem Lexical.answers
    {error : ReadError}
    (hLexical : error.Lexical) :
    error.Answers := by
  rintro rfl
  exact hLexical

end ReadError

open ReadError (Lexical Answers)

variable {α β : Type}
variable {errors : ReadError → Prop}

/-
  Started at the given state, the action stays in its text
  and does not move back, whether it succeeds or fails. It
  passes a character if its result is one of those that the
  predicate names, and fails with one of the given errors.
-/
def AdvancesFrom
    (place : σ → Cursor)
    (errors : ReadError → Prop)
    (passes : α → Prop)
    (action : EStateM ReadError σ α)
    (state : σ) : Prop :=
  Ends
    (fun result state' =>
      (place state).Reaches (place state') ∧
        (passes result →
          (place state').ahead.length <
            (place state).ahead.length))
    (fun error state' =>
      errors error ∧ (place state).Reaches (place state'))
    (action state)

/-
  The action advances from every state that has fewer
  characters ahead than the bound.
-/
def Advances
    (place : σ → Cursor)
    (errors : ReadError → Prop)
    (bound : Nat)
    (passes : α → Prop)
    (action : EStateM ReadError σ α) : Prop :=
  ∀ state,
    (place state).ahead.length < bound →
      AdvancesFrom place errors passes action state

namespace AdvancesFrom

variable {place : σ → Cursor}
variable {state : σ}

theorem pure
    {result : α}
    {passes : α → Prop}
    (hResult : ¬ passes result) :
    AdvancesFrom place errors passes
      (Pure.pure result : EStateM ReadError σ α) state :=
  ⟨Cursor.Reaches.refl _, fun h => (hResult h).elim⟩

theorem throw
    {error : ReadError}
    {passes : α → Prop}
    (hError : errors error) :
    AdvancesFrom place errors passes
      (MonadExcept.throw error : EStateM ReadError σ α)
      state :=
  ⟨hError, Cursor.Reaches.refl _⟩

/- Less may be asked of an action. -/
theorem imp
    {passes passes' : α → Prop}
    {action : EStateM ReadError σ α}
    (hAction : AdvancesFrom place errors passes action state)
    (hPasses : ∀ result, passes' result → passes result) :
    AdvancesFrom place errors passes' action state := by
  refine Ends.imp hAction ?_ fun _ _ h => h
  intro result state' hEnd
  exact ⟨hEnd.1, fun h => hEnd.2 (hPasses result h)⟩

/- An error that lies in the text is an answer. -/
theorem answers
    {passes : α → Prop}
    {action : EStateM ReadError σ α}
    (hAction :
      AdvancesFrom place Lexical passes action state) :
    AdvancesFrom place Answers passes action state := by
  apply Ends.imp hAction (fun _ _ h => h)
  intro error state' hEnd
  exact ⟨hEnd.1.answers, hEnd.2⟩

theorem ite
    {p : Prop}
    [Decidable p]
    {passes : α → Prop}
    {action action' : EStateM ReadError σ α}
    (hTrue : p → AdvancesFrom place errors passes action state)
    (hFalse :
      ¬ p → AdvancesFrom place errors passes action' state) :
    AdvancesFrom place errors passes
      (if p then action else action') state := by
  by_cases hp : p
  · rw [if_pos hp]
    exact hTrue hp
  · rw [if_neg hp]
    exact hFalse hp

/-
  A sequence advances if its parts do. The second part has to
  pass a character only where the first one did not.
-/
theorem bind
    {first : EStateM ReadError σ α}
    {next : α → EStateM ReadError σ β}
    {passed : α → Prop}
    {passes : β → Prop}
    (hFirst : AdvancesFrom place errors passed first state)
    (hNext : ∀ result state',
      (place state').ahead.length ≤
          (place state).ahead.length →
        (passed result →
          (place state').ahead.length <
            (place state).ahead.length) →
        AdvancesFrom place errors
          (fun final => passes final ∧ ¬ passed result)
          (next result) state') :
    AdvancesFrom place errors passes (first >>= next) state := by
  apply Ends.bind hFirst
  intro result state' hMiddle
  have hLength := hMiddle.1.length_le
  refine Ends.imp
    (hNext result state' hLength hMiddle.2) ?_ ?_
  · intro final state'' hFinal
    refine ⟨hMiddle.1.trans hFinal.1, ?_⟩
    intro hPasses
    have hLength' := hFinal.1.length_le
    by_cases hPassed : passed result
    · have hLess := hMiddle.2 hPassed
      omega
    · have hLess := hFinal.2 ⟨hPasses, hPassed⟩
      omega
  · intro error state'' hError
    exact ⟨hError.1, hMiddle.1.trans hError.2⟩

/-
  An action that first passes a character and goes on like
  another one passes a character.
-/
theorem of_move
    {action action' : EStateM ReadError σ α}
    {state' : σ}
    (hRun : action state = action' state')
    (hReaches : (place state).Reaches (place state'))
    (hLess :
      (place state').ahead.length <
        (place state).ahead.length)
    (hAction :
      AdvancesFrom place errors (fun _ => False) action' state') :
    AdvancesFrom place errors (fun _ => True) action state := by
  unfold AdvancesFrom
  rw [hRun]
  refine Ends.imp hAction ?_ ?_
  · intro result state'' hEnd
    have hLength := hEnd.1.length_le
    exact ⟨hReaches.trans hEnd.1, fun _ => by omega⟩
  · intro error state'' hEnd
    exact ⟨hEnd.1, hReaches.trans hEnd.2⟩

/- Before a character, the next move passes it. -/
theorem skip
    {cursor : Cursor}
    {c : Char}
    (hPeek : cursor.peek = some c) :
    AdvancesFrom id errors (fun _ => True) Scan.skip cursor :=
  ⟨Cursor.Reaches.advance _, fun _ =>
    Cursor.advance_length hPeek⟩

/-
  What begins with a delimiter passes it, so that what
  follows has fewer characters to read.
-/
theorem delimited
    {rest : Nat → Scan α}
    {cursor : Cursor}
    {c : Char}
    (hPeek : cursor.peek = some c)
    (hRest : ∀ (start : Nat) (place : Cursor),
      place.ahead.length < cursor.ahead.length →
        AdvancesFrom id errors (fun _ => False)
          (rest start) place) :
    AdvancesFrom id errors (fun _ => True)
      (do
        let start ← Scan.position
        Scan.skip
        rest start)
      cursor := by
  have hLess := Cursor.advance_length hPeek
  have hRun :
      (do
        let start ← Scan.position
        Scan.skip
        rest start : Scan α) cursor =
        rest cursor.position cursor.advance :=
    rfl
  exact of_move hRun (Cursor.Reaches.advance cursor) hLess
    (hRest cursor.position cursor.advance hLess)

/- The state tells what goes on. -/
theorem get
    {next : σ → EStateM ReadError σ α}
    {passes : α → Prop}
    (hNext : AdvancesFrom place errors passes (next state) state) :
    AdvancesFrom place errors passes (MonadState.get >>= next)
      state :=
  hNext

/- A look at the next character tells what goes on. -/
theorem peek
    {next : Option Char → Scan α}
    {passes : α → Prop}
    {cursor : Cursor}
    (hNext :
      AdvancesFrom id errors passes (next cursor.peek) cursor) :
    AdvancesFrom id errors passes (Scan.peek >>= next) cursor :=
  hNext

end AdvancesFrom

namespace Advances

variable {place : σ → Cursor}
variable {bound : Nat}

theorem pure
    {result : α}
    {passes : α → Prop}
    (hResult : ¬ passes result) :
    Advances place errors bound passes
      (Pure.pure result : EStateM ReadError σ α) :=
  fun _ _ => .pure hResult

theorem throw
    {error : ReadError}
    {passes : α → Prop}
    (hError : errors error) :
    Advances place errors bound passes
      (MonadExcept.throw error :
        EStateM ReadError σ α) :=
  fun _ _ => .throw hError

theorem imp
    {passes passes' : α → Prop}
    {action : EStateM ReadError σ α}
    (hAction : Advances place errors bound passes action)
    (hPasses : ∀ result, passes' result → passes result) :
    Advances place errors bound passes' action :=
  fun state hState => (hAction state hState).imp hPasses

/- An error that lies in the text is an answer. -/
theorem answers
    {passes : α → Prop}
    {action : EStateM ReadError σ α}
    (hAction : Advances place Lexical bound passes action) :
    Advances place Answers bound passes action := by
  intro state hState
  exact (hAction state hState).answers

/- A choice advances if both alternatives do. -/
theorem ite
    {p : Prop}
    [Decidable p]
    {passes : α → Prop}
    {action action' : EStateM ReadError σ α}
    (hTrue : Advances place errors bound passes action)
    (hFalse : Advances place errors bound passes action') :
    Advances place errors bound passes
      (if p then action else action') := by
  intro state hState
  exact .ite (fun _ => hTrue state hState)
    (fun _ => hFalse state hState)

theorem mono
    {bound' : Nat}
    {passes : α → Prop}
    {action : EStateM ReadError σ α}
    (hAction : Advances place errors bound passes action)
    (hBound : bound' ≤ bound) :
    Advances place errors bound' passes action := by
  intro state hState
  exact hAction state (by omega)

/- The rule for sequences, for all states below the bound. -/
theorem bind
    {first : EStateM ReadError σ α}
    {next : α → EStateM ReadError σ β}
    {passed : α → Prop}
    {passes : β → Prop}
    (hFirst : Advances place errors bound passed first)
    (hNext : ∀ result,
      Advances place errors bound
        (fun final => passes final ∧ ¬ passed result)
        (next result)) :
    Advances place errors bound passes (first >>= next) := by
  intro state hState
  apply (hFirst state hState).bind
  intro result state' hLength _
  exact hNext result state' (by omega)

/- A sequence of which only the second part matters. -/
theorem bind'
    {first : EStateM ReadError σ α}
    {next : α → EStateM ReadError σ β}
    {passed : α → Prop}
    {passes : β → Prop}
    (hFirst : Advances place errors bound passed first)
    (hNext : ∀ result,
      Advances place errors bound passes (next result)) :
    Advances place errors bound passes (first >>= next) :=
  hFirst.bind fun result =>
    (hNext result).imp fun _ hFinal => hFinal.1

/-
  A loop advances, and its rounds suffice, if every round but
  the last passes a character.
-/
theorem iterate
    {body : β → EStateM ReadError σ (Step β α)}
    (hBody : ∀ round,
      Advances place errors bound
        (fun step => ∃ next, step = .again next)
        (body round))
    {rounds : Nat}
    (round : β)
    {state : σ}
    (hState : (place state).ahead.length < bound)
    (hRounds : (place state).ahead.length < rounds) :
    AdvancesFrom place errors (fun _ => False)
      (Marginalia.iterate .exhausted body rounds round)
      state := by
  apply ends_iterate
    (fun _ state' => (place state).Reaches (place state'))
    (fun state' => (place state').ahead.length)
  · intro round state' hReaches
    have hLength := hReaches.length_le
    refine Ends.imp (hBody round state' (by omega)) ?_ ?_
    · intro step state'' hStep
      cases step with
      | again next =>
          exact ⟨hReaches.trans hStep.1,
            hStep.2 ⟨next, rfl⟩⟩
      | done result =>
          exact ⟨hReaches.trans hStep.1, False.elim⟩
    · intro error state'' hError
      exact ⟨hError.1, hReaches.trans hError.2⟩
  · exact Cursor.Reaches.refl _
  · exact hRounds

------------------------------------------------------------
-- Single Actions Advance
------------------------------------------------------------

theorem get :
    Advances place errors bound (fun _ => False)
      (MonadState.get : EStateM ReadError σ σ) := by
  intro state _
  exact ⟨Cursor.Reaches.refl _, False.elim⟩

theorem position :
    Advances id errors bound (fun _ => False) Scan.position := by
  intro cursor _
  exact ⟨Cursor.Reaches.refl _, False.elim⟩

theorem peek :
    Advances id errors bound (fun _ => False) Scan.peek := by
  intro cursor _
  exact ⟨Cursor.Reaches.refl _, False.elim⟩

theorem next :
    Advances id errors bound (fun c => c.isSome) Scan.next := by
  intro cursor _
  refine ⟨Cursor.Reaches.advance _, ?_⟩
  intro hSome
  rcases Option.isSome_iff_exists.mp hSome with ⟨c, hPeek⟩
  exact Cursor.advance_length hPeek

theorem skip :
    Advances id errors bound (fun _ => False) Scan.skip := by
  intro cursor _
  exact ⟨Cursor.Reaches.advance _, False.elim⟩

theorem skipBlanks :
    Advances id errors bound (fun _ => False) Scan.skipBlanks := by
  intro cursor _
  exact ⟨Cursor.Reaches.skipBlanks _, False.elim⟩

theorem takeWhile
    (p : Char → Bool) :
    Advances id errors bound (fun _ => False)
      (Scan.takeWhile p) := by
  intro cursor _
  exact ⟨Cursor.Reaches.span _ _, False.elim⟩

theorem eat
    (c : Char) :
    Advances id errors bound (fun eaten => eaten = true)
      (Scan.eat c) := by
  intro cursor _
  unfold AdvancesFrom
  rw [Scan.run_eat]
  split
  · rename_i hPeek
    exact ⟨Cursor.Reaches.advance _, fun _ =>
      Cursor.advance_length hPeek⟩
  · exact ⟨Cursor.Reaches.refl _, by simp⟩

theorem wrong
    {passes : α → Prop}
    (expected : Expected)
    (found : String)
    (start : Nat) :
    Advances id Lexical bound passes
      (Scan.wrong expected found start) :=
  throw trivial

theorem offending :
    Advances id errors bound (fun _ => False) Scan.offending := by
  apply (takeWhile _).bind'
  intro token
  split
  · apply peek.bind'
    intro next
    split <;> exact pure not_false
  · exact pure not_false

theorem unexpected
    {passes : α → Prop}
    (expected : Expected)
    (start : Nat) :
    Advances id Lexical bound passes
      (Scan.unexpected expected start) :=
  offending.bind' fun _ => wrong _ _ _

theorem loop
    {body : β → Scan (Step β α)}
    (hBody : ∀ round,
      Advances id errors bound
        (fun step => ∃ next, step = .again next)
        (body round))
    (round : β) :
    Advances id errors bound (fun _ => False)
      (Scan.loop body round) := by
  intro cursor hCursor
  exact iterate hBody round hCursor (Nat.lt_succ_self _)

end Advances

------------------------------------------------------------
-- Actions with a Destination
------------------------------------------------------------

/- A rejection is an answer, not a lack of rounds. -/
theorem Rejection.error_answers
    (rejection : Rejection)
    (literal : String)
    (start : Nat) :
    (rejection.error literal start).Answers := by
  cases rejection <;>
    simp [Rejection.error, ReadError.Answers]

namespace Fill

variable {δ : Type}

/- Repeat an action while it says so, for so many rounds. -/
def rounds
    (body : Fill δ Bool)
    (count : Nat) : Fill δ Unit :=
  iterate (β := Unit) .exhausted
    (fun _ => do
      if ← body then
        return .again ()
      else
        return .done ())
    count ()

theorem rounds_succ
    (body : Fill δ Bool)
    (count : Nat) :
    rounds body (count + 1) = (do
      if ← body then
        rounds body count
      else
        return) := by
  funext state
  unfold rounds
  rw [iterate, run_bind, run_bind, run_bind]
  cases body state with
  | ok another state' => cases another <;> rfl
  | error error state' => rfl

theorem run_loopWhile
    (body : Fill δ Bool)
    (cursor : Cursor)
    (content : δ) :
    loopWhile body (cursor, content) =
      rounds body (cursor.ahead.length + 1)
        (cursor, content) :=
  rfl

/- Reading actions leave the destination as it is. -/
theorem run_lift
    (action : Reading σ α)
    (place : σ)
    (content : δ) :
    (liftM action : Filling σ δ α) (place, content) =
      match action place with
      | .ok result place => .ok result (place, content)
      | .error error place =>
          .error error (place, content) :=
  rfl

/- Nothing follows a failure. -/
theorem unexpected_bind
    [Reader σ]
    (expected : Expected)
    (start : Nat)
    (next : α → Filling σ δ β) :
    ((liftM (Scan.unexpected expected start : Reading σ α) :
        Filling σ δ α) >>= next) =
      liftM
        (Scan.unexpected expected start : Reading σ β) := by
  funext ⟨place, content⟩
  rcases Scan.exists_run_unexpected expected start place
    with ⟨found, place', hRun⟩
  rw [run_bind, run_lift, run_lift, hRun α, hRun β]

theorem ends_lift
    {action : Scan α}
    {cursor : Cursor}
    {content : δ}
    {post : α → Cursor × δ → Prop}
    {fail : ReadError → Cursor × δ → Prop} :
    Ends post fail
        ((liftM action : Fill δ α) (cursor, content)) ↔
      Ends
        (fun result cursor => post result (cursor, content))
        (fun error cursor => fail error (cursor, content))
        (action cursor) := by
  rw [run_lift]
  cases action cursor <;> rfl

/- Writing leaves the reader where it is. -/
theorem run_store
    (action : Write δ α)
    (literal : String)
    (start : Nat)
    (place : σ)
    (content : δ) :
    Fill.store action literal start (place, content) =
      match action content with
      | .ok result content => .ok result (place, content)
      | .error rejection content =>
          .error (rejection.error literal start)
            (place, content) := by
  unfold store
  dsimp only
  cases action content <;> rfl

theorem ends_store
    {action : Write δ α}
    {literal : String}
    {start : Nat}
    {cursor : Cursor}
    {content : δ}
    {post : α → Cursor × δ → Prop}
    {fail : ReadError → Cursor × δ → Prop} :
    Ends post fail
        (Fill.store action literal start
          (cursor, content)) ↔
      Ends
        (fun result content =>
          post result (cursor, content))
        (fun rejection content =>
          fail (rejection.error literal start)
            (cursor, content))
        (action content) := by
  rw [run_store]
  cases action content <;> rfl

/- Inside a place the destination is a new one. -/
theorem ends_within
    {target : Target}
    {child : Child target}
    {action : Fill child.inner.Content α}
    {cursor : Cursor}
    {content : target.Content}
    {post : α → Cursor × target.Content → Prop}
    {fail : ReadError → Cursor × target.Content → Prop} :
    Ends post fail
        (Fill.within child action (cursor, content)) ↔
      Ends
        (fun result state =>
          post result (state.1, child.put state.2))
        (fun error state =>
          fail error (state.1, child.put state.2))
        (action (cursor, child.inner.fresh)) := by
  unfold Fill.within
  cases hEnd : action (cursor, child.inner.fresh) <;>
    simp [hEnd]

theorem run_within_of_ok
    {target : Target}
    {child : Child target}
    {action : Fill child.inner.Content α}
    {result : α}
    {cursor cursor' : Cursor}
    {inner : child.inner.Content}
    (hRun :
      action (cursor, child.inner.fresh) =
        .ok result (cursor', inner))
    (content : target.Content) :
    Fill.within child action (cursor, content) =
      .ok result (cursor', child.put inner) := by
  unfold Fill.within
  simp only [hRun]

theorem run_collect_of_ok
    {content content' : δ}
    {action : Fill δ Unit}
    {cursor cursor' : Cursor}
    (hRun :
      action (cursor, content) =
        .ok () (cursor', content')) :
    Fill.collect content action cursor =
      .ok content' cursor' := by
  unfold Fill.collect
  rw [hRun]

/- A destination of its own is given back as the result. -/
theorem ends_collect
    {content : δ}
    {action : Fill δ Unit}
    {cursor : Cursor}
    {post : δ → Cursor → Prop}
    {fail : ReadError → Cursor → Prop} :
    Ends post fail
        (Fill.collect content action cursor) ↔
      Ends
        (fun _ state => post state.2 state.1)
        (fun error state => fail error state.1)
        (action (cursor, content)) := by
  unfold Fill.collect
  cases action (cursor, content) <;> simp

end Fill

theorem AdvancesFrom.lift
    {δ : Type}
    {passes : α → Prop}
    {action : Scan α}
    {cursor : Cursor}
    (hAction : AdvancesFrom id errors passes action cursor)
    (content : δ) :
    AdvancesFrom Prod.fst errors passes (liftM action : Fill δ α)
      (cursor, content) :=
  Fill.ends_lift.mpr hAction

namespace Advances

variable {δ : Type}
variable {bound : Nat}

/- What holds of reading holds of it with a destination. -/
theorem lift
    {passes : α → Prop}
    {action : Scan α}
    (hAction : Advances id errors bound passes action) :
    Advances Prod.fst errors bound passes
      (liftM action : Fill δ α) := by
  rintro ⟨cursor, content⟩ hCursor
  exact (hAction cursor hCursor).lift content

/- Writing does not move the cursor. -/
theorem store
    (action : Write δ α)
    (literal : String)
    (start : Nat) :
    Advances Prod.fst Answers bound (fun _ => False)
      (Fill.store action literal start) := by
  rintro ⟨cursor, content⟩ _
  apply Fill.ends_store.mpr
  cases action content with
  | ok result content' =>
      exact ⟨Cursor.Reaches.refl _, False.elim⟩
  | error rejection content' =>
      exact ⟨rejection.error_answers _ _,
        Cursor.Reaches.refl _⟩

theorem within
    {target : Target}
    (child : Child target)
    {passes : α → Prop}
    {action : Fill child.inner.Content α}
    (hAction : Advances Prod.fst errors bound passes action) :
    Advances Prod.fst errors bound passes
      (Fill.within child action) := by
  rintro ⟨cursor, content⟩ hCursor
  exact Fill.ends_within.mpr
    (hAction (cursor, child.inner.fresh) hCursor)

theorem loopWhile
    {body : Fill δ Bool}
    (hBody :
      Advances Prod.fst errors bound
        (fun another => another = true) body) :
    Advances Prod.fst errors bound (fun _ => False)
      (Fill.loopWhile body) := by
  rintro ⟨cursor, content⟩ hCursor
  refine iterate ?_ () hCursor (Nat.lt_succ_self _)
  intro _
  apply hBody.bind
  intro another
  cases another with
  | true =>
      exact pure (by simp)
  | false =>
      exact pure (by simp)

end Advances

namespace AdvancesFrom

variable {δ : Type}
variable {bound : Nat}
variable {cursor : Cursor}
variable {content : δ}

theorem peekLift
    {next : Option Char → Fill δ α}
    {passes : α → Prop}
    (hNext :
      AdvancesFrom Prod.fst errors passes (next cursor.peek)
        (cursor, content)) :
    AdvancesFrom Prod.fst errors passes
      (liftM (Scan.peek : Scan (Option Char)) >>= next)
      (cursor, content) :=
  hNext

theorem positionLift
    {next : Nat → Fill δ α}
    {passes : α → Prop}
    (hNext :
      AdvancesFrom Prod.fst errors passes (next cursor.position)
        (cursor, content)) :
    AdvancesFrom Prod.fst errors passes
      (liftM (Scan.position : Scan Nat) >>= next)
      (cursor, content) :=
  hNext

/- After writing, the cursor is where it was. -/
theorem storeBind
    {action : Write δ α}
    {literal : String}
    {start : Nat}
    {next : α → Fill δ β}
    {passes : β → Prop}
    (hNext : ∀ result content',
      AdvancesFrom Prod.fst Answers passes (next result)
        (cursor, content')) :
    AdvancesFrom Prod.fst Answers passes
      (Fill.store action literal start >>= next)
      (cursor, content) := by
  unfold AdvancesFrom
  rw [run_bind, Fill.run_store]
  cases action content with
  | ok result content' =>
      exact hNext result content'
  | error rejection content' =>
      exact ⟨rejection.error_answers _ _,
        Cursor.Reaches.refl _⟩

theorem delimitedLift
    {rest : Nat → Fill δ α}
    {c : Char}
    (hPeek : cursor.peek = some c)
    (hRest : ∀ (start : Nat) (state : Cursor × δ),
      state.1.ahead.length < cursor.ahead.length →
        AdvancesFrom Prod.fst errors (fun _ => False)
          (rest start) state) :
    AdvancesFrom Prod.fst errors (fun _ => True)
      (do
        let start ← liftM (Scan.position : Scan Nat)
        liftM (Scan.skip : Scan Unit)
        rest start)
      (cursor, content) := by
  have hLess := Cursor.advance_length hPeek
  have hRun :
      (do
        let start ← liftM (Scan.position : Scan Nat)
        liftM (Scan.skip : Scan Unit)
        rest start : Fill δ α) (cursor, content) =
        rest cursor.position (cursor.advance, content) :=
    rfl
  exact of_move hRun (Cursor.Reaches.advance cursor) hLess
    (hRest cursor.position (cursor.advance, content) hLess)

end AdvancesFrom

/- A destination of its own is no obstacle. -/
theorem AdvancesFrom.collect
    {δ : Type}
    (content : δ)
    {action : Fill δ Unit}
    {cursor : Cursor}
    (hAction :
      AdvancesFrom Prod.fst errors (fun _ => False) action
        (cursor, content)) :
    AdvancesFrom id errors (fun _ => False)
      (Fill.collect content action) cursor :=
  Fill.ends_collect.mpr hAction

end Marginalia
