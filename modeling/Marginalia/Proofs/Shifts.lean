import Marginalia.Proofs.Moves

/-
  Readers side by side. What an action does depends on the
  text ahead, not on how a reader keeps its place: a reader
  that looks and moves like the cursor gives the same results,
  except for the positions that errors report.

  Key definitions include:
    * `Translation`
    * `Translation.inFront`
    * `ReadError.shift`
    * `Shifts`

  Main statements:
    * the rules for single actions, sequences and loops
    * the rules for actions with a destination
-/

namespace Marginalia

variable {σ τ α β δ : Type}

------------------------------------------------------------
-- Texts in Front
------------------------------------------------------------

namespace Cursor

/- The same place, with another text in front of its own. -/
def after
    (front : List Char)
    (cursor : Cursor) : Cursor :=
  { behind := cursor.behind ++ front.reverse
    ahead := cursor.ahead
    position := Text.byteLength front + cursor.position
    position_eq := by
      simp [cursor.position_eq, Nat.add_comm] }

/- Every place is the start of the text ahead of it. -/
theorem after_ofChars
    (cursor : Cursor) :
    (ofChars cursor.ahead).after cursor.behind.reverse =
      cursor := by
  refine ext ?_ rfl
  show [] ++ cursor.behind.reverse.reverse = cursor.behind
  rw [List.nil_append, List.reverse_reverse]

theorem after_advance
    (front : List Char)
    (cursor : Cursor) :
    (cursor.after front).advance =
      cursor.advance.after front := by
  rcases cursor with ⟨behind, ahead, position, hPosition⟩
  cases ahead with
  | nil => rfl
  | cons c ahead => exact ext rfl rfl

theorem after_span
    (front : List Char)
    (cursor : Cursor)
    (p : Char → Bool) :
    ((cursor.after front).span p).2 =
      (cursor.span p).2.after front := by
  refine ext ?_ rfl
  show
    (cursor.ahead.takeWhile p).reverse ++
        (cursor.behind ++ front.reverse) =
      ((cursor.ahead.takeWhile p).reverse ++ cursor.behind) ++
        front.reverse
  rw [List.append_assoc]

end Cursor

------------------------------------------------------------
-- Translations
------------------------------------------------------------

/-
  How another reader keeps the places of cursors: it looks
  alike at every place, each of its moves leads where that of
  the cursor leads, and its positions are larger by a fixed
  number of bytes.
-/
structure Translation (τ : Type) [Reader τ] where
  place : Cursor → τ
  bytes : Nat
  position : ∀ cursor,
    Reader.position (place cursor) = bytes + cursor.position
  peek : ∀ cursor,
    Reader.peek (place cursor) = cursor.peek
  left : ∀ cursor,
    Reader.left (place cursor) = cursor.ahead.length
  next : ∀ cursor,
    Reader.next (place cursor) =
      (cursor.peek, place cursor.advance)
  eat : ∀ c cursor,
    Reader.eat c (place cursor) =
      if cursor.peek = some c then
        (true, place cursor.advance)
      else
        (false, place cursor)
  skipBlanks : ∀ cursor,
    Reader.skipBlanks (place cursor) = place cursor.skipBlanks
  takeWhile : ∀ p cursor,
    Reader.takeWhile p (place cursor) =
      (cursor.ahead.takeWhile p, place (cursor.span p).2)
  remainder : ∀ cursor,
    Reader.remainder (place cursor) =
      (cursor.rest, place cursor.toEnd)
  since : ∀ start cursor,
    start.Reaches cursor →
      Reader.since (place start) (place cursor) =
        (start.ahead.take
          (start.ahead.length - cursor.ahead.length),
          place cursor)
  hasTopLevel : ∀ target cursor,
    Reader.hasTopLevel target (place cursor) =
      (cursor.hasTopLevel target, place cursor)

namespace Translation

/- The cursor itself, with another text in front of its own. -/
def inFront
    (front : List Char) : Translation Cursor where
  place := Cursor.after front
  bytes := Text.byteLength front
  position _ := rfl
  peek _ := rfl
  left _ := rfl
  next cursor :=
    congrArg (Prod.mk cursor.peek) (cursor.after_advance front)
  eat c cursor := by
    rw [Cursor.eat_eq, cursor.after_advance front]
    rfl
  skipBlanks cursor := cursor.after_span front Text.isBlank
  takeWhile p cursor :=
    congrArg (Prod.mk (cursor.ahead.takeWhile p))
      (cursor.after_span front p)
  remainder cursor :=
    congrArg (Prod.mk cursor.rest)
      (cursor.after_span front fun _ => true)
  since _ _ _ := rfl
  hasTopLevel _ _ := rfl

end Translation

/-
  The same reason, found at a position that is larger by the
  given number of bytes.
-/
def ReadError.shift
    (bytes : Nat) : ReadError → ReadError
  | unsupported what => unsupported what
  | syntaxError expected found position =>
      syntaxError expected found (bytes + position)
  | overflow literal capacity position =>
      overflow literal capacity (bytes + position)
  | unterminated what position =>
      unterminated what (bytes + position)
  | mismatch destination offer position =>
      mismatch destination offer (bytes + position)
  | exhausted => exhausted

/- Positions that are moved by no bytes are the same. -/
theorem ReadError.shift_zero
    (error : ReadError) :
    error.shift 0 = error := by
  cases error <;> simp [shift]

/- A rejection is reported where its literal begins. -/
theorem Rejection.shift_error
    (rejection : Rejection)
    (literal : String)
    (start bytes : Nat) :
    (rejection.error literal start).shift bytes =
      rejection.error literal (bytes + start) := by
  cases rejection <;> rfl

------------------------------------------------------------
-- Pairs of Runs
------------------------------------------------------------

/- The end of a run, where the other reader has its place. -/
def shiftEnd
    (move : σ → τ)
    (bytes : Nat) :
    EStateM.Result ReadError σ α →
      EStateM.Result ReadError τ α
  | .ok result state => .ok result (move state)
  | .error error state =>
      .error (error.shift bytes) (move state)

/-
  The second action does for the other reader what the first
  one does for the cursor. They are the same, except for the
  positions that they were given to report.
-/
def Shifts
    (move : σ → τ)
    (bytes : Nat)
    (alone : EStateM ReadError σ α)
    (inside : EStateM ReadError τ α) : Prop :=
  ∀ state,
    inside (move state) = shiftEnd move bytes (alone state)

namespace Shifts

variable {move : σ → τ}
variable {bytes : Nat}

theorem pure
    (result : α) :
    Shifts move bytes (Pure.pure result) (Pure.pure result) :=
  fun _ => rfl

/- The position of an error is larger by the text in front. -/
theorem throw
    (error : ReadError) :
    Shifts move bytes
      (MonadExcept.throw error : EStateM ReadError σ α)
      (MonadExcept.throw (error.shift bytes)) :=
  fun _ => rfl

/- The rule for sequences. -/
theorem bind
    {first : EStateM ReadError σ α}
    {first' : EStateM ReadError τ α}
    {next : α → EStateM ReadError σ β}
    {next' : α → EStateM ReadError τ β}
    (hFirst : Shifts move bytes first first')
    (hNext : ∀ result,
      Shifts move bytes (next result) (next' result)) :
    Shifts move bytes (first >>= next) (first' >>= next') := by
  intro state
  rw [run_bind, run_bind, hFirst state]
  cases first state with
  | ok result state' => exact hNext result state'
  | error error state' => rfl

theorem ite
    {p : Prop}
    [Decidable p]
    {action other : EStateM ReadError σ α}
    {action' other' : EStateM ReadError τ α}
    (hTrue : Shifts move bytes action action')
    (hFalse : Shifts move bytes other other') :
    Shifts move bytes (if p then action else other)
      (if p then action' else other') := by
  by_cases hp : p
  · rw [if_pos hp, if_pos hp]
    exact hTrue
  · rw [if_neg hp, if_neg hp]
    exact hFalse

/- What goes on may depend on the state. -/
theorem get
    {next : σ → EStateM ReadError σ α}
    {next' : τ → EStateM ReadError τ α}
    (hNext : ∀ state,
      Shifts move bytes (next state)
        (next' (move state))) :
    Shifts move bytes (MonadState.get >>= next)
      (MonadState.get >>= next') :=
  fun state => hNext state state

/- A loop does the same in each of its rounds. -/
theorem iterate
    {body : β → EStateM ReadError σ (Step β α)}
    {body' : β → EStateM ReadError τ (Step β α)}
    (hBody : ∀ round,
      Shifts move bytes (body round) (body' round))
    (rounds : Nat)
    (round : β) :
    Shifts move bytes
      (Marginalia.iterate .exhausted body rounds round)
      (Marginalia.iterate .exhausted body' rounds round) := by
  induction rounds generalizing round with
  | zero => exact .throw .exhausted
  | succ rounds ih =>
      apply (hBody round).bind
      intro step
      cases step with
      | again next => exact ih next
      | done result => exact .pure result

------------------------------------------------------------
-- Reading
------------------------------------------------------------

variable [Reader τ]
variable {t : Translation τ}

/- Places that are kept are moved by the same bytes. -/
theorem position
    {next : Nat → Scan α}
    {next' : Nat → Reading τ α}
    (hNext : ∀ start,
      Shifts t.place t.bytes (next start)
        (next' (t.bytes + start))) :
    Shifts t.place t.bytes (Scan.position >>= next)
      (Scan.position >>= next') := by
  intro cursor
  show next' (Reader.position (t.place cursor)) _ = _
  rw [t.position]
  exact hNext cursor.position cursor

theorem peek :
    Shifts t.place t.bytes Scan.peek Scan.peek := by
  intro cursor
  exact congrArg (EStateM.Result.ok · (t.place cursor))
    (t.peek cursor)

/- What looks and moves alike has the same end. -/
theorem modifyGet
    {move : Cursor → α × Cursor}
    {move' : τ → α × τ}
    (hMove : ∀ cursor,
      move' (t.place cursor) =
        ((move cursor).1, t.place (move cursor).2)) :
    Shifts t.place t.bytes
      (MonadState.modifyGet move : Scan α)
      (MonadState.modifyGet move') := by
  intro cursor
  show
    (match move' (t.place cursor) with
      | (result, place) => EStateM.Result.ok result place :
      EStateM.Result ReadError τ α) = _
  rw [hMove]
  rfl

theorem next :
    Shifts t.place t.bytes Scan.next Scan.next :=
  modifyGet t.next

theorem skip :
    Shifts t.place t.bytes Scan.skip Scan.skip :=
  modifyGet fun cursor =>
    congrArg (fun move => ((), move.2)) (t.next cursor)

theorem takeWhile
    (p : Char → Bool) :
    Shifts t.place t.bytes (Scan.takeWhile p)
      (Scan.takeWhile p) :=
  modifyGet (t.takeWhile p)

theorem skipBlanks :
    Shifts t.place t.bytes Scan.skipBlanks Scan.skipBlanks :=
  modifyGet fun cursor =>
    congrArg (Prod.mk ()) (t.skipBlanks cursor)

theorem eat
    (c : Char) :
    Shifts t.place t.bytes (Scan.eat c) (Scan.eat c) := by
  apply modifyGet
  intro cursor
  rw [t.eat, Cursor.eat_eq]
  split
  · rfl
  · rfl

theorem hasTopLevel
    (target : Char) :
    Shifts t.place t.bytes (Scan.hasTopLevel target)
      (Scan.hasTopLevel target) :=
  modifyGet (t.hasTopLevel target)

/- A message shows the same text. -/
theorem offending :
    Shifts t.place t.bytes Scan.offending Scan.offending := by
  apply (takeWhile _).bind
  intro token
  refine .ite ?_ (.pure _)
  apply peek.bind
  intro next
  cases next with
  | none => exact .pure _
  | some c => exact .pure _

theorem wrong
    (expected : Expected)
    (found : String)
    (start : Nat) :
    Shifts t.place t.bytes
      (Scan.wrong expected found start : Scan α)
      (Scan.wrong expected found (t.bytes + start)) :=
  .throw (.syntaxError expected found start)

theorem unexpected
    (expected : Expected)
    (start : Nat) :
    Shifts t.place t.bytes
      (Scan.unexpected expected start : Scan α)
      (Scan.unexpected expected (t.bytes + start)) :=
  offending.bind fun found => .wrong expected found start

/- The rounds of a loop are counted by the text ahead. -/
theorem loop
    {body : β → Scan (Step β α)}
    {body' : β → Reading τ (Step β α)}
    (hBody : ∀ round,
      Shifts t.place t.bytes (body round) (body' round))
    (round : β) :
    Shifts t.place t.bytes (Scan.loop body round)
      (Scan.loop body' round) := by
  refine .get fun cursor => ?_
  rw [t.left]
  exact .iterate hBody (cursor.ahead.length + 1) round

end Shifts

------------------------------------------------------------
-- Reading into a Destination
------------------------------------------------------------

variable [Reader τ]
variable {t : Translation τ}

/- The destination is the same. -/
def Translation.state
    (t : Translation τ)
    (state : Cursor × δ) : τ × δ :=
  (t.place state.1, state.2)

namespace Shifts

theorem lift
    {alone : Scan α}
    {inside : Reading τ α}
    (hAction : Shifts t.place t.bytes alone inside) :
    Shifts t.state t.bytes
      (liftM alone : Fill δ α) (liftM inside) := by
  rintro ⟨cursor, content⟩
  show
    (liftM inside : Filling τ δ α) (t.place cursor, content) =
      shiftEnd t.state t.bytes
        ((liftM alone : Fill δ α) (cursor, content))
  rw [Fill.run_lift, Fill.run_lift, hAction cursor]
  cases alone cursor <;> rfl

theorem positionLift
    {next : Nat → Fill δ α}
    {next' : Nat → Filling τ δ α}
    (hNext : ∀ start,
      Shifts t.state t.bytes (next start)
        (next' (t.bytes + start))) :
    Shifts t.state t.bytes
      (liftM (Scan.position : Scan Nat) >>= next)
      (liftM (Scan.position : Reading τ Nat) >>= next') := by
  rintro ⟨cursor, content⟩
  show
    next' (Reader.position (t.place cursor))
      (t.place cursor, content) = _
  rw [t.position]
  exact hNext cursor.position (cursor, content)

/- What is written does not depend on the place. -/
theorem store
    (action : Write δ α)
    (literal : String)
    (start : Nat) :
    Shifts t.state t.bytes
      (Fill.store action literal start)
      (Fill.store action literal (t.bytes + start)) := by
  rintro ⟨cursor, content⟩
  show
    Fill.store action literal (t.bytes + start)
        (t.place cursor, content) =
      shiftEnd t.state t.bytes
        (Fill.store action literal start (cursor, content))
  rw [Fill.run_store, Fill.run_store]
  cases action content with
  | ok result content' => rfl
  | error rejection content' =>
      have hError :=
        rejection.shift_error literal start t.bytes
      exact congrArg
        (EStateM.Result.error ·
          (t.place cursor, content'))
        hError.symm

theorem within
    {target : Target}
    (child : Child target)
    {alone : Fill child.inner.Content α}
    {inside : Filling τ child.inner.Content α}
    (hAction : Shifts t.state t.bytes alone inside) :
    Shifts t.state t.bytes (Fill.within child alone)
      (Fill.within child inside) := by
  rintro ⟨cursor, content⟩
  have hRun := hAction (cursor, child.inner.fresh)
  unfold Translation.state at hRun
  unfold Fill.within Translation.state
  dsimp only at hRun ⊢
  rw [hRun]
  cases alone (cursor, child.inner.fresh) <;> rfl

theorem collect
    (content : δ)
    {alone : Fill δ Unit}
    {inside : Filling τ δ Unit}
    (hAction : Shifts t.state t.bytes alone inside) :
    Shifts t.place t.bytes (Fill.collect content alone)
      (Fill.collect content inside) := by
  intro cursor
  have hRun := hAction (cursor, content)
  unfold Translation.state at hRun
  unfold Fill.collect
  dsimp only at hRun ⊢
  rw [hRun]
  cases alone (cursor, content) <;> rfl

theorem loopWhile
    {body : Fill δ Bool}
    {body' : Filling τ δ Bool}
    (hBody : Shifts t.state t.bytes body body') :
    Shifts t.state t.bytes (Fill.loopWhile body)
      (Fill.loopWhile body') := by
  refine .get fun state => ?_
  show
    Shifts t.state t.bytes _
      (Marginalia.iterate (β := Unit) .exhausted _
        (Reader.left (t.place state.1) + 1) ())
  rw [t.left]
  refine .iterate (fun _ => ?_) _ ()
  apply hBody.bind
  intro another
  exact .ite (.pure _) (.pure _)

end Shifts

end Marginalia
