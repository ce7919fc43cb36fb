import Marginalia.Proofs.Moves
import Marginalia.Proofs.Text

/-
  Successful runs by what is ahead before them and after
  them, wherever in a text that is.

  Key definitions include:
    * `Scan.Takes`
    * `Fill.Takes`

  Main statements:
    * the rules for single actions, sequences and loops
-/

namespace Marginalia

variable {α β δ : Type}

------------------------------------------------------------
-- Reading
------------------------------------------------------------

/-
  With the first text ahead the action succeeds with the
  result, and the second text is then ahead.
-/
def Scan.Takes
    (action : Scan α)
    (before : List Char)
    (result : α)
    (after : List Char) : Prop :=
  ∀ cursor : Cursor,
    cursor.ahead = before →
      ∃ cursor',
        action cursor = .ok result cursor' ∧
          cursor'.ahead = after

namespace Scan.Takes

variable {before after : List Char}

theorem pure
    (result : α) :
    Scan.Takes (Pure.pure result) before result before :=
  fun cursor hAhead => ⟨cursor, rfl, hAhead⟩

theorem bind
    {first : Scan α}
    {next : α → Scan β}
    {middle : List Char}
    {result : α}
    {final : β}
    (hFirst : Scan.Takes first before result middle)
    (hNext : Scan.Takes (next result) middle final after) :
    Scan.Takes (first >>= next) before final after := by
  intro cursor hAhead
  rcases hFirst cursor hAhead with
    ⟨cursor', hRun, hMiddle⟩
  rcases hNext cursor' hMiddle with
    ⟨cursor'', hRun', hAfter⟩
  refine ⟨cursor'', ?_, hAfter⟩
  rw [run_bind_of_ok hRun, hRun']

/- The result may be given another form. -/
theorem map
    {change : α → β}
    {action : Scan α}
    {result : α}
    (hAction : Scan.Takes action before result after) :
    Scan.Takes
      (do
        let result ← action
        return change result)
      before (change result) after :=
  hAction.bind (.pure _)

/- The position has no influence on what is taken. -/
theorem position
    {next : Nat → Scan α}
    {result : α}
    (hNext : ∀ start,
      Scan.Takes (next start) before result after) :
    Scan.Takes (Scan.position >>= next) before result
      after := by
  intro cursor hAhead
  exact hNext cursor.position cursor hAhead

/- Of a cursor only what is ahead is known. -/
theorem get
    {next : Cursor → Scan α}
    {result : α}
    (hNext : ∀ cursor,
      cursor.ahead = before →
        Scan.Takes (next cursor) before result after) :
    Scan.Takes (MonadState.get >>= next) before result
      after := by
  intro cursor hAhead
  exact hNext cursor hAhead cursor hAhead

theorem peek :
    Scan.Takes Scan.peek before before.head? before := by
  rintro cursor rfl
  exact ⟨cursor, rfl, rfl⟩

theorem next
    {c : Char} :
    Scan.Takes Scan.next (c :: after) (some c) after := by
  intro cursor hAhead
  refine ⟨cursor.advance, ?_, ?_⟩
  · rw [Scan.run_next,
      Cursor.peek_eq_some_iff.mpr ⟨after, hAhead⟩]
  · rw [Cursor.advance_ahead, hAhead, List.tail_cons]

/- There is no character at the end. -/
theorem nextNone :
    Scan.Takes Scan.next [] none [] := by
  intro cursor hAhead
  refine ⟨cursor.advance, ?_, ?_⟩
  · rw [Scan.run_next, Cursor.peek, hAhead]
    rfl
  · rw [Cursor.advance_ahead, hAhead, List.tail_nil]

theorem skip
    {c : Char} :
    Scan.Takes Scan.skip (c :: after) () after := by
  intro cursor hAhead
  refine ⟨cursor.advance, rfl, ?_⟩
  rw [Cursor.advance_ahead, hAhead, List.tail_cons]

theorem skipBlanks :
    Scan.Takes Scan.skipBlanks before ()
      (Text.trimStart before) := by
  rintro cursor rfl
  exact ⟨cursor.skipBlanks, rfl, Cursor.skipBlanks_ahead _⟩

/- Where blanks are skipped first, they may as well be gone. -/
theorem of_trimStart
    {next : Unit → Scan α}
    {result : α}
    (hNext :
      Scan.Takes (Scan.skipBlanks >>= next)
        (Text.trimStart before) result after) :
    Scan.Takes (Scan.skipBlanks >>= next) before result
      after := by
  rintro cursor rfl
  rcases hNext cursor.skipBlanks
    (Cursor.skipBlanks_ahead cursor) with
    ⟨cursor', hRun, hAfter⟩
  refine ⟨cursor', ?_, hAfter⟩
  rw [run_bind, Scan.run_skipBlanks] at hRun ⊢
  rw [Cursor.skipBlanks_skipBlanks] at hRun
  exact hRun

theorem takeWhile
    (p : Char → Bool) :
    Scan.Takes (Scan.takeWhile p) before
      (before.takeWhile p) (before.dropWhile p) := by
  rintro cursor rfl
  exact ⟨(cursor.span p).2, rfl, Cursor.span_ahead _ _⟩

/- The run of characters ends where another one stands. -/
theorem takeWhile_append
    {p : Char → Bool}
    {front : List Char}
    (hFront : ∀ c ∈ front, p c = true)
    (hAfter : ∀ c, after.head? = some c → p c = false) :
    Scan.Takes (Scan.takeWhile p) (front ++ after) front
      after := by
  have hTakes : Scan.Takes (Scan.takeWhile p) (front ++ after)
      _ _ := takeWhile p
  rw [Text.takeWhile_front hFront hAfter,
    Text.dropWhile_front hFront hAfter] at hTakes
  exact hTakes

theorem eat
    {c : Char} :
    Scan.Takes (Scan.eat c) (c :: after) true after := by
  intro cursor hAhead
  refine ⟨cursor.advance, ?_, ?_⟩
  · rw [Scan.run_eat, if_pos]
    exact Cursor.peek_eq_some_iff.mpr ⟨after, hAhead⟩
  · rw [Cursor.advance_ahead, hAhead, List.tail_cons]

/- Another character is not consumed. -/
theorem eat_other
    {c : Char}
    (hOther : before.head? ≠ some c) :
    Scan.Takes (Scan.eat c) before false before := by
  rintro cursor rfl
  refine ⟨cursor, ?_, rfl⟩
  rw [Scan.run_eat, if_neg]
  exact hOther

/- A round that asks for another one takes what both take. -/
theorem again
    {stuck : ReadError}
    {body : β → Scan (Step β α)}
    {rounds : Nat}
    {round next : β}
    {middle : List Char}
    {result : α}
    (hBody :
      Scan.Takes (body round) before (.again next) middle)
    (hRest :
      Scan.Takes (iterate stuck body rounds next) middle
        result after) :
    Scan.Takes (iterate stuck body (rounds + 1) round) before
      result after := by
  unfold iterate
  exact hBody.bind hRest

theorem done
    {stuck : ReadError}
    {body : β → Scan (Step β α)}
    {rounds : Nat}
    {round : β}
    {result : α}
    (hBody :
      Scan.Takes (body round) before (.done result) after) :
    Scan.Takes (iterate stuck body (rounds + 1) round) before
      result after := by
  unfold iterate
  exact hBody.bind (.pure result)

/- A loop takes what its rounds do. -/
theorem loop
    {body : β → Scan (Step β α)}
    {start : β}
    {result : α}
    (hRounds :
      Scan.Takes
        (iterate .exhausted body (before.length + 1) start)
        before result after) :
    Scan.Takes (Scan.loop body start) before result
      after := by
  refine .get ?_
  rintro cursor rfl
  exact hRounds

end Scan.Takes

------------------------------------------------------------
-- Reading into a Destination
------------------------------------------------------------

/-
  With the first text ahead the action succeeds, whereby the
  content changes, and the second text is then ahead.
-/
def Fill.Takes
    (action : Fill δ α)
    (before : List Char)
    (content : δ)
    (result : α)
    (after : List Char)
    (content' : δ) : Prop :=
  ∀ cursor : Cursor,
    cursor.ahead = before →
      ∃ cursor',
        action (cursor, content) =
            .ok result (cursor', content') ∧
          cursor'.ahead = after

namespace Fill.Takes

variable {before middle after : List Char}
variable {content content' content'' : δ}

theorem pure
    (result : α) :
    Fill.Takes (Pure.pure result) before content result
      before content :=
  fun cursor hAhead => ⟨cursor, rfl, hAhead⟩

theorem bind
    {first : Fill δ α}
    {next : α → Fill δ β}
    {result : α}
    {final : β}
    (hFirst :
      Fill.Takes first before content result middle content')
    (hNext :
      Fill.Takes (next result) middle content' final after
        content'') :
    Fill.Takes (first >>= next) before content final after
      content'' := by
  intro cursor hAhead
  rcases hFirst cursor hAhead with
    ⟨cursor', hRun, hMiddle⟩
  rcases hNext cursor' hMiddle with
    ⟨cursor'', hRun', hAfter⟩
  refine ⟨cursor'', ?_, hAfter⟩
  rw [run_bind_of_ok hRun, hRun']

/- Reading leaves the destination as it is. -/
theorem lift
    {action : Scan α}
    {result : α}
    (hAction : Scan.Takes action before result after) :
    Fill.Takes (liftM action : Fill δ α) before content
      result after content := by
  intro cursor hAhead
  rcases hAction cursor hAhead with
    ⟨cursor', hRun, hAfter⟩
  refine ⟨cursor', ?_, hAfter⟩
  rw [Fill.run_lift, hRun]

theorem position
    {next : Nat → Fill δ α}
    {result : α}
    (hNext : ∀ start,
      Fill.Takes (next start) before content result after
        content') :
    Fill.Takes (liftM (Scan.position : Scan Nat) >>= next)
      before content result after content' := by
  intro cursor hAhead
  exact hNext cursor.position cursor hAhead

/- Writing takes nothing. -/
theorem store
    {action : Write δ α}
    {literal : String}
    {start : Nat}
    {result : α}
    (hAction : action content = .ok result content') :
    Fill.Takes (Fill.store action literal start) before
      content result before content' := by
  intro cursor hAhead
  refine ⟨cursor, ?_, hAhead⟩
  rw [Fill.run_store, hAction]

/- A round that asks for another one takes what both take. -/
theorem again
    {body : Fill δ Bool}
    {count : Nat}
    (hBody :
      Fill.Takes body before content true middle content')
    (hRest :
      Fill.Takes (Fill.rounds body count) middle content' ()
        after content'') :
    Fill.Takes (Fill.rounds body (count + 1)) before content
      () after content'' := by
  rw [Fill.rounds_succ]
  exact hBody.bind hRest

theorem done
    {body : Fill δ Bool}
    {count : Nat}
    (hBody :
      Fill.Takes body before content false after content') :
    Fill.Takes (Fill.rounds body (count + 1)) before content
      () after content' := by
  rw [Fill.rounds_succ]
  exact hBody.bind (.pure ())

/- A loop takes what its rounds do. -/
theorem loopWhile
    {body : Fill δ Bool}
    (hRounds :
      Fill.Takes (Fill.rounds body (before.length + 1))
        before content () after content') :
    Fill.Takes (Fill.loopWhile body) before content () after
      content' := by
  rintro cursor rfl
  rcases hRounds cursor rfl with ⟨cursor', hRun, hAfter⟩
  exact ⟨cursor', hRun, hAfter⟩

/- A destination of its own is the result. -/
theorem collect
    {action : Fill δ Unit}
    (hAction :
      Fill.Takes action before content () after content') :
    Scan.Takes (Fill.collect content action) before content'
      after := by
  intro cursor hAhead
  rcases hAction cursor hAhead with
    ⟨cursor', hRun, hAfter⟩
  exact ⟨cursor', Fill.run_collect_of_ok hRun, hAfter⟩

end Fill.Takes

end Marginalia
