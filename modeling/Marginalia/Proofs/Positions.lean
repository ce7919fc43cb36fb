import Marginalia.Proofs.Moves

/-
  Positions in errors: an action stays in the text that it
  reads, and the places that it reports lie there.

  Key definitions include:
    * `Text.DividesAt`
    * `Text.IsPlace`
    * `Text.SignedDigits`
    * `ReadError.PointsInto`
    * `ReadError.Pinpoints`
    * `Stays`

  Main statements:
    * `Text.isPlace_iff_isValid`
    * the rules for single actions, sequences and loops
    * the rules for actions on a value
-/

namespace Marginalia

variable {ε σ α β δ : Type}

------------------------------------------------------------
-- Places in a Text
------------------------------------------------------------

namespace Text

/-
  The position counts the bytes of some first characters of
  the text; the others follow it.
-/
def DividesAt
    (text : List Char)
    (position : Nat)
    (back : List Char) : Prop :=
  ∃ front,
    text = front ++ back ∧ position = byteLength front

/- The position is between characters of the text. -/
def IsPlace
    (text : List Char)
    (position : Nat) : Prop :=
  ∃ back, DividesAt text position back

theorem byteLength_eq_utf8ByteSize
    (text : List Char) :
    byteLength text = (String.ofList text).utf8ByteSize := by
  induction text with
  | nil => rfl
  | cons c text ih =>
      rw [byteLength_cons, ih, String.ofList_cons,
        String.utf8ByteSize_append,
        String.utf8ByteSize_singleton]

/- The places are what the core library takes for positions. -/
theorem isPlace_iff_isValid
    {text : String}
    {position : Nat} :
    IsPlace text.toList position ↔
      String.Pos.Raw.IsValid text ⟨position⟩ := by
  rw [String.Pos.Raw.isValid_iff_exists_append]
  constructor
  · rintro ⟨back, front, hText, hPosition⟩
    refine ⟨String.ofList front, String.ofList back, ?_, ?_⟩
    · apply String.toList_inj.mp
      simpa using hText
    · rw [hPosition, byteLength_eq_utf8ByteSize]
      rfl
  · rintro ⟨front, back, rfl, hPosition⟩
    refine ⟨back.toList, front.toList,
      String.toList_append, ?_⟩
    rw [byteLength_eq_utf8ByteSize, String.ofList_toList]
    exact congrArg String.Pos.Raw.byteIdx hPosition

/- Digits after a minus sign or none. -/
def SignedDigits
    (text : List Char) : Prop :=
  ∃ digits,
    digits ≠ [] ∧
      (∀ c ∈ digits, c.isDigit = true) ∧
        (text = digits ∨ text = '-' :: digits)

end Text

namespace Cursor

theorem dividesAt
    (cursor : Cursor) :
    Text.DividesAt cursor.chars cursor.position
      cursor.ahead := by
  refine ⟨cursor.behind.reverse, rfl, ?_⟩
  rw [Text.byteLength_reverse, cursor.position_eq]

theorem Reaches.chars_eq
    {first second : Cursor}
    (hReaches : first.Reaches second) :
    second.chars = first.chars := by
  rcases hReaches with ⟨passed, hAhead, hBehind⟩
  unfold chars
  rw [hBehind, hAhead, List.reverse_append,
    List.reverse_reverse, List.append_assoc]

end Cursor

/- A cursor stands at a place of its text. -/
theorem Text.IsPlace.of_chars
    {text : List Char}
    {cursor : Cursor}
    (hChars : cursor.chars = text) :
    Text.IsPlace text cursor.position :=
  ⟨cursor.ahead, hChars ▸ cursor.dividesAt⟩

namespace ReadError

/-
  What an error says of the text that begins at its position:
  an enclosed part begins there, or an integer.
-/
def Begins : ReadError → List Char → Prop
  | unterminated what _, back =>
      back.head? = some what.opener
  | overflow literal _ _, back =>
      Text.SignedDigits literal.toList ∧
        literal.toList <+: back
  | _, _ => True

/- The position of the error, if it has one, is in the text. -/
def PointsInto
    (text : List Char)
    (error : ReadError) : Prop :=
  ∀ position,
    error.position? = some position →
      Text.IsPlace text position

/- What the error says is true at its position in the text. -/
def Pinpoints
    (text : List Char)
    (error : ReadError) : Prop :=
  ∀ position,
    error.position? = some position →
      ∃ back,
        Text.DividesAt text position back ∧
          error.Begins back

variable {text : List Char}

theorem Pinpoints.pointsInto
    {error : ReadError}
    (hError : error.Pinpoints text) :
    error.PointsInto text := by
  intro position hPosition
  rcases hError position hPosition with ⟨back, hBack, _⟩
  exact ⟨back, hBack⟩

theorem Pinpoints.syntaxError
    {start : Nat}
    (hStart : Text.IsPlace text start)
    (expected : Expected)
    (found : String) :
    (syntaxError expected found start).Pinpoints text := by
  rintro _ ⟨⟩
  rcases hStart with ⟨back, hBack⟩
  exact ⟨back, hBack, trivial⟩

theorem Pinpoints.mismatch
    {start : Nat}
    (hStart : Text.IsPlace text start)
    (destination : String)
    (offer : Offer) :
    (mismatch destination offer start).Pinpoints text := by
  rintro _ ⟨⟩
  rcases hStart with ⟨back, hBack⟩
  exact ⟨back, hBack, trivial⟩

theorem Pinpoints.unterminated
    {cursor : Cursor}
    {what : Enclosure}
    (hChars : cursor.chars = text)
    (hOpener : cursor.peek = some what.opener) :
    (unterminated what cursor.position).Pinpoints text := by
  rintro _ ⟨⟩
  exact ⟨cursor.ahead, hChars ▸ cursor.dividesAt, hOpener⟩

theorem Pinpoints.overflow
    {cursor : Cursor}
    {literal : String}
    (hChars : cursor.chars = text)
    (hDigits : Text.SignedDigits literal.toList)
    (hAhead : literal.toList <+: cursor.ahead)
    (capacity : Capacity) :
    (overflow literal capacity
      cursor.position).Pinpoints text := by
  rintro _ ⟨⟩
  exact ⟨cursor.ahead, hChars ▸ cursor.dividesAt, hDigits,
    hAhead⟩

end ReadError

open ReadError (Pinpoints)

------------------------------------------------------------
-- Actions that Stay in a Text
------------------------------------------------------------

/-
  Started at the given state, the action stays in the text if
  it succeeds, and fails with an error that has to do with the
  text in the given way.
-/
def StaysFrom
    (place : σ → Cursor)
    (fail : List Char → ε → Prop)
    (text : List Char)
    (action : EStateM ε σ α)
    (state : σ) : Prop :=
  Ends (fun _ state' => (place state').chars = text)
    (fun error _ => fail text error)
    (action state)

/- The action stays in the text, wherever it starts there. -/
def Stays
    (place : σ → Cursor)
    (fail : List Char → ε → Prop)
    (text : List Char)
    (action : EStateM ε σ α) : Prop :=
  ∀ state,
    (place state).chars = text →
      StaysFrom place fail text action state

variable {place : σ → Cursor}
variable {fail : List Char → ε → Prop}
variable {text : List Char}

namespace StaysFrom

variable {state : σ}

theorem throw
    {error : ε}
    (hError : fail text error) :
    StaysFrom place fail text
      (MonadExcept.throw error : EStateM ε σ α) state :=
  hError

theorem bind
    {first : EStateM ε σ α}
    {next : α → EStateM ε σ β}
    (hFirst : StaysFrom place fail text first state)
    (hNext : ∀ result,
      Stays place fail text (next result)) :
    StaysFrom place fail text (first >>= next) state := by
  apply Ends.bind hFirst
  intro result state' hState'
  exact hNext result state' hState'

theorem ite
    {p : Prop}
    [Decidable p]
    {action action' : EStateM ε σ α}
    (hTrue : p → StaysFrom place fail text action state)
    (hFalse :
      ¬ p → StaysFrom place fail text action' state) :
    StaysFrom place fail text
      (if p then action else action') state := by
  by_cases hp : p
  · rw [if_pos hp]
    exact hTrue hp
  · rw [if_neg hp]
    exact hFalse hp

end StaysFrom

namespace Stays

theorem pure
    (result : α) :
    Stays place fail text
      (Pure.pure result : EStateM ε σ α) :=
  fun _ hState => hState

theorem throw
    {error : ε}
    (hError : fail text error) :
    Stays place fail text
      (MonadExcept.throw error : EStateM ε σ α) :=
  fun _ _ => .throw hError

/- The rule for sequences. -/
theorem bind
    {first : EStateM ε σ α}
    {next : α → EStateM ε σ β}
    (hFirst : Stays place fail text first)
    (hNext : ∀ result,
      Stays place fail text (next result)) :
    Stays place fail text (first >>= next) :=
  fun state hState => (hFirst state hState).bind hNext

theorem ite
    {p : Prop}
    [Decidable p]
    {action action' : EStateM ε σ α}
    (hTrue : Stays place fail text action)
    (hFalse : Stays place fail text action') :
    Stays place fail text (if p then action else action') :=
  fun state hState =>
    .ite (fun _ => hTrue state hState) fun _ =>
      hFalse state hState

theorem get :
    Stays place fail text
      (MonadState.get : EStateM ε σ σ) :=
  fun _ hState => hState

/- A loop stays in the text, or it runs out of rounds. -/
theorem iterate
    {stuck : ε}
    {body : β → EStateM ε σ (Step β α)}
    (hStuck : fail text stuck)
    (hBody : ∀ round, Stays place fail text (body round))
    (rounds : Nat)
    (round : β) :
    Stays place fail text
      (Marginalia.iterate stuck body rounds round) := by
  intro state hState
  refine ends_iterate_of_stuck
    (fun _ state' => (place state').chars = text)
    (fun _ _ _ => hStuck) ?_ rounds round state hState
  intro round' state' hState'
  refine Ends.imp (hBody round' state' hState') ?_
    (fun _ _ hError => hError)
  intro step _ hStep
  cases step with
  | again next => exact hStep
  | done result => exact hStep

/- What moves ahead and does not fail stays in the text. -/
theorem of_advances
    {fail : List Char → ReadError → Prop}
    {passes : α → Prop}
    {action : EStateM ReadError σ α}
    (hAction : ∀ bound,
      Advances place (fail text) bound passes action) :
    Stays place fail text action := by
  intro state hState
  refine Ends.imp
    (hAction _ state (Nat.lt_succ_self _)) ?_ ?_
  · intro _ state' hEnd
    rw [hEnd.1.chars_eq, hState]
  · intro _ _ hEnd
    exact hEnd.1

end Stays

------------------------------------------------------------
-- Reading
------------------------------------------------------------

namespace StaysFrom

variable {cursor : Cursor}
variable {fail : List Char → ReadError → Prop}

theorem position
    {next : Nat → Scan α}
    (hNext :
      StaysFrom id fail text (next cursor.position) cursor) :
    StaysFrom id fail text (Scan.position >>= next) cursor :=
  hNext

theorem peek
    {next : Option Char → Scan α}
    (hNext :
      StaysFrom id fail text (next cursor.peek) cursor) :
    StaysFrom id fail text (Scan.peek >>= next) cursor :=
  hNext

theorem skipBlanks
    {next : Unit → Scan α}
    (hNext :
      StaysFrom id fail text (next ()) cursor.skipBlanks) :
    StaysFrom id fail text (Scan.skipBlanks >>= next)
      cursor :=
  hNext

end StaysFrom

namespace Stays

/- A position that is asked for is one in the text. -/
theorem position
    {fail : List Char → ReadError → Prop}
    {next : Nat → Scan α}
    (hNext : ∀ start,
      Text.IsPlace text start →
        Stays id fail text (next start)) :
    Stays id fail text (Scan.position >>= next) := by
  intro cursor hChars
  exact .position (hNext _ (.of_chars hChars) cursor hChars)

theorem peek :
    Stays id Pinpoints text Scan.peek :=
  .of_advances fun _ => .peek

theorem next :
    Stays id Pinpoints text Scan.next :=
  .of_advances fun _ => .next

theorem skip :
    Stays id Pinpoints text Scan.skip :=
  .of_advances fun _ => .skip

theorem skipBlanks :
    Stays id Pinpoints text Scan.skipBlanks :=
  .of_advances fun _ => .skipBlanks

theorem takeWhile
    (p : Char → Bool) :
    Stays id Pinpoints text (Scan.takeWhile p) :=
  .of_advances fun _ => .takeWhile p

theorem eat
    (c : Char) :
    Stays id Pinpoints text (Scan.eat c) :=
  .of_advances fun _ => .eat c

/- What a message shows is read in the text. -/
theorem offending :
    Stays id Pinpoints text Scan.offending :=
  .of_advances fun _ => .offending

theorem wrong
    {start : Nat}
    (hStart : Text.IsPlace text start)
    (expected : Expected)
    (found : String) :
    Stays id Pinpoints text
      (Scan.wrong expected found start : Scan α) :=
  .throw (.syntaxError hStart expected found)

theorem unexpected
    {start : Nat}
    (hStart : Text.IsPlace text start)
    (expected : Expected) :
    Stays id Pinpoints text
      (Scan.unexpected expected start : Scan α) :=
  offending.bind fun found => .wrong hStart expected found

theorem unexpectedNext
    (expected : Expected) :
    Stays id Pinpoints text
      (Scan.unexpectedNext expected : Scan α) := by
  apply peek.bind
  intro next
  exact .position fun start hStart => .wrong hStart _ _

theorem loop
    {body : β → Scan (Step β α)}
    (hBody : ∀ round, Stays id Pinpoints text (body round))
    (round : β) :
    Stays id Pinpoints text (Scan.loop body round) :=
  .bind .get fun _ => .iterate nofun hBody _ round

end Stays

------------------------------------------------------------
-- Reading into a Value
------------------------------------------------------------

namespace StaysFrom

variable {cursor : Cursor}
variable {fail : List Char → ReadError → Prop}

theorem lift
    {action : Scan α}
    {content : δ}
    (hAction : StaysFrom id fail text action cursor) :
    StaysFrom Prod.fst fail text
      (liftM action : Fill δ α) (cursor, content) :=
  Fill.ends_lift.mpr hAction

theorem positionLift
    {content : δ}
    {next : Nat → Fill δ α}
    (hNext :
      StaysFrom Prod.fst fail text (next cursor.position)
        (cursor, content)) :
    StaysFrom Prod.fst fail text
      (liftM (Scan.position : Scan Nat) >>= next)
      (cursor, content) :=
  hNext

theorem peekLift
    {content : δ}
    {next : Option Char → Fill δ α}
    (hNext :
      StaysFrom Prod.fst fail text (next cursor.peek)
        (cursor, content)) :
    StaysFrom Prod.fst fail text
      (liftM (Scan.peek : Scan (Option Char)) >>= next)
      (cursor, content) :=
  hNext

theorem takeWhileLift
    {content : δ}
    {p : Char → Bool}
    {next : List Char → Fill δ α}
    (hNext :
      StaysFrom Prod.fst fail text
        (next (cursor.ahead.takeWhile p))
        ((cursor.span p).2, content)) :
    StaysFrom Prod.fst fail text
      (liftM (Scan.takeWhile p : Scan (List Char)) >>= next)
      (cursor, content) :=
  hNext

theorem eatLift
    {content : δ}
    {c : Char}
    {next : Bool → Fill δ α}
    (hEaten :
      cursor.peek = some c →
        StaysFrom Prod.fst fail text (next true)
          (cursor.advance, content))
    (hOther :
      StaysFrom Prod.fst fail text (next false)
        (cursor, content)) :
    StaysFrom Prod.fst fail text
      (liftM (Scan.eat c : Scan Bool) >>= next)
      (cursor, content) := by
  unfold StaysFrom
  rw [run_bind, Fill.run_lift, Scan.run_eat]
  by_cases hPeek : cursor.peek = some c
  · rw [if_pos hPeek]
    exact hEaten hPeek
  · rw [if_neg hPeek]
    exact hOther

/- After a value has been written, the cursor is the same. -/
theorem storeBind
    {content written : δ}
    {literal : String}
    {start : Nat}
    {next : Unit → Fill δ α}
    (hNext :
      StaysFrom Prod.fst fail text (next ())
        (cursor, written)) :
    StaysFrom Prod.fst fail text
      (Fill.store (Target.store written) literal start >>=
        next)
      (cursor, content) :=
  hNext

theorem collect
    {content : δ}
    {action : Fill δ Unit}
    (hAction :
      StaysFrom Prod.fst fail text action
        (cursor, content)) :
    StaysFrom id fail text (Fill.collect content action)
      cursor :=
  Fill.ends_collect.mpr hAction

end StaysFrom

namespace Stays

variable {fail : List Char → ReadError → Prop}

theorem lift
    {action : Scan α}
    (hAction : Stays id fail text action) :
    Stays Prod.fst fail text (liftM action : Fill δ α) :=
  fun state hState => (hAction state.1 hState).lift

theorem positionLift
    {next : Nat → Fill δ α}
    (hNext : ∀ start,
      Text.IsPlace text start →
        Stays Prod.fst fail text (next start)) :
    Stays Prod.fst fail text
      (liftM (Scan.position : Scan Nat) >>= next) := by
  intro state hChars
  exact .positionLift
    (hNext _ (.of_chars hChars) state hChars)

theorem store
    (content : δ)
    (literal : String)
    (start : Nat) :
    Stays Prod.fst fail text
      (Fill.store (Target.store content) literal start) :=
  fun _ hState => hState

theorem collect
    (content : δ)
    {action : Fill δ Unit}
    (hAction : Stays Prod.fst fail text action) :
    Stays id fail text (Fill.collect content action) :=
  fun cursor hCursor =>
    .collect (hAction (cursor, content) hCursor)

theorem loopWhile
    {body : Fill δ Bool}
    (hBody : Stays Prod.fst Pinpoints text body) :
    Stays Prod.fst Pinpoints text (Fill.loopWhile body) := by
  refine .bind .get fun _ => ?_
  refine .iterate nofun (fun _ => ?_) _ ()
  refine .bind hBody fun another => ?_
  exact .ite (.pure _) (.pure _)

end Stays

end Marginalia
