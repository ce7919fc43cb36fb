import Marginalia.Proofs.Takes

/-
  What an action takes if it succeeds at all, by what is ahead
  before it and after it.

  Key definitions include:
    * `OnlyTakes`

  Main statements:
    * the rules for single actions, sequences and loops
-/

namespace Marginalia

variable {σ α β δ : Type}

/-
  With the text ahead the action fails, or the predicate holds
  of its result and of what is then ahead.
-/
def OnlyTakes
    (place : σ → Cursor)
    (action : EStateM ReadError σ α)
    (before : List Char)
    (post : α → List Char → Prop) : Prop :=
  ∀ state,
    (place state).ahead = before →
      Ends
        (fun result state' =>
          post result (place state').ahead)
        (fun _ _ => True)
        (action state)

namespace OnlyTakes

variable {place : σ → Cursor}
variable {before : List Char}
variable {post post' : α → List Char → Prop}

/- What a successful run has taken. -/
theorem of_ok
    {action : EStateM ReadError σ α}
    (hAction : OnlyTakes place action before post)
    {state state' : σ}
    {result : α}
    (hAhead : (place state).ahead = before)
    (hRun : action state = .ok result state') :
    post result (place state').ahead :=
  Ends.of_ok (hAction state hAhead) hRun

------------------------------------------------------------
-- Sequences
------------------------------------------------------------

theorem pure
    {result : α}
    (hPost : post result before) :
    OnlyTakes place
      (Pure.pure result : EStateM ReadError σ α) before
      post := by
  rintro state rfl
  exact hPost

theorem throw
    (error : ReadError) :
    OnlyTakes place
      (MonadExcept.throw error : EStateM ReadError σ α)
      before post :=
  fun _ _ => trivial

theorem imp
    {action : EStateM ReadError σ α}
    (hAction : OnlyTakes place action before post)
    (hPost : ∀ result after,
      post result after → post' result after) :
    OnlyTakes place action before post' := by
  intro state hAhead
  exact Ends.imp (hAction state hAhead)
    (fun result state' => hPost result (place state').ahead)
    fun _ _ h => h

theorem bind
    {mid : α → List Char → Prop}
    {post : β → List Char → Prop}
    {first : EStateM ReadError σ α}
    {next : α → EStateM ReadError σ β}
    (hFirst : OnlyTakes place first before mid)
    (hNext : ∀ result after,
      mid result after →
        OnlyTakes place (next result) after post) :
    OnlyTakes place (first >>= next) before post := by
  intro state hAhead
  apply (hFirst state hAhead).bind
  intro result state' hMid
  exact hNext result _ hMid state' rfl

/- Of the first action nothing need be known. -/
theorem after
    {post : β → List Char → Prop}
    {first : EStateM ReadError σ α}
    {next : α → EStateM ReadError σ β}
    (hNext : ∀ result after,
      OnlyTakes place (next result) after post) :
    OnlyTakes place (first >>= next) before post := by
  have hFirst :
      OnlyTakes place first before fun _ _ => True := by
    intro state _
    cases first state with
    | ok result state' => trivial
    | error error state' => trivial
  exact hFirst.bind fun result after _ => hNext result after

theorem ite
    {p : Prop}
    [Decidable p]
    {action action' : EStateM ReadError σ α}
    (hTrue : p → OnlyTakes place action before post)
    (hFalse : ¬ p → OnlyTakes place action' before post) :
    OnlyTakes place (if p then action else action') before
      post := by
  by_cases hp : p
  · rw [if_pos hp]
    exact hTrue hp
  · rw [if_neg hp]
    exact hFalse hp

/-
  The rule for repetition: every round that asks for another
  one keeps the invariant.
-/
theorem iterate
    {stuck : ReadError}
    {body : β → EStateM ReadError σ (Step β α)}
    (inv : β → List Char → Prop)
    (hBody : ∀ round before,
      inv round before →
        OnlyTakes place (body round) before
          fun step after =>
            match step with
            | .again next => inv next after
            | .done result => post result after)
    (rounds : Nat)
    {round : β}
    (hStart : inv round before) :
    OnlyTakes place
      (Marginalia.iterate stuck body rounds round) before
      post := by
  rintro state rfl
  refine ends_iterate_of_stuck
    (fun round state => inv round (place state).ahead)
    (fun _ _ _ => trivial) ?_ rounds round state hStart
  intro round state hInv
  refine Ends.imp (hBody round _ hInv state rfl) ?_
    fun _ _ h => h
  intro step state' hStep
  cases step with
  | again next => exact hStep
  | done result => exact hStep

end OnlyTakes

------------------------------------------------------------
-- Reading
------------------------------------------------------------

namespace OnlyTakes

variable {before : List Char}
variable {post : α → List Char → Prop}

/- What is taken for certain is all that is taken. -/
theorem of_takes
    {action : Scan α}
    {result : α}
    {after : List Char}
    (hTakes : Scan.Takes action before result after)
    (hPost : post result after) :
    OnlyTakes id action before post := by
  intro cursor hAhead
  rcases hTakes cursor hAhead with ⟨cursor', hRun, hAfter⟩
  rw [hRun]
  rw [← hAfter] at hPost
  exact hPost

theorem get
    {next : Cursor → Scan α}
    (hNext : ∀ cursor,
      OnlyTakes id (next cursor) before post) :
    OnlyTakes id (MonadState.get >>= next) before post :=
  fun cursor hAhead => hNext cursor cursor hAhead

theorem position
    {next : Nat → Scan α}
    (hNext : ∀ start,
      OnlyTakes id (next start) before post) :
    OnlyTakes id (Scan.position >>= next) before post :=
  fun cursor hAhead => hNext cursor.position cursor hAhead

/- What follows an action that succeeds in one way. -/
theorem takes
    {first : Scan β}
    {result : β}
    {after : List Char}
    {next : β → Scan α}
    (hFirst : Scan.Takes first before result after)
    (hNext : OnlyTakes id (next result) after post) :
    OnlyTakes id (first >>= next) before post := by
  intro cursor hAhead
  rcases hFirst cursor hAhead with ⟨cursor', hRun, hAfter⟩
  rw [run_bind_of_ok hRun]
  exact hNext cursor' hAfter

/- Whether the character is eaten tells whether it is next. -/
theorem eat
    {c : Char} :
    OnlyTakes id (Scan.eat c) before fun eaten after =>
      if eaten then
        before = c :: after
      else
        after = before ∧ before.head? ≠ some c := by
  by_cases hHead : before.head? = some c
  · rcases List.head?_eq_some_iff.mp hHead with ⟨after, rfl⟩
    exact of_takes .eat rfl
  · exact of_takes (.eat_other hHead) ⟨rfl, hHead⟩

theorem wrong
    (expected : Expected)
    (found : String)
    (start : Nat) :
    OnlyTakes id
      (Scan.wrong expected found start : Scan α) before
      post :=
  fun _ _ => trivial

theorem unexpected
    (expected : Expected)
    (start : Nat) :
    OnlyTakes id (Scan.unexpected expected start : Scan α)
      before post := by
  intro cursor _
  rcases Scan.exists_run_unexpected expected start cursor
    with ⟨found, cursor', hRun⟩
  rw [hRun α]
  trivial

theorem loop
    {body : β → Scan (Step β α)}
    (inv : β → List Char → Prop)
    (hBody : ∀ round before,
      inv round before →
        OnlyTakes id (body round) before
          fun step after =>
            match step with
            | .again next => inv next after
            | .done result => post result after)
    {start : β}
    (hStart : inv start before) :
    OnlyTakes id (Scan.loop body start) before post :=
  .get fun _ => .iterate inv hBody _ hStart

end OnlyTakes

------------------------------------------------------------
-- Reading into a Destination
------------------------------------------------------------

namespace OnlyTakes

variable {before : List Char}
variable {post : α → List Char → Prop}

/- The destination is no concern of what is read. -/
theorem lift
    {action : Scan α}
    (hAction : OnlyTakes id action before post) :
    OnlyTakes Prod.fst (liftM action : Fill δ α) before
      post := by
  rintro ⟨cursor, content⟩ hAhead
  exact Fill.ends_lift.mpr (hAction cursor hAhead)

/- What follows reading follows it with a destination. -/
theorem read
    {mid : β → List Char → Prop}
    {action : Scan β}
    {next : β → Fill δ α}
    (hAction : OnlyTakes id action before mid)
    (hNext : ∀ result after,
      mid result after →
        OnlyTakes Prod.fst (next result) after post) :
    OnlyTakes Prod.fst (liftM action >>= next) before post :=
  .bind (lift hAction) hNext

/- Reading that succeeds in one way. -/
theorem takesFill
    {first : Scan β}
    {result : β}
    {after : List Char}
    {next : β → Fill δ α}
    (hFirst : Scan.Takes first before result after)
    (hNext : OnlyTakes Prod.fst (next result) after post) :
    OnlyTakes Prod.fst (liftM first >>= next) before post := by
  rintro ⟨cursor, content⟩ hAhead
  rcases hFirst cursor hAhead with ⟨cursor', hRun, hAfter⟩
  rw [run_bind, Fill.run_lift, hRun]
  exact hNext (cursor', content) hAfter

/- What is taken for certain, whatever is written thereby. -/
theorem of_takesFill
    {action : Fill δ α}
    (hTakes : ∀ content,
      ∃ result after content',
        Fill.Takes action before content result after
            content' ∧
          post result after) :
    OnlyTakes Prod.fst action before post := by
  rintro ⟨cursor, content⟩ hAhead
  rcases hTakes content with
    ⟨result, after, content', hTakes, hPost⟩
  rcases hTakes cursor hAhead with ⟨cursor', hRun, rfl⟩
  rw [hRun]
  exact hPost

theorem positionFill
    {next : Nat → Fill δ α}
    (hNext : ∀ start,
      OnlyTakes Prod.fst (next start) before post) :
    OnlyTakes Prod.fst
      (liftM (Scan.position : Scan Nat) >>= next) before post :=
  fun state hAhead =>
    hNext state.1.position state hAhead

/- Writing takes nothing. -/
theorem store
    {action : Write δ α}
    {literal : String}
    {start : Nat}
    (hPost : ∀ result, post result before) :
    OnlyTakes Prod.fst (Fill.store action literal start)
      before post := by
  rintro ⟨cursor, content⟩ rfl
  apply Fill.ends_store.mpr
  cases action content with
  | ok result content' => exact hPost result
  | error rejection content' => trivial

/- A place inside the destination makes no difference. -/
theorem within
    {target : Target}
    {child : Child target}
    {action : Fill child.inner.Content α}
    (hAction : OnlyTakes Prod.fst action before post) :
    OnlyTakes Prod.fst (Fill.within child action) before
      post := by
  rintro ⟨cursor, content⟩ hAhead
  exact Fill.ends_within.mpr
    (hAction (cursor, child.inner.fresh) hAhead)

theorem loopWhile
    {body : Fill δ Bool}
    {post : List Char → Prop}
    (inv : List Char → Prop)
    (hBody : ∀ before,
      inv before →
        OnlyTakes Prod.fst body before fun another after =>
          if another then inv after else post after)
    (hStart : inv before) :
    OnlyTakes Prod.fst (Fill.loopWhile body) before
      fun _ after => post after := by
  rintro ⟨cursor, content⟩ hAhead
  have hRounds :
      OnlyTakes Prod.fst
        (Fill.rounds body (cursor.ahead.length + 1)) before
        fun _ after => post after := by
    refine iterate (fun _ => inv) ?_ _ hStart
    intro _ before hInv
    refine (hBody before hInv).bind ?_
    intro another after hRound
    cases another with
    | true => exact pure hRound
    | false => exact pure hRound
  exact hRounds (cursor, content) hAhead

end OnlyTakes

end Marginalia
