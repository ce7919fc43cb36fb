import Marginalia.Literal.Fill

/-
  How runs of actions end, and what follows for actions that
  are put together from smaller ones.

  Main declarations:
    * `Ends` and its rules for sequences
    * `ends_iterate`, the rule for repetition
    * `run_bind_eq_ok`, which takes a successful run apart
    * `iterate_eq_ok_of_measure`, on the rounds that suffice
-/

namespace Marginalia

------------------------------------------------------------
-- Ends of Runs
------------------------------------------------------------

variable {ε σ α β : Type}

/-
  How a run ends: with a result and a state for which the
  first predicate holds, or with an error and a state for
  which the second does.
-/
def Ends
    (post : α → σ → Prop)
    (fail : ε → σ → Prop) :
    EStateM.Result ε σ α → Prop
  | .ok result state => post result state
  | .error error state => fail error state

section Rules

variable {post post' : α → σ → Prop}
variable {fail fail' : ε → σ → Prop}

@[simp]
theorem ends_ok
    (result : α)
    (state : σ) :
    Ends post fail (.ok result state) ↔ post result state :=
  Iff.rfl

@[simp]
theorem ends_error
    (error : ε)
    (state : σ) :
    Ends post fail (.error error state : EStateM.Result ε σ α) ↔
      fail error state :=
  Iff.rfl

/- How a run is known to end is how it ends. -/
theorem Ends.of_ok
    {run : EStateM.Result ε σ α}
    (hRun : Ends post fail run)
    {result : α}
    {state : σ}
    (hEnd : run = .ok result state) :
    post result state := by
  rw [hEnd] at hRun
  exact hRun

theorem Ends.of_error
    {run : EStateM.Result ε σ α}
    (hRun : Ends post fail run)
    {error : ε}
    {state : σ}
    (hEnd : run = .error error state) :
    fail error state := by
  rw [hEnd] at hRun
  exact hRun

/- What is known of an end may be weakened. -/
theorem Ends.imp
    {run : EStateM.Result ε σ α}
    (hRun : Ends post fail run)
    (hPost : ∀ result state,
      post result state → post' result state)
    (hFail : ∀ error state,
      fail error state → fail' error state) :
    Ends post' fail' run := by
  cases run with
  | ok result state =>
      exact hPost result state hRun
  | error error state =>
      exact hFail error state hRun

/- Two facts about one end hold together. -/
theorem Ends.and
    {run : EStateM.Result ε σ α}
    (hRun : Ends post fail run)
    (hRun' : Ends post' fail' run) :
    Ends
      (fun result state =>
        post result state ∧ post' result state)
      (fun error state =>
        fail error state ∧ fail' error state)
      run := by
  cases run with
  | ok result state =>
      exact ⟨hRun, hRun'⟩
  | error error state =>
      exact ⟨hRun, hRun'⟩

end Rules

------------------------------------------------------------
-- Sequences
------------------------------------------------------------

@[simp]
theorem run_pure
    (result : α)
    (state : σ) :
    (pure result : EStateM ε σ α) state =
      .ok result state :=
  rfl

@[simp]
theorem run_get
    (state : σ) :
    (get : EStateM ε σ σ) state = .ok state state :=
  rfl

@[simp]
theorem run_set
    (next state : σ) :
    (set next : EStateM ε σ PUnit) state = .ok ⟨⟩ next :=
  rfl

@[simp]
theorem run_map
    (change : α → β)
    (action : EStateM ε σ α)
    (state : σ) :
    (change <$> action) state =
      match action state with
      | .ok result state => .ok (change result) state
      | .error error state => .error error state :=
  rfl

/- A sequence goes on where its first action ended. -/
theorem run_bind
    (first : EStateM ε σ α)
    (next : α → EStateM ε σ β)
    (state : σ) :
    (first >>= next) state =
      match first state with
      | .ok result state => next result state
      | .error error state => .error error state :=
  rfl

theorem run_bind_of_ok
    {first : EStateM ε σ α}
    {next : α → EStateM ε σ β}
    {state state' : σ}
    {result : α}
    (hFirst : first state = .ok result state') :
    (first >>= next) state = next result state' := by
  rw [run_bind, hFirst]

/- A sequence succeeds if and only if both of its parts do. -/
theorem run_bind_eq_ok
    {first : EStateM ε σ α}
    {next : α → EStateM ε σ β}
    {state final : σ}
    {result : β} :
    (first >>= next) state = .ok result final ↔
      ∃ middle state',
        first state = .ok middle state' ∧
          next middle state' = .ok result final := by
  rw [run_bind]
  cases first state with
  | ok middle state' =>
      constructor
      · intro hNext
        exact ⟨middle, state', rfl, hNext⟩
      · rintro ⟨_, _, ⟨⟩, hNext⟩
        exact hNext
  | error error state' =>
      simp

/- The rule for sequences. -/
theorem Ends.bind
    {first : EStateM ε σ α}
    {next : α → EStateM ε σ β}
    {state : σ}
    {middle : α → σ → Prop}
    {post : β → σ → Prop}
    {fail : ε → σ → Prop}
    (hFirst : Ends middle fail (first state))
    (hNext : ∀ result state',
      middle result state' →
        Ends post fail (next result state')) :
    Ends post fail ((first >>= next) state) := by
  rw [run_bind]
  cases hEnd : first state with
  | ok result state' =>
      rw [hEnd] at hFirst
      exact hNext result state' hFirst
  | error error state' =>
      rw [hEnd] at hFirst
      exact hFirst

------------------------------------------------------------
-- Repetition
------------------------------------------------------------

/-
  The rule for repetition. Every round keeps an invariant and
  lowers a measure if it asks for another one, so that the
  rounds suffice.
-/
theorem ends_iterate
    {stuck : ε}
    {body : β → EStateM ε σ (Step β α)}
    {post : α → σ → Prop}
    {fail : ε → σ → Prop}
    (inv : β → σ → Prop)
    (measure : σ → Nat)
    (hBody : ∀ round state,
      inv round state →
        Ends
          (fun step state' =>
            match step with
            | .again next =>
                inv next state' ∧
                  measure state' < measure state
            | .done result => post result state')
          fail
          (body round state))
    (rounds : Nat) :
    ∀ round state,
      inv round state →
        measure state < rounds →
          Ends post fail
            (iterate stuck body rounds round state) := by
  induction rounds with
  | zero =>
      intro round state _ hMeasure
      omega
  | succ rounds ih =>
      intro round state hInv hMeasure
      apply (hBody round state hInv).bind
      intro step state' hStep
      cases step with
      | again next =>
          have hLess := hStep.2
          exact ih next state' hStep.1 (by omega)
      | done result =>
          exact hStep

/-
  The same rule where running out of rounds is among the
  errors that may be.
-/
theorem ends_iterate_of_stuck
    {stuck : ε}
    {body : β → EStateM ε σ (Step β α)}
    {post : α → σ → Prop}
    {fail : ε → σ → Prop}
    (inv : β → σ → Prop)
    (hStuck : ∀ round state,
      inv round state → fail stuck state)
    (hBody : ∀ round state,
      inv round state →
        Ends
          (fun step state' =>
            match step with
            | .again next => inv next state'
            | .done result => post result state')
          fail
          (body round state))
    (rounds : Nat) :
    ∀ round state,
      inv round state →
        Ends post fail
          (iterate stuck body rounds round state) := by
  induction rounds with
  | zero =>
      intro round state hInv
      exact hStuck round state hInv
  | succ rounds ih =>
      intro round state hInv
      apply (hBody round state hInv).bind
      intro step state' hStep
      cases step with
      | again next =>
          exact ih next state' hStep
      | done result =>
          exact hStep

/- One more round, when the first one asks for it. -/
theorem iterate_succ_of_again
    {stuck : ε}
    {body : β → EStateM ε σ (Step β α)}
    {rounds : Nat}
    {round next : β}
    {state state' : σ}
    (hBody : body round state = .ok (.again next) state') :
    iterate stuck body (rounds + 1) round state =
      iterate stuck body rounds next state' := by
  rw [iterate, run_bind_of_ok hBody]

/- The last round. -/
theorem iterate_succ_of_done
    {stuck : ε}
    {body : β → EStateM ε σ (Step β α)}
    {rounds : Nat}
    {round : β}
    {result : α}
    {state state' : σ}
    (hBody : body round state = .ok (.done result) state') :
    iterate stuck body (rounds + 1) round state =
      .ok result state' := by
  rw [iterate, run_bind_of_ok hBody]
  rfl

/-
  If no round asks for another one without lowering a
  measure, then the measure bounds the rounds that a
  successful repetition needs.
-/
theorem iterate_eq_ok_of_measure
    {stuck : ε}
    {body : β → EStateM ε σ (Step β α)}
    (measure : σ → Nat)
    (hBody : ∀ round state next state',
      body round state = .ok (.again next) state' →
        measure state' < measure state)
    {rounds : Nat} :
    ∀ {rounds' : Nat} {round : β} {result : α}
      {state final : σ},
      iterate stuck body rounds round state =
          .ok result final →
        measure state < rounds' →
          iterate stuck body rounds' round state =
            .ok result final := by
  induction rounds with
  | zero =>
      intro rounds' round result state final hRun _
      cases hRun
  | succ rounds ih =>
      intro rounds' round result state final hRun hMeasure
      cases rounds' with
      | zero => omega
      | succ rounds' =>
          rcases run_bind_eq_ok.mp hRun with
            ⟨step, state', hStep, hRest⟩
          cases step with
          | again next =>
              have hLess := hBody round state next state' hStep
              rw [iterate_succ_of_again hStep]
              exact ih hRest (by omega)
          | done found =>
              rw [iterate_succ_of_done hStep]
              exact hRest

end Marginalia
