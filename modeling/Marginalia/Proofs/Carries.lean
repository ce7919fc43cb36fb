import Marginalia.Proofs.Before

/-
  Successful runs that are carried over to a text that goes
  on where the first one ends.

  Key definitions include:
    * `Carries`

  Main statements:
    * the rules for sequences
    * `Follows.carries`
-/

namespace Marginalia

variable {ε σ α β δ : Type}

------------------------------------------------------------
-- Pairs of Actions
------------------------------------------------------------

/-
  Whenever the first action succeeds, the second one does so
  with the same result. Nothing is said of failures.
-/
def Carries
    (pre : σ → σ → Prop)
    (action action' : EStateM ε σ α)
    (post : σ → σ → Prop) : Prop :=
  ∀ state other result state',
    pre state other →
      action state = .ok result state' →
        ∃ other',
          action' other = .ok result other' ∧
            post state' other'

namespace Carries

variable {pre mid post : σ → σ → Prop}

theorem pure
    (result : α)
    (hPost : ∀ state other,
      pre state other → post state other) :
    Carries pre (Pure.pure result : EStateM ε σ α)
      (Pure.pure result) post := by
  intro state other _ _ hPre hRun
  cases hRun
  exact ⟨other, rfl, hPost state other hPre⟩

/- There is nothing to carry over from a failure. -/
theorem fails
    {action action' : EStateM ε σ α}
    (hFails : ∀ state result state',
      action state ≠ .ok result state') :
    Carries pre action action' post := by
  intro state other result state' _ hRun
  exact absurd hRun (hFails state result state')

theorem throw
    {error : ε}
    {action' : EStateM ε σ α} :
    Carries pre (MonadExcept.throw error) action' post := by
  apply fails
  intro state result state' hRun
  cases hRun

theorem result
    (result : α) :
    Carries post (Pure.pure result : EStateM ε σ α)
      (Pure.pure result) post :=
  pure result fun _ _ hPost => hPost

/- More may be known of the states. -/
theorem of_pre
    {pre' : σ → σ → Prop}
    {action action' : EStateM ε σ α}
    (hAction : Carries pre action action' post)
    (hPre : ∀ state other,
      pre' state other → pre state other) :
    Carries pre' action action' post := by
  intro state other result state' hRel hRun
  exact hAction state other result state'
    (hPre state other hRel) hRun

theorem bind
    {first first' : EStateM ε σ α}
    {next next' : α → EStateM ε σ β}
    (hFirst : Carries pre first first' mid)
    (hNext : ∀ result,
      Carries mid (next result) (next' result) post) :
    Carries pre (first >>= next) (first' >>= next')
      post := by
  intro state other result final hPre hRun
  rcases run_bind_eq_ok.mp hRun with
    ⟨middle, state', hStart, hRest⟩
  rcases hFirst state other middle state' hPre hStart with
    ⟨other', hStart', hMid⟩
  rcases hNext middle state' other' result final hMid hRest
    with ⟨final', hRest', hPost⟩
  refine ⟨final', ?_, hPost⟩
  rw [run_bind_of_ok hStart', hRest']

theorem ite
    {c : Prop}
    [Decidable c]
    {first first' second second' : EStateM ε σ α}
    (hTrue : c → Carries pre first first' post)
    (hFalse : ¬ c → Carries pre second second' post) :
    Carries pre (if c then first else second)
      (if c then first' else second') post := by
  by_cases hc : c
  · rw [if_pos hc, if_pos hc]
    exact hTrue hc
  · rw [if_neg hc, if_neg hc]
    exact hFalse hc

end Carries

------------------------------------------------------------
-- Reading
------------------------------------------------------------

open Cursor (Before SettledBefore NextBefore CommaNext)

variable {tail : List Char}
variable {pre post : σ → σ → Prop}

/- The longer text does not lack anything. -/
theorem Follows.carries
    {hTail : CommaNext tail}
    {action action' : EStateM ReadError σ α}
    (hFollows :
      Follows (Alignment.before hTail).stuck pre action
        action' post) :
    Carries pre action action' post := by
  intro state other result state' hPre hRun
  have hEnds := hFollows state other result state' hPre hRun
  cases hOther : action' other with
  | ok result' other' =>
      rw [hOther] at hEnds
      rw [hEnds.1]
      exact ⟨other', rfl, hEnds.2⟩
  | error error other' =>
      rw [hOther] at hEnds
      exact hEnds.1.elim

/- What is carried over is followed. -/
theorem Carries.follows
    {stuck : ε → Prop}
    {action action' : EStateM ε σ α}
    (hCarries : Carries pre action action' post) :
    Follows stuck pre action action' post := by
  intro state other result state' hPre hRun
  rcases hCarries state other result state' hPre hRun with
    ⟨other', hOther, hPost⟩
  rw [hOther]
  exact ⟨rfl, hPost⟩

namespace Carries

variable {pre post : Cursor → Cursor → Prop}

/- Where blanks have been passed, as much can be read. -/
theorem settled
    {action action' : EStateM ε Cursor α}
    (hAction :
      Carries (Before tail) action action' post) :
    Carries (SettledBefore tail) action action' post :=
  hAction.of_pre fun _ _ hSettled => hSettled.before

theorem skipBlanks
    (hTail : CommaNext tail) :
    Carries (Before tail) Scan.skipBlanks Scan.skipBlanks
      (SettledBefore tail) :=
  (Follows.skipBlanks (A := .before hTail)).carries

/- Neither blanks nor commas are part of the run. -/
theorem takeWhile
    {p : Char → Bool}
    (hTail : CommaNext tail)
    (hBlank : ∀ c, Text.isBlank c = true → p c = false)
    (hComma : p ',' = false) :
    Carries (Before tail) (Scan.takeWhile p)
      (Scan.takeWhile p) (Before tail) :=
  (Follows.takeWhile (A := .before hTail) hBlank
    hComma).carries

theorem eat
    {c : Char}
    (hTail : CommaNext tail)
    (hBlank : Text.isBlank c = false)
    (hComma : c ≠ ',') :
    Carries (Before tail) (Scan.eat c) (Scan.eat c)
      (Before tail) :=
  (Follows.eat (A := .before hTail) hBlank hComma).carries

end Carries

end Marginalia
