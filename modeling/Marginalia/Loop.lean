/-
  Repetition of an action that ends by its own decision, or
  after a number of rounds.

  Key definitions include:
    * `Step`
    * `iterate`
-/

namespace Marginalia

/- How one round of a loop ends. -/
inductive Step (β α : Type) where
  | again (state : β)
  | done (result : α)

/-
  Repeat an action until it is done, for at most the given
  number of rounds. The given error is the outcome if these
  are not enough.
-/
def iterate
    {ε σ α β : Type}
    (stuck : ε)
    (body : β → EStateM ε σ (Step β α)) :
    Nat → β → EStateM ε σ α
  | 0, _ => throw stuck
  | rounds + 1, state => do
      match ← body state with
      | .again next => iterate stuck body rounds next
      | .done result => return result

end Marginalia
