import Marginalia.Literal.Strings
import Marginalia.Target

/-
  Reading into a destination: actions that move ahead in a
  text and write what they read.

  Key definitions include:
    * `Filling`
    * `Fill`
    * `Scan.fill`
    * `Fill.store`
    * `Fill.within`
    * `Fill.group`
    * `Fill.collect`
-/

namespace Marginalia

/-
  An action on a place in a text and a destination. What was
  read and written before a failure is not taken back.
-/
abbrev Filling (σ δ : Type) : Type → Type :=
  EStateM ReadError (σ × δ)

/- An action on a cursor and a destination. -/
abbrev Fill (δ : Type) : Type → Type :=
  Filling Cursor δ

/- Only read. -/
def Scan.fill
    {σ δ α : Type}
    (action : Reading σ α) : Filling σ δ α :=
  fun (place, content) =>
    match action place with
    | .ok result place => .ok result (place, content)
    | .error error place => .error error (place, content)

instance {σ δ : Type} :
    MonadLift (Reading σ) (Filling σ δ) :=
  ⟨Scan.fill⟩

/-
  The reason why a literal is not read when the destination
  does not take it. The literal begins at the given place.
-/
def Rejection.error
    (rejection : Rejection)
    (literal : String)
    (start : Nat) : ReadError :=
  match rejection with
  | .overflow type => .overflow literal (.word type) start
  | .mismatch destination offer =>
      .mismatch destination offer start

namespace Fill

variable {σ δ α : Type}

/- Only write; a literal at the given place is the source. -/
def store
    (action : Write δ α)
    (literal : String)
    (start : Nat) : Filling σ δ α :=
  fun (place, content) =>
    match action content with
    | .ok result content => .ok result (place, content)
    | .error rejection content =>
        .error (rejection.error literal start)
          (place, content)

/- Read into a new place inside the destination. -/
def within
    {target : Target}
    (child : Child target)
    (action : Filling σ child.inner.Content α) :
    Filling σ target.Content α :=
  fun (place, _) =>
    match action (place, child.inner.fresh) with
    | .ok result (place, content) =>
        .ok result (place, child.put content)
    | .error error (place, content) =>
        .error error (place, child.put content)

/- Read into a destination of its own and return that. -/
def collect
    (content : δ)
    (action : Filling σ δ Unit) : Reading σ δ :=
  fun place =>
    match action (place, content) with
    | .ok _ (place, content) => .ok content place
    | .error error (place, _) => .error error place

variable [Reader σ]

/-
  Repeat an action while it says so. Every round but the last
  has to consume a character.
-/
def loopWhile
    (body : Filling σ δ Bool) : Filling σ δ Unit := do
  let (place, _) ← get
  iterate (β := Unit) .exhausted
    (fun _ => do
      if ← body then
        return .again ()
      else
        return .done ())
    (Reader.left place + 1) ()

/-
  Read a group in braces: nothing, or elements with commas
  between them.
-/
def group
    (element : Filling σ δ Unit) : Filling σ δ Unit := do
  let start ← Scan.position (σ := σ)
  Scan.skip (σ := σ)
  Scan.skipBlanks (σ := σ)
  if ← Scan.eat (σ := σ) '}' then
    return
  loopWhile do
    Scan.skipBlanks (σ := σ)
    if (← Scan.peek (σ := σ)).isNone then
      throw (.unterminated .group start)
    element
    Scan.skipBlanks (σ := σ)
    match ← Scan.peek (σ := σ) with
    | some ',' =>
        Scan.skip (σ := σ)
        return true
    | some '}' =>
        Scan.skip (σ := σ)
        return false
    | none => throw (.unterminated .group start)
    | some _ =>
        let place ← Scan.position (σ := σ)
        Scan.unexpected (σ := σ) .commaOrBrace place

end Fill

end Marginalia
