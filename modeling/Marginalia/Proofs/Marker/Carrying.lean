import Marginalia.Proofs.Carries
import Marginalia.Proofs.Embedding
import Marginalia.Proofs.Literal.Following
import Marginalia.Proofs.Marker.Rounds

/-
  Arguments of a marker are read in the same way where other
  arguments follow them, if the look-aheads find the same.

  Key definitions include:
    * `Marker.LookCarries`
    * `Marker.RawFreeAt`
    * `Marker.Overlays`

  Main statements:
    * `Marker.scanNamedBy_carries`
    * `Marker.nextArgumentBy_carries`
    * `Marker.rounds_carries`
-/

namespace Marginalia

open Cursor (Before NextBefore SettledBefore CommaNext)

variable {tail : List Char}

------------------------------------------------------------
-- Parts of Lines
------------------------------------------------------------

namespace Carries

variable {α β : Type}
variable {pre post : Cursor → Cursor → Prop}

theorem onLine
    {action action' : Scan α}
    (hAction : Carries pre action action' post) :
    Carries pre (liftM action : LineScan α)
      (liftM action' : LineScan α) post := by
  intro first second result state' hPre hRun
  rw [Marker.run_onLine] at hRun ⊢
  cases hFirst : action first with
  | ok value first' =>
      rw [hFirst] at hRun
      cases hRun
      rcases hAction first second _ _ hPre hFirst with
        ⟨second', hSecond, hPost⟩
      rw [hSecond]
      exact ⟨second', rfl, hPost⟩
  | error error first' =>
      rw [hFirst] at hRun
      cases hRun

theorem positionOnLine
    {next next' : Nat → LineScan α}
    (hNext : ∀ start start',
      Carries pre (next start) (next' start') post) :
    Carries pre (liftM (Scan.position : Scan Nat) >>= next)
      (liftM (Scan.position : Scan Nat) >>= next') post := by
  intro first second result state' hPre hRun
  exact hNext first.position second.position first second
    result state' hPre hRun

end Carries

namespace Marker

open Literal

variable {look look' : Scan Bool}

------------------------------------------------------------
-- Values
------------------------------------------------------------

/- At a brace, two look-aheads answer the same. -/
def LookCarries
    (tail : List Char)
    (look look' : Scan Bool) : Prop :=
  Carries (NextBefore tail '{') look look'
    (NextBefore tail '{')

theorem LookCarries.follows
    (hTail : CommaNext tail)
    (hLook : LookCarries tail look look') :
    LookFollows (.before hTail) look look' := by
  have hFollows :
      Follows (Alignment.before hTail).stuck
        (NextBefore tail '{') look look'
        (NextBefore tail '{') :=
    Carries.follows hLook
  apply (hFollows.of_pre fun _ _ h => ⟨h.1, h.2.1⟩).imp
  rintro first second ⟨hBefore, hPeek⟩
  exact ⟨hBefore, hPeek, (hBefore.ahead_of_peek hPeek).2⟩

/- It does not depend on the place whether a value passes. -/
theorem checkBounds_elsewhere
    {parameter : Parameter}
    {value : Value}
    {start : Nat}
    (hBounds : parameter.checkBounds value start = .ok ())
    (start' : Nat) :
    parameter.checkBounds value start' = .ok () := by
  unfold Parameter.checkBounds at hBounds ⊢
  cases hShape : parameter.shape? with
  | none => rfl
  | some shape =>
      rw [hShape] at hBounds
      exact Target.checkBounds_elsewhere hBounds start'

/- Nothing is checked but the value. -/
theorem checkValue_carries
    (parameter? : Option Parameter)
    (value : Value)
    (start start' : Nat) :
    Carries (Before tail) (checkValue parameter? value start)
      (checkValue parameter? value start') (Before tail) := by
  intro first second _ state' hBefore hRun
  rcases checkValue_eq_ok.mp hRun with ⟨rfl, hBounds⟩
  refine ⟨second, ?_, hBefore⟩
  apply checkValue_eq_ok.mpr
  refine ⟨rfl, ?_⟩
  intro parameter hParameter
  exact checkBounds_elsewhere (hBounds parameter hParameter)
    start'

/- Nothing that is declared of the argument is raw text. -/
def RawFreeAt
    (definition? : Option Definition)
    (name : String) : Prop :=
  ∀ definition parameter,
    definition? = some definition →
      definition.parameter? name = some parameter →
        parameter.descriptor.RawFree

theorem scanDeclaredBy_carries
    (hTail : CommaNext tail)
    (hLook : LookCarries tail look look')
    {parameter? : Option Parameter}
    (hRawFree : (declared parameter?).RawFree) :
    Carries (Before tail) (scanDeclaredBy look parameter?)
      (scanDeclaredBy look' parameter?) (Before tail) := by
  have hFill :=
    Descriptor.fillBy_follows (hLook.follows hTail)
      hRawFree .group .dynamic
  have hValue :
      Carries (SettledBefore tail)
        (scanValue
          ((declared parameter?).fillBy look .group .dynamic))
        (scanValue
          ((declared parameter?).fillBy look' .group
            .dynamic))
        (Before tail) :=
    (Follows.collect hFill Value.null).carries.settled
  apply (Carries.skipBlanks hTail).onLine.bind
  intro _
  apply Carries.positionOnLine
  intro start start'
  apply hValue.onLine.bind
  intro value
  apply (checkValue_carries parameter? value start start').bind
  intro _
  exact .result _

variable {text marker : String}
variable {definition? : Option Definition}

theorem scanNamedBy_carries
    (text' : String)
    (hTail : CommaNext tail)
    (hLook : LookCarries tail look look')
    {name : String}
    (hRawFree : RawFreeAt definition? name) :
    Carries (Before tail)
      (scanNamedBy look text marker definition? name)
      (scanNamedBy look' text' marker definition? name)
      (Before tail) := by
  apply Carries.ite
  · intro _
    exact .throw
  · intro _
    unfold findParameter
    cases definition? with
    | none =>
        simp only [pure_bind]
        exact scanDeclaredBy_carries hTail hLook (by decide)
    | some definition =>
        dsimp only
        cases hFound : definition.parameter? name with
        | none =>
            apply Carries.fails
            intro first result state' hRun
            cases hRun
        | some parameter =>
            simp only [pure_bind]
            apply scanDeclaredBy_carries hTail hLook
            exact hRawFree definition parameter rfl hFound

/- A name ends at the sign after it. -/
theorem scanName_carries
    (text' : String)
    (hTail : CommaNext tail) :
    Carries (Before tail) (scanName text) (scanName text')
      (Before tail) := by
  have hTake :
      Carries (Before tail) (Scan.takeWhile isNameChar)
        (Scan.takeWhile isNameChar) (Before tail) := by
    apply Carries.takeWhile hTail
    · intro c hBlank
      unfold isNameChar
      rw [hBlank]
      rfl
    · decide
  apply (Carries.skipBlanks hTail).onLine.bind
  intro _
  apply hTake.settled.onLine.bind
  intro name
  apply (Carries.skipBlanks hTail).onLine.bind
  intro _
  apply (Carries.eat hTail (by decide)
    (by decide)).settled.onLine.bind
  intro found
  apply Carries.ite
  · intro _
    exact .result _
  · intro _
    exact .throw

------------------------------------------------------------
-- Next Arguments
------------------------------------------------------------

/- Where one text has an argument, so has the longer one. -/
theorem nextArgumentBy_carries
    (text' : String)
    (hTail : CommaNext tail)
    (hLook : LookCarries tail look look')
    {first second first' : Cursor}
    {name : String}
    {value : Value}
    (hRawFree : RawFreeAt definition? name)
    (hBefore : Before tail first second)
    (hRun :
      nextArgumentBy look text marker definition? first =
        .ok (some (name, value)) first') :
    ∃ second',
      nextArgumentBy look' text' marker definition? second =
          .ok (some (name, value)) second' ∧
        Before tail first' second' := by
  rcases nextArgumentBy_eq_some.mp hRun with
    ⟨hPeek, place, hName, hValue⟩
  have hBlanks := hBefore.skipBlanks.before
  have hNext := (hBlanks.ahead_of_peek hPeek).2
  rcases scanName_carries text' hTail _ _ _ _
      (hBlanks.advance hPeek) hName with
    ⟨place', hName', hPlace⟩
  rcases scanNamedBy_carries text' hTail hLook hRawFree _ _ _ _
      hPlace hValue with
    ⟨second', hValue', hAfter⟩
  exact ⟨second',
    nextArgumentBy_eq_some.mpr
      ⟨hNext, place', hName', hValue'⟩,
    hAfter⟩

------------------------------------------------------------
-- Rounds
------------------------------------------------------------

/- The second map is the first one over a third. -/
def Overlays
    (base read read' : Arguments) : Prop :=
  ∀ name,
    read'.get? name = (read.get? name).or (base.get? name)

theorem Overlays.insert
    {base read read' : Arguments}
    (hOverlays : Overlays base read read')
    (name : String)
    (value : Value) :
    Overlays base (read.insert name value)
      (read'.insert name value) := by
  intro other
  rw [Entries.get?_insert, Entries.get?_insert]
  by_cases hName : other = name
  · rw [if_pos hName, if_pos hName, Option.some_or]
  · rw [if_neg hName, if_neg hName]
    exact hOverlays other

/-
  The arguments of one text are read from the longer one, and
  then what is left there is the tail. The induction is on the
  rounds in the one text.
-/
theorem rounds_carries
    (text' : String)
    (hTail : CommaNext tail)
    (hLook : LookCarries tail look look')
    {base read result read' : Arguments}
    {first first' second : Cursor}
    {rounds : Nat}
    (hRun :
      argumentRounds
          (nextArgumentBy look text marker definition?)
          rounds read first =
        .ok result first')
    (hRawFree : ∀ name,
      (result.get? name).isSome → RawFreeAt definition? name)
    (hBefore : Before tail first second)
    (hOverlays : Overlays base read read') :
    ∃ count result' second',
      Overlays base result result' ∧
        second'.skipBlanks.ahead = Text.trimStart tail ∧
          ∀ more,
            argumentRounds
                (nextArgumentBy look' text' marker
                  definition?)
                (more + count) read' second =
              argumentRounds
                (nextArgumentBy look' text' marker
                  definition?)
                more result' second' := by
  induction rounds generalizing read read' first second with
  | zero => cases hRun
  | succ rounds ih =>
      rcases argumentRounds_succ_eq_ok.mp hRun with
        ⟨hNext, rfl⟩ | ⟨name, value, place, hNext, hRest⟩
      · have hEnd := (nextArgumentBy_eq_none.mp hNext).1
        rcases hBefore.skipBlanks with
          ⟨hMore, _⟩ | ⟨_, hAhead⟩
        · exact absurd hEnd hMore
        · exact ⟨0, read', second, hOverlays, hAhead,
            fun _ => rfl⟩
      · have hName : (result.get? name).isSome := by
          apply isSome_get?_of_rounds hRest
          rw [Entries.get?_insert, if_pos rfl]
          rfl
        rcases nextArgumentBy_carries text' hTail hLook
            (hRawFree name hName) hBefore hNext with
          ⟨place', hNext', hBefore'⟩
        rcases ih hRest hBefore'
            (hOverlays.insert name value) with
          ⟨count, result', final, hResult, hFinal, hMore⟩
        refine ⟨count + 1, result', final, hResult, hFinal,
          ?_⟩
        intro more
        rw [← Nat.add_assoc, argumentRounds_of_some hNext']
        exact hMore more

end Marker

end Marginalia
