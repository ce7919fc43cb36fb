import Marginalia.Marker.Line
import Marginalia.Proofs.Literal.LookAhead

/-
  Marker lines with a look-ahead of choice, in the form that
  proofs use: the value of an argument is read first and then
  put under its name.

  Key definitions include:
    * `Marker.scanNamedBy`
    * `Marker.nextArgumentBy`
    * `Marker.scanArgumentsBy`
    * `Marker.ofLineBy`

  Main statements:
    * `Marker.complete_eq_ok_iff`
    * `Marker.complete_eq_error_iff`
    * `Marker.ofLineBy_seesColon`
-/

namespace Marginalia

namespace Marker

open Literal

/- An error of a part is one of the line. -/
theorem run_onLine
    {α : Type}
    (action : Scan α)
    (cursor : Cursor) :
    (liftM action : LineScan α) cursor =
      match action cursor with
      | .ok result cursor => .ok result cursor
      | .error error cursor =>
          .error (.literal error) cursor :=
  rfl

theorem run_eat
    (c : Char)
    (cursor : Cursor) :
    (liftM (Scan.eat c : Scan Bool) : LineScan Bool) cursor =
      if cursor.peek = some c then
        .ok true cursor.advance
      else
        .ok false cursor := by
  rw [run_onLine, Scan.run_eat]
  by_cases hPeek : cursor.peek = some c
  · rw [if_pos hPeek, if_pos hPeek]
  · rw [if_neg hPeek, if_neg hPeek]

------------------------------------------------------------
-- Single Arguments
------------------------------------------------------------

/- What is declared of the named argument. -/
def findParameter
    (marker : String)
    (definition? : Option Definition)
    (name : String) : LineScan (Option Parameter) :=
  match definition? with
  | none => pure none
  | some definition =>
      match definition.parameter? name with
      | some parameter => pure (some parameter)
      | none => throw (.unknownArgument marker name)

/- An argument of which nothing is declared may be any value. -/
def declared : Option Parameter → Descriptor
  | some parameter => parameter.descriptor
  | none => .plain .any

/- Check a value against what is declared. -/
def checkValue
    (parameter? : Option Parameter)
    (value : Value)
    (start : Nat) : LineScan Unit :=
  match parameter? with
  | none => pure ()
  | some parameter =>
      match parameter.checkBounds value start with
      | .ok _ => pure ()
      | .error error => throw (.literal error)

/- The value that an action reads and writes. -/
def scanValue
    (action : Fill Value Unit) : Scan Value :=
  Fill.collect Value.null action

/- Read a value of which something may be declared. -/
def scanDeclaredBy
    (look : Scan Bool)
    (parameter? : Option Parameter) : LineScan Value := do
  Scan.skipBlanks (σ := Cursor)
  let start ← Scan.position (σ := Cursor)
  let value ←
    scanValue
      ((declared parameter?).fillBy look .group .dynamic)
  checkValue parameter? value start
  return value

/- Read the value of the named argument. -/
def scanNamedBy
    (look : Scan Bool)
    (text marker : String)
    (definition? : Option Definition)
    (name : String) : LineScan Value := do
  if name.isEmpty then
    throw (.malformed text .emptyArgument)
  else
    let parameter? ← findParameter marker definition? name
    scanDeclaredBy look parameter?

theorem scanArgument_eq
    (text marker : String)
    (definition? : Option Definition)
    (read : Arguments)
    (name : String) :
    scanArgument text marker definition? read name = (do
      let value ←
        scanNamedBy seesColon text marker definition? name
      return read.insert name value) := by
  unfold scanArgument scanNamedBy findParameter
    scanDeclaredBy scanValue
  simp only [Descriptor.fillBy_seesColon]
  by_cases hName : name.isEmpty = true
  · rw [if_pos hName, if_pos hName]
    rfl
  · rw [if_neg hName, if_neg hName]
    cases definition? with
    | none =>
        simp only [pure_bind, bind_assoc, declared, checkValue]
    | some definition =>
        dsimp only
        cases definition.parameter? name with
        | none => rfl
        | some parameter =>
            simp only [pure_bind, bind_assoc, declared,
              checkValue]
            congr 1
            funext _
            congr 1
            funext start
            congr 1
            funext value
            cases parameter.checkBounds value start with
            | ok _ => rfl
            | error error => rfl

section Runs

variable {look : Scan Bool}
variable {text marker : String}
variable {definition? : Option Definition}
variable {parameter? : Option Parameter}
variable {name : String}
variable {value : Value}
variable {cursor place : Cursor}

/- A check does not move, and passes what is in bounds. -/
theorem checkValue_eq_ok
    {start : Nat} :
    checkValue parameter? value start cursor =
        .ok () place ↔
      place = cursor ∧
        ∀ parameter, parameter? = some parameter →
          parameter.checkBounds value start = .ok () := by
  unfold checkValue
  cases parameter? with
  | none =>
      constructor
      · intro hRun
        cases hRun
        exact ⟨rfl, nofun⟩
      · rintro ⟨rfl, _⟩
        rfl
  | some parameter =>
      dsimp only
      cases hBounds : parameter.checkBounds value start with
      | ok _ =>
          constructor
          · intro hRun
            cases hRun
            refine ⟨rfl, ?_⟩
            rintro _ ⟨⟩
            exact hBounds
          · rintro ⟨rfl, _⟩
            rfl
      | error error =>
          constructor
          · intro hRun
            cases hRun
          · rintro ⟨_, hPasses⟩
            have hPass := hPasses parameter rfl
            rw [hBounds] at hPass
            cases hPass

/- A value is read behind blanks and passes the check. -/
theorem scanDeclaredBy_eq_ok :
    scanDeclaredBy look parameter? cursor =
        .ok value place ↔
      scanValue
            ((declared parameter?).fillBy look .group
              .dynamic)
            cursor.skipBlanks =
          .ok value place ∧
        ∀ parameter, parameter? = some parameter →
          parameter.checkBounds value
              cursor.skipBlanks.position =
            .ok () := by
  have hRun :
      scanDeclaredBy look parameter? cursor =
        (do
          let value ←
            scanValue
              ((declared parameter?).fillBy look .group
                .dynamic)
          checkValue parameter? value
            cursor.skipBlanks.position
          return value : LineScan Value) cursor.skipBlanks :=
    rfl
  rw [hRun, run_bind, run_onLine]
  cases hValue :
    scanValue
      ((declared parameter?).fillBy look .group .dynamic)
      cursor.skipBlanks with
  | error error place' => simp
  | ok value' place' =>
      constructor
      · intro hRest
        rcases run_bind_eq_ok.mp hRest with
          ⟨_, last, hCheck, hEnd⟩
        rcases checkValue_eq_ok.mp hCheck with
          ⟨rfl, hBounds⟩
        cases hEnd
        exact ⟨rfl, hBounds⟩
      · rintro ⟨⟨⟩, hBounds⟩
        have hCheck :
            checkValue parameter? value
                cursor.skipBlanks.position place =
              .ok () place :=
          checkValue_eq_ok.mpr ⟨rfl, hBounds⟩
        dsimp only
        rw [run_bind_of_ok hCheck]
        rfl

/- The error of a check is the error of the argument. -/
theorem scanDeclaredBy_of_refused
    {parameter : Parameter}
    {error : ReadError}
    (hValue :
      scanValue
          (parameter.descriptor.fillBy look .group .dynamic)
          cursor.skipBlanks =
        .ok value place)
    (hBounds :
      parameter.checkBounds value
          cursor.skipBlanks.position =
        .error error) :
    scanDeclaredBy look (some parameter) cursor =
      .error (.literal error) place := by
  have hScan :
      (liftM (scanValue (parameter.descriptor.fillBy look
        .group .dynamic)) : LineScan Value)
          cursor.skipBlanks =
        .ok value place := by
    rw [run_onLine, hValue]
  have hRun :
      scanDeclaredBy look (some parameter) cursor =
        (do
          let value ←
            scanValue
              (parameter.descriptor.fillBy look .group
                .dynamic)
          checkValue (some parameter) value
            cursor.skipBlanks.position
          return value : LineScan Value) cursor.skipBlanks :=
    rfl
  rw [hRun, run_bind_of_ok hScan]
  unfold checkValue
  dsimp only
  rw [hBounds]
  rfl

/- Without a definition, nothing is declared. -/
theorem scanNamedBy_of_none
    (hName : name ≠ "") :
    scanNamedBy look text marker none name =
      scanDeclaredBy look none := by
  have hFilled : ¬ name.isEmpty = true := by
    simpa using hName
  unfold scanNamedBy
  rw [if_neg hFilled]
  rfl

theorem scanNamedBy_of_declared
    {definition : Definition}
    {parameter : Parameter}
    (hName : name ≠ "")
    (hFound : definition.parameter? name = some parameter) :
    scanNamedBy look text marker (some definition) name =
      scanDeclaredBy look (some parameter) := by
  have hFilled : ¬ name.isEmpty = true := by
    simpa using hName
  unfold scanNamedBy findParameter
  rw [if_neg hFilled]
  dsimp only
  rw [hFound]
  rfl

/- What is read is declared, unless there is no definition. -/
theorem scanNamedBy_eq_ok
    (hRun :
      scanNamedBy look text marker definition? name cursor =
        .ok value place) :
    name ≠ "" ∧
      ∃ parameter?,
        scanDeclaredBy look parameter? cursor =
            .ok value place ∧
          (definition? = none ∧ parameter? = none ∨
            ∃ definition parameter,
              definition? = some definition ∧
                definition.parameter? name =
                    some parameter ∧
                  parameter? = some parameter) := by
  have hName : name ≠ "" := by
    rintro rfl
    cases hRun
  refine ⟨hName, ?_⟩
  cases definition? with
  | none =>
      rw [scanNamedBy_of_none hName] at hRun
      exact ⟨none, hRun, Or.inl ⟨rfl, rfl⟩⟩
  | some definition =>
      cases hFound : definition.parameter? name with
      | none =>
          have hFilled : ¬ name.isEmpty = true := by
            simpa using hName
          unfold scanNamedBy findParameter at hRun
          rw [if_neg hFilled] at hRun
          dsimp only at hRun
          rw [hFound] at hRun
          cases hRun
      | some parameter =>
          rw [scanNamedBy_of_declared hName hFound] at hRun
          exact ⟨some parameter, hRun,
            Or.inr ⟨definition, parameter, rfl, hFound, rfl⟩⟩

end Runs

------------------------------------------------------------
-- All Arguments
------------------------------------------------------------

/- Read an argument after a comma. -/
def listedArgumentBy
    (look : Scan Bool)
    (text marker : String)
    (definition? : Option Definition) :
    LineScan (Option (String × Value)) := do
  if ← Scan.eat (σ := Cursor) ',' then
    let name ← scanName text
    let value ← scanNamedBy look text marker definition? name
    return some (name, value)
  else
    Scan.unexpectedNext (σ := Cursor) .commaBetweenArguments

/- Read the next argument, if there is one. -/
def nextArgumentBy
    (look : Scan Bool)
    (text marker : String)
    (definition? : Option Definition) :
    LineScan (Option (String × Value)) := do
  Scan.skipBlanks (σ := Cursor)
  if (← get).atEnd then
    return none
  else
    listedArgumentBy look text marker definition?

/- Put the next argument to those that were read so far. -/
def argumentRound
    (next : LineScan (Option (String × Value)))
    (read : Arguments) :
    LineScan (Step Arguments Arguments) := do
  match ← next with
  | some (name, value) =>
      return .again (read.insert name value)
  | none => return .done read

/- Read the first argument and all that follow it. -/
def scanArgumentsBy
    (look : Scan Bool)
    (text marker : String)
    (definition? : Option Definition)
    (first : String) : LineScan Arguments := do
  let value ← scanNamedBy look text marker definition? first
  let cursor ← get
  iterate (.literal .exhausted)
    (argumentRound
      (nextArgumentBy look text marker definition?))
    (cursor.ahead.length + 1)
    (Entries.empty.insert first value)

theorem scanArguments_eq
    (text marker : String)
    (definition? : Option Definition)
    (first : String) :
    scanArguments text marker definition? first =
      scanArgumentsBy seesColon text marker definition?
        first := by
  have hRound :
      ∀ read : Arguments,
        (do
          Scan.skipBlanks (σ := Cursor)
          if (← get).atEnd then
            return .done read
          unless ← Scan.eat (σ := Cursor) ',' do
            Scan.unexpectedNext (σ := Cursor) (α := Unit)
              .commaBetweenArguments
          let name ← scanName text
          return .again
            (← scanArgument text marker definition?
              read name) :
          LineScan (Step Arguments Arguments)) =
            argumentRound
              (nextArgumentBy seesColon text marker
                definition?)
              read := by
    intro read
    unfold argumentRound nextArgumentBy listedArgumentBy
    simp only [scanArgument_eq, bind_assoc, pure_bind]
    congr 1
    funext _
    congr 1
    funext cursor
    by_cases hEnd : cursor.atEnd = true
    · rw [if_pos hEnd, if_pos hEnd]
      rfl
    · rw [if_neg hEnd, if_neg hEnd, bind_assoc]
      congr 1
      funext eaten
      cases eaten with
      | true =>
          rw [if_pos rfl, if_pos rfl]
          simp only [bind_assoc, pure_bind]
      | false =>
          rw [if_neg Bool.false_ne_true,
            if_neg Bool.false_ne_true]
          rfl
  unfold scanArguments scanArgumentsBy
  simp only [hRound]
  simp only [scanArgument_eq, bind_assoc, pure_bind]

------------------------------------------------------------
-- Lines
------------------------------------------------------------

/- Read the arguments, of which the first may have a name. -/
def readArgumentsBy
    (look : Scan Bool)
    (text marker : String)
    (definition? : Option Definition) :
    Option String → LineScan Arguments
  | some first => do
      Scan.skip (σ := Cursor)
      scanArgumentsBy look text marker definition? first
  | none => scanNoArguments text

/- The marker, if all that it requires has been read. -/
def complete
    (text marker : String)
    (definition? : Option Definition) :
    EStateM.Result MarkerError Cursor Arguments →
      Except MarkerError Marker
  | .error error _ => throw error
  | .ok read _ =>
      match missing? definition? read with
      | some parameter =>
          throw (.missingArgument marker parameter.name)
      | none => return ⟨marker, read, .nowhere, text⟩

section Complete

variable {text marker : String}
variable {definition? : Option Definition}
variable {run : EStateM.Result MarkerError Cursor Arguments}

/- A marker has what was read, if that is all it requires. -/
theorem complete_eq_ok_iff
    {found : Marker} :
    complete text marker definition? run = .ok found ↔
      ∃ read place,
        run = .ok read place ∧
          missing? definition? read = none ∧
            found = ⟨marker, read, .nowhere, text⟩ := by
  constructor
  · intro hComplete
    cases run with
    | error error place => cases hComplete
    | ok read place =>
        unfold complete at hComplete
        dsimp only at hComplete
        split at hComplete
        · cases hComplete
        · rename_i hMissing
          cases hComplete
          exact ⟨read, place, rfl, hMissing, rfl⟩
  · rintro ⟨read, place, rfl, hMissing, rfl⟩
    unfold complete
    dsimp only
    rw [hMissing]
    rfl

/- It is refused as its arguments are, or one is missing. -/
theorem complete_eq_error_iff
    {error : MarkerError} :
    complete text marker definition? run = .error error ↔
      (∃ place, run = .error error place) ∨
        ∃ read place parameter,
          run = .ok read place ∧
            missing? definition? read = some parameter ∧
              error =
                .missingArgument marker parameter.name := by
  constructor
  · intro hComplete
    cases run with
    | error error place =>
        cases hComplete
        exact Or.inl ⟨place, rfl⟩
    | ok read place =>
        unfold complete at hComplete
        dsimp only at hComplete
        split at hComplete
        · rename_i parameter hMissing
          cases hComplete
          exact Or.inr
            ⟨read, place, parameter, rfl, hMissing, rfl⟩
        · cases hComplete
  · rintro (⟨place, rfl⟩ |
      ⟨read, place, parameter, rfl, hMissing, rfl⟩)
    · rfl
    · unfold complete
      dsimp only
      rw [hMissing]
      rfl

end Complete

/- The marker that a line denotes, with a look-ahead. -/
def ofLineBy
    (look : Scan Bool)
    (registry : Registry)
    (line : String) : Except MarkerError Marker :=
  let chars := Text.trim line.toList
  let text := String.ofList chars
  match nameToken? chars with
  | none => throw (.malformed text .noName)
  | some token =>
      let cursor := ((Cursor.ofChars chars).span isNameChar).2
      let head :=
        splitHead registry token (cursor.peek = some '=')
      let definition? := registry.lookup? head.1
      complete text head.1 definition?
        (readArgumentsBy look text head.1 definition? head.2
          cursor)

/- The look-ahead that lines have is the one of groups. -/
theorem ofLineBy_seesColon
    (registry : Registry)
    (line : String) :
    ofLineBy seesColon registry line =
      ofLine registry line := by
  unfold ofLineBy ofLine readArgumentsBy
  simp only [← scanArguments_eq]
  cases nameToken? (Text.trim line.toList) with
  | none => rfl
  | some token =>
      dsimp only
      generalize splitHead registry token _ = head
      rcases head with ⟨marker, first?⟩
      cases first? with
      | none => rfl
      | some first => rfl

end Marker

end Marginalia
