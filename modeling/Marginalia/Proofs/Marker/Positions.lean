import Marginalia.Proofs.Embedding
import Marginalia.Proofs.Literal.Positions
import Marginalia.Proofs.Marker.Forms
import Marginalia.Proofs.Shape.Positions

/-
  The errors in the arguments of a marker line lie in the
  line, without the blanks at its ends. With this, the errors
  of all readers are known to lie in the text that is read.

  Key definitions include:
    * `MarkerError.PointsInto`

  Main statements:
    * `Marker.readArgumentsBy_stays`
    * `Marker.ofLine_pointsInto`
    * `errors_point_into_text`
-/

namespace Marginalia

open ReadError (Pinpoints)

variable {α β : Type}
variable {text : List Char}

/- If a literal is the reason, its error is in the text. -/
def MarkerError.PointsInto
    (text : List Char)
    (error : MarkerError) : Prop :=
  ∀ reason,
    error = .literal reason → reason.PointsInto text

open MarkerError (PointsInto)

------------------------------------------------------------
-- Actions on a Line
------------------------------------------------------------

namespace Stays

/- A part of a line is in the text of the line. -/
theorem onLine
    {action : Scan α}
    (hAction : Stays id Pinpoints text action) :
    Stays id PointsInto text (liftM action : LineScan α) := by
  intro cursor hChars
  have hEnds := hAction cursor hChars
  unfold StaysFrom at hEnds ⊢
  rw [Marker.run_onLine]
  cases hRun : action cursor with
  | ok result place =>
      rw [hRun] at hEnds
      exact hEnds
  | error error place =>
      rw [hRun] at hEnds
      rintro _ ⟨⟩
      exact hEnds.pointsInto

theorem positionOnLine
    {next : Nat → LineScan α}
    (hNext : ∀ start,
      Text.IsPlace text start →
        Stays id PointsInto text (next start)) :
    Stays id PointsInto text
      (liftM (Scan.position : Scan Nat) >>= next) := by
  intro cursor hChars
  exact hNext _ (.of_chars hChars) cursor hChars

end Stays

namespace Marker

------------------------------------------------------------
-- Arguments
------------------------------------------------------------

/- A check reports the place that it is told. -/
theorem pointsInto_of_checkBounds
    {parameter : Parameter}
    {value : Value}
    {start : Nat}
    {error : ReadError}
    (hStart : Text.IsPlace text start)
    (hError :
      parameter.checkBounds value start = .error error) :
    error.PointsInto text := by
  unfold Parameter.checkBounds at hError
  split at hError
  · rename_i shape _
    rcases Target.checkBounds_uniform shape value with
      hPasses | ⟨literal, capacity, hFails⟩
    · rw [hPasses start] at hError
      cases hError
    · rw [hFails start] at hError
      cases hError
      rintro _ ⟨⟩
      exact hStart
  · cases hError

theorem checkValue_stays
    {start : Nat}
    (hStart : Text.IsPlace text start)
    (parameter? : Option Parameter)
    (value : Value) :
    Stays id PointsInto text
      (checkValue parameter? value start) := by
  unfold checkValue
  split
  · exact .pure ()
  · split
    · exact .pure ()
    · rename_i hError
      refine .throw ?_
      rintro _ ⟨⟩
      exact pointsInto_of_checkBounds hStart hError

theorem scanDeclaredBy_stays
    (parameter? : Option Parameter) :
    Stays id PointsInto text
      (scanDeclaredBy Literal.seesColon parameter?) := by
  unfold scanDeclaredBy scanValue
  rw [Descriptor.fillBy_seesColon]
  apply Stays.skipBlanks.onLine.bind
  intro _
  refine .positionOnLine fun start hStart => ?_
  have hFill :
      Stays Prod.fst Pinpoints text
        ((declared parameter?).fill .group .dynamic) :=
    (declared parameter?).fill_stays .group
  apply (Stays.collect Value.null hFill).onLine.bind
  intro value
  exact (checkValue_stays hStart parameter? value).bind
    fun _ => .pure value

variable {line marker : String}
variable {definition? : Option Definition}

theorem scanNamedBy_stays
    (name : String) :
    Stays id PointsInto text
      (scanNamedBy Literal.seesColon line marker definition?
        name) := by
  refine .ite (.throw nofun) ?_
  have hFind :
      Stays id PointsInto text
        (findParameter marker definition? name) := by
    unfold findParameter
    split
    · exact .pure none
    · split
      · exact .pure _
      · exact .throw nofun
  exact hFind.bind fun parameter? =>
    scanDeclaredBy_stays parameter?

theorem scanName_stays :
    Stays id PointsInto text (scanName line) := by
  apply Stays.skipBlanks.onLine.bind
  intro _
  apply (Stays.takeWhile _).onLine.bind
  intro name
  apply Stays.skipBlanks.onLine.bind
  intro _
  apply (Stays.eat '=').onLine.bind
  intro eaten
  exact .ite (.pure _) (.throw nofun)

theorem nextArgumentBy_stays :
    Stays id PointsInto text
      (nextArgumentBy Literal.seesColon line marker
        definition?) := by
  apply Stays.skipBlanks.onLine.bind
  intro _
  apply Stays.get.bind
  intro cursor
  refine .ite (.pure none) ?_
  apply (Stays.eat ',').onLine.bind
  intro eaten
  refine .ite ?_ ?_
  · apply scanName_stays.bind
    intro name
    exact (scanNamedBy_stays name).bind fun _ => .pure _
  · exact .onLine (.unexpectedNext _)

/- All arguments are read in the line. -/
theorem readArgumentsBy_stays
    (first? : Option String) :
    Stays id PointsInto text
      (readArgumentsBy Literal.seesColon line marker
        definition? first?) := by
  cases first? with
  | none =>
      apply Stays.skipBlanks.onLine.bind
      intro _
      apply Stays.get.bind
      intro cursor
      exact .ite (.pure _) (.throw nofun)
  | some first =>
      apply Stays.skip.onLine.bind
      intro _
      apply (scanNamedBy_stays first).bind
      intro value
      apply Stays.get.bind
      intro cursor
      refine .iterate ?_ (fun read => ?_) _ _
      · rintro _ ⟨⟩
        exact nofun
      · apply nextArgumentBy_stays.bind
        intro argument?
        cases argument? with
        | none => exact .pure _
        | some argument => exact .pure _

------------------------------------------------------------
-- Lines
------------------------------------------------------------

/- A literal is the reason only if it could not be read. -/
theorem pointsInto_of_complete
    {run : EStateM.Result MarkerError Cursor Arguments}
    {error : MarkerError}
    (hRun :
      Ends (fun _ _ => True)
        (fun error _ => PointsInto text error) run)
    (hError :
      complete line marker definition? run = .error error) :
    PointsInto text error := by
  rcases complete_eq_error_iff.mp hError with
    ⟨_, rfl⟩ | ⟨_, _, _, _, _, rfl⟩
  · exact hRun
  · exact nofun

/- Whatever is wrong with an argument, it is in the line. -/
theorem ofLine_pointsInto
    {registry : Registry}
    {line : String}
    {error : MarkerError}
    (hError : ofLine registry line = .error error) :
    PointsInto (Text.trim line.toList) error := by
  rw [← ofLineBy_seesColon] at hError
  unfold ofLineBy at hError
  dsimp only at hError
  split at hError
  · cases hError
    exact nofun
  · have hStart :=
      Cursor.Reaches.span
        (Cursor.ofChars (Text.trim line.toList)) isNameChar
    refine pointsInto_of_complete ?_ hError
    exact Ends.imp
      (readArgumentsBy_stays _ _ hStart.chars_eq)
      (fun _ _ _ => trivial) fun _ _ hReason => hReason

end Marker

------------------------------------------------------------
-- All Readers
------------------------------------------------------------

/-
  Errors point into the text. Those of a literal, whatever
  its descriptor, point to what they are about. Those of a
  type are in its text, and those of the arguments of a marker
  in its line without the blanks at the ends.
-/
theorem errors_point_into_text :
    (∀ (descriptor : Descriptor) (literal : String)
        (error : ReadError),
      (descriptor.readValue literal).result =
          .error error →
        error.Pinpoints literal.toList) ∧
      (∀ (source : String) (error : ReadError),
        Shape.ofText source = .error error →
          error.PointsInto source.toList) ∧
        ∀ (registry : Registry) (line : String)
            (error : ReadError),
          Marker.ofLine registry line =
              .error (.literal error) →
            error.PointsInto (Text.trim line.toList) := by
  refine ⟨?_, ?_, ?_⟩
  · intro descriptor literal error hError
    exact Descriptor.readValue_pinpoints hError
  · intro source error hError
    exact Shape.ofText_pointsInto hError
  · intro registry line error hError
    exact Marker.ofLine_pointsInto hError error rfl

/- Errors behind a character that takes two bytes. -/
theorem errors_point_into_text_after_accent :
    (∃ error,
      ((Descriptor.nested .slice (.plain .any)).readValue
          "\x7bé, -99999999999999999999\x7d").result =
          .error error ∧
        error.position? = some 5 ∧
          error.Pinpoints
            "\x7bé, -99999999999999999999\x7d".toList) ∧
      (∃ error,
        Shape.ofText "Vec<é;" = .error error ∧
          error.position? = some 6 ∧
            error.PointsInto "Vec<é;".toList) ∧
        ∃ error,
          Marker.ofLine Registry.empty " +é:A=\x7b1 " =
              .error (.literal error) ∧
            error.position? = some 6 ∧
              error.PointsInto
                (Text.trim " +é:A=\x7b1 ".toList) := by
  have hLiteral :
      ((Descriptor.nested .slice (.plain .any)).readValue
          "\x7bé, -99999999999999999999\x7d").result =
        .error
          (.overflow "-99999999999999999999" (.word .i64)
            5) := by
    rfl
  have hShape :
      Shape.ofText "Vec<é;" =
        .error (.syntaxError (.character '>') ";" 6) := by
    rfl
  have hLine :
      Marker.ofLine Registry.empty " +é:A=\x7b1 " =
        .error (.literal (.unterminated .group 6)) := by
    rfl
  exact
    ⟨⟨_, hLiteral, rfl,
        errors_point_into_text.1 _ _ _ hLiteral⟩,
      ⟨_, hShape, rfl,
        errors_point_into_text.2.1 _ _ hShape⟩,
      ⟨_, hLine, rfl,
        errors_point_into_text.2.2 _ _ _ hLine⟩⟩

end Marginalia
