import Marginalia.Command
import Marginalia.Proofs.Embedding
import Marginalia.Proofs.Literal.Trimming
import Marginalia.Proofs.Marker.Rounds

/-
  A literal that is read alone is read likewise as the only
  argument of a marker.

  Key definitions include:
    * `Marker.literalStart`
    * `Marker.TakesOne`

  Main statements:
    * `Marker.scanValue_of_readValue`
    * `Marker.TakesOne.ofLine_eq_ok`
    * `Marker.TakesOne.ofLine_eq_error`
    * `Marker.ofLine_argumentLine`
-/

namespace Marginalia

namespace Marker

open Literal

variable {text marker name literal : String}
variable {definition : Definition}
variable {parameter : Parameter}
variable {value : Value}
variable {cursor place : Cursor}

------------------------------------------------------------
-- Single Arguments
------------------------------------------------------------

/- The value at the end of a line is that of the literal. -/
theorem scanValue_of_readValue
    {descriptor : Descriptor}
    (hRawFree : descriptor.RawFree)
    (hRead : (descriptor.readValue literal).result = .ok ())
    (hAhead : cursor.ahead = Text.trimEnd literal.toList) :
    ∃ place,
      scanValue (descriptor.fillBy seesColon .group .dynamic)
            cursor.skipBlanks =
          .ok (descriptor.readValue literal).content place ∧
        Text.Blank place.ahead := by
  rcases Descriptor.fill_of_readValue hRawFree hRead hAhead
    with ⟨place, hFill, hBlank⟩
  have hSkipped :=
    (Descriptor.run_fill_skipBlanks .group .dynamic cursor
      Value.null).trans hFill
  refine ⟨place, ?_, hBlank⟩
  rw [Descriptor.fillBy_seesColon]
  exact Fill.run_collect_of_ok hSkipped

/- No other argument follows where only blanks are left. -/
theorem scanArgumentsBy_of_last
    {definition? : Option Definition}
    (hValue :
      scanNamedBy seesColon text marker definition? name
          cursor =
        .ok value place)
    (hBlank : Text.Blank place.ahead) :
    scanArgumentsBy seesColon text marker definition? name
        cursor =
      .ok (Entries.empty.insert name value)
        place.skipBlanks := by
  have hEnd : place.skipBlanks.ahead = [] := by
    rw [Cursor.skipBlanks_ahead]
    exact Text.trimStart_of_blank hBlank
  exact scanArgumentsBy_eq_ok.mpr
    ⟨value, place, hValue, argumentRounds_of_end hEnd _ _⟩

/- An argument that is refused ends the reading. -/
theorem scanArgumentsBy_of_error
    {definition? : Option Definition}
    {error : MarkerError}
    (hError :
      scanNamedBy seesColon text marker definition? name
          cursor =
        .error error place) :
    scanArgumentsBy seesColon text marker definition? name
        cursor =
      .error error place := by
  unfold scanArgumentsBy
  rw [run_bind, hError]

------------------------------------------------------------
-- Lines
------------------------------------------------------------

/-
  The bytes of a line before its literal. Blanks at the end
  do not count, also where there is nothing else.
-/
def literalStart
    (marker name literal : String) : Nat :=
  Text.byteLength
    ((argumentLine marker name "").toList ++
      (Text.trimEnd literal.toList).takeWhile Text.isBlank)

/- There the literal begins, behind the blanks. -/
theorem position_skipBlanks
    (hAhead : cursor.ahead = Text.trimEnd literal.toList)
    (hBehind :
      cursor.behind.reverse =
        (argumentLine marker name "").toList) :
    cursor.skipBlanks.position =
      literalStart marker name literal := by
  unfold literalStart
  rw [← hAhead, ← hBehind, Text.byteLength_append,
    Text.byteLength_reverse, ← cursor.position_eq]
  rfl

/-
  The line with the two names is about the argument that is
  declared with the shape, and no other one is required.
-/
structure TakesOne
    (registry : Registry)
    (definition : Definition)
    (marker : String)
    (parameter : Parameter) : Prop where
  isMarker : IsName marker
  isName : IsName parameter.name
  nonempty : parameter.name ≠ ""
  noColon : ':' ∉ parameter.name.toList
  free :
    registry.lookup? (marker ++ ":" ++ parameter.name) = none
  registered : registry.lookup? marker = some definition
  declared :
    definition.parameter? parameter.name = some parameter
  required :
    ∀ other ∈ definition.parameters,
      other.required = true → other.name = parameter.name

section Lines

variable {registry : Registry}

/- The only argument is all that is required. -/
theorem TakesOne.missing?_eq_none
    (hOne : TakesOne registry definition marker parameter)
    (value : Value) :
    missing? (some definition)
      (Entries.empty.insert parameter.name value) = none := by
  rw [missing?_eq_none_iff]
  intro other hMember hOwn
  rw [Entries.get?_insert,
    if_pos (hOne.required other hMember hOwn)]
  rfl

/-
  On the line the literal is read as it is alone; it remains
  to check the value.
-/
theorem TakesOne.exists_scanDeclaredBy
    (hOne : TakesOne registry definition marker parameter)
    (hRawFree : parameter.descriptor.RawFree)
    (hRead :
      (parameter.descriptor.readValue literal).result =
        .ok ()) :
    ∃ cursor place,
      ofLine registry
            (argumentLine marker parameter.name literal) =
          complete
            (trimmed
              (argumentLine marker parameter.name literal))
            marker (some definition)
            (scanArgumentsBy seesColon
              (trimmed
                (argumentLine marker parameter.name literal))
              marker (some definition) parameter.name
              cursor) ∧
        scanValue
              (parameter.descriptor.fillBy seesColon .group
                .dynamic)
              cursor.skipBlanks =
            .ok (parameter.descriptor.readValue
              literal).content place ∧
          Text.Blank place.ahead ∧
            cursor.skipBlanks.position =
              literalStart marker parameter.name literal := by
  rcases ofLineBy_argumentLine seesColon hOne.isMarker
      hOne.isName hOne.noColon hOne.free literal with
    ⟨cursor, hAhead, hBehind, hLine⟩
  rcases scanValue_of_readValue hRawFree hRead hAhead with
    ⟨place, hValue, hBlank⟩
  rw [ofLineBy_seesColon, hOne.registered] at hLine
  exact ⟨cursor, place, hLine, hValue, hBlank,
    position_skipBlanks hAhead hBehind⟩

theorem TakesOne.ofLine_eq_ok
    (hOne : TakesOne registry definition marker parameter)
    (hRawFree : parameter.descriptor.RawFree)
    (hRead :
      (parameter.descriptor.readValue literal).result =
        .ok ())
    (hBounds : ∀ start,
      parameter.checkBounds
          (parameter.descriptor.readValue literal).content
          start =
        .ok ()) :
    ofLine registry
        (argumentLine marker parameter.name literal) =
      .ok
        ⟨marker,
          Entries.empty.insert parameter.name
            (parameter.descriptor.readValue literal).content,
          .nowhere,
          trimmed
            (argumentLine marker parameter.name literal)⟩ := by
  rcases hOne.exists_scanDeclaredBy hRawFree hRead with
    ⟨cursor, place, hLine, hValue, hBlank, _⟩
  have hNamed :
      scanNamedBy seesColon
          (trimmed
            (argumentLine marker parameter.name literal))
          marker (some definition) parameter.name cursor =
        .ok (parameter.descriptor.readValue literal).content
          place := by
    rw [scanNamedBy_of_declared hOne.nonempty hOne.declared]
    apply scanDeclaredBy_eq_ok.mpr
    refine ⟨hValue, ?_⟩
    rintro _ ⟨⟩
    exact hBounds _
  rw [hLine, scanArgumentsBy_of_last hNamed hBlank]
  exact complete_eq_ok_iff.mpr
    ⟨_, _, rfl, hOne.missing?_eq_none _, rfl⟩

theorem TakesOne.ofLine_eq_error
    (hOne : TakesOne registry definition marker parameter)
    (hRawFree : parameter.descriptor.RawFree)
    (hRead :
      (parameter.descriptor.readValue literal).result =
        .ok ())
    {error : Nat → ReadError}
    (hBounds : ∀ start,
      parameter.checkBounds
          (parameter.descriptor.readValue literal).content
          start =
        .error (error start)) :
    ofLine registry
        (argumentLine marker parameter.name literal) =
      .error
        (.literal
          (error
            (literalStart marker parameter.name
              literal))) := by
  rcases hOne.exists_scanDeclaredBy hRawFree hRead with
    ⟨cursor, place, hLine, hValue, _, hPosition⟩
  have hNamed :
      scanNamedBy seesColon
          (trimmed
            (argumentLine marker parameter.name literal))
          marker (some definition) parameter.name cursor =
        .error
          (.literal
            (error
              (literalStart marker parameter.name literal)))
          place := by
    rw [scanNamedBy_of_declared hOne.nonempty hOne.declared,
      ← hPosition]
    exact scanDeclaredBy_of_refused hValue (hBounds _)
  rw [hLine, scanArgumentsBy_of_error hNamed]
  rfl

/-
  A literal whose value the command lists is accepted on the
  line of a marker that declares its argument with the shape.
  A literal with integers that are too wide is refused for
  the same reason, at the place where it begins.
-/
theorem ofLine_argumentLine
    {name : String}
    {shape : Shape}
    {descriptor : Descriptor}
    {required : Bool}
    (hShape : Descriptor.ofShape shape = .ok descriptor)
    (hRawFree : descriptor.RawFree)
    (hRead : (descriptor.readValue literal).result = .ok ())
    (hOne :
      TakesOne registry definition marker
        ⟨name, descriptor, required, some shape⟩) :
    (shape.checkBounds (descriptor.readValue literal).content
        0 = .ok () →
      (∀ type format,
        Shape.ofText type = .ok shape →
          Command.listValue type literal format =
            .ok
              ⟨Report.value format
                (descriptor.readValue literal).content ++
                  "\n", true⟩) ∧
        ofLine registry (argumentLine marker name literal) =
          .ok
            ⟨marker,
              Entries.empty.insert name
                (descriptor.readValue literal).content,
              .nowhere,
              trimmed (argumentLine marker name literal)⟩) ∧
      ∀ error,
        shape.checkBounds
            (descriptor.readValue literal).content 0 =
          .error error →
        ∃ written type,
          error = .overflow written type 0 ∧
            ofLine registry
                (argumentLine marker name literal) =
              .error
                (.literal
                  (.overflow written type
                    (literalStart marker name literal))) := by
  constructor
  · intro hBounds
    constructor
    · intro type format hType
      simp [Command.listValue, Except.mapError, hType, hShape,
        hRead, hBounds, bind, Except.bind, pure, Except.pure]
    · exact hOne.ofLine_eq_ok hRawFree hRead
        (Target.checkBounds_elsewhere hBounds)
  · intro error hBounds
    rcases Target.checkBounds_uniform shape
        (descriptor.readValue literal).content with
      hPasses | ⟨written, type, hFails⟩
    · rw [hPasses 0] at hBounds
      cases hBounds
    · rw [hFails 0] at hBounds
      cases hBounds
      exact ⟨written, type, rfl,
        hOne.ofLine_eq_error hRawFree hRead hFails⟩

/- One run of items is within the width, another is not. -/
theorem ofLine_argumentLine_run_of_bytes :
    ∃ registry : Registry,
      (∃ found,
        ofLine registry (argumentLine "m" "A" " 1; -2 ") =
            .ok found ∧
          found.arguments =
            Entries.empty.insert "A"
              (.slice [.int 1, .int (-2)])) ∧
        ofLine registry (argumentLine "m" "A" " 1;300 ") =
          .error
            (.literal
              (.overflow "300" (.shape (.signed 8)) 6)) := by
  let shape : Shape := .slice (.signed 8)
  let descriptor : Descriptor :=
    .nested .slice (.plain .signed)
  let definition : Definition :=
    ⟨"m", none, [⟨"A", descriptor, true, some shape⟩]⟩
  have hShape : Descriptor.ofShape shape = .ok descriptor :=
    rfl
  have hOne :
      TakesOne (Registry.empty.register definition).2
        definition "m"
        ⟨"A", descriptor, true, some shape⟩ := by
    constructor
    · unfold IsName
      decide
    · unfold IsName
      decide
    · decide
    · decide
    · rfl
    · rfl
    · rfl
    · decide
  have hNarrow :=
    @ofLine_argumentLine "m" " 1; -2 " definition _ "A" shape
      descriptor true hShape (by decide) rfl hOne
  have hWide :=
    @ofLine_argumentLine "m" " 1;300 " definition _ "A" shape
      descriptor true hShape (by decide) rfl hOne
  refine ⟨_, ⟨_, (hNarrow.1 rfl).2, rfl⟩, ?_⟩
  rcases hWide.2 _ rfl with ⟨written, type, hError, hLine⟩
  cases hError
  exact hLine

end Lines

end Marker

end Marginalia
