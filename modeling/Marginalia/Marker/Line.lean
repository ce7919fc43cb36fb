import Marginalia.Marker

/-
  The notation of a marker, a line such as
  `+name:First=1, Other={a,b}`.

  Key definitions include:
    * `Marker.nameToken?`
    * `Marker.splitHead`
    * `LineScan`
    * `Marker.scanArgument`
    * `Marker.scanArguments`
    * `Marker.ofLine`
-/

namespace Marginalia

namespace Marker

------------------------------------------------------------
-- Heads
------------------------------------------------------------

/- The characters of names on a marker line. -/
def isNameChar
    (c : Char) : Bool :=
  !Text.isBlank c && c != '=' && c != ','

/- The token after the plus sign with which a marker begins. -/
def nameToken?
    (text : List Char) : Option (List Char) :=
  match text with
  | '+' :: rest =>
      match rest.takeWhile isNameChar with
      | [] => none
      | token => some token
  | _ => none

/- The parts of a text before and after its last colon. -/
def splitAtLastColon?
    (text : List Char) : Option (List Char × List Char) :=
  match text.reverse.dropWhile fun c => c != ':' with
  | [] => none
  | _ :: front =>
      some (front.reverse, text.drop (front.length + 1))

/-
  The name of the marker, and that of its first argument if
  there is one. The token contains both when it has a colon,
  unless it is itself the name of a definition.
-/
def splitHead
    (registry : Registry)
    (token : List Char)
    (hasArguments : Bool) : String × Option String :=
  let whole := String.ofList token
  if !hasArguments then
    (whole, none)
  else if (registry.lookup? whole).isSome then
    (whole, some valueName)
  else
    match splitAtLastColon? token with
    | some (name, argument) =>
        (String.ofList name, some (String.ofList argument))
    | none => (whole, some valueName)

end Marker

------------------------------------------------------------
-- Arguments
------------------------------------------------------------

/- An action that reads from a marker line. -/
abbrev LineScan (α : Type) : Type :=
  EStateM MarkerError Cursor α

/- Read a part of a marker line. -/
def Scan.onLine
    {α : Type}
    (action : Scan α) : LineScan α :=
  fun cursor =>
    match action cursor with
    | .ok result cursor => .ok result cursor
    | .error error cursor => .error (.literal error) cursor

instance : MonadLift Scan LineScan :=
  ⟨Scan.onLine⟩

namespace Marker

/- The arguments that were read so far. -/
abbrev Arguments : Type :=
  Entries Value

/-
  Read the value of the named argument. A definition decides
  whether there is such an argument and of which type it is;
  without one the value has the form of its text.
-/
def scanArgument
    (text marker : String)
    (definition? : Option Definition)
    (read : Arguments)
    (name : String) : LineScan Arguments := do
  if name.isEmpty then
    throw (.malformed text .emptyArgument)
  let parameter? ←
    match definition? with
    | none => pure none
    | some definition =>
        match definition.parameter? name with
        | some parameter => pure (some parameter)
        | none => throw (.unknownArgument marker name)
  let descriptor :=
    match parameter? with
    | some parameter => parameter.descriptor
    | none => .plain .any
  Scan.skipBlanks (σ := Cursor)
  let start ← Scan.position (σ := Cursor)
  let value : Value ←
    Fill.collect (σ := Cursor) Value.null
      (descriptor.fill .group .dynamic)
  if let some parameter := parameter? then
    if let .error error := parameter.checkBounds value start then
      throw (.literal error)
  return read.insert name value

/- Read the name of an argument and the sign after it. -/
def scanName
    (text : String) : LineScan String := do
  Scan.skipBlanks (σ := Cursor)
  let name :=
    String.ofList (← Scan.takeWhile (σ := Cursor) isNameChar)
  Scan.skipBlanks (σ := Cursor)
  if ← Scan.eat (σ := Cursor) '=' then
    return name
  else
    throw (.malformed text (.noEquals name))

/-
  Read the first argument, whose name is known, and all that
  follow it after commas. The last value of a name counts.
-/
def scanArguments
    (text marker : String)
    (definition? : Option Definition)
    (first : String) : LineScan Arguments := do
  let read ←
    scanArgument text marker definition?
      Entries.empty first
  let cursor ← get
  iterate (.literal .exhausted)
    (fun read => do
      Scan.skipBlanks (σ := Cursor)
      if (← get).atEnd then
        return .done read
      unless ← Scan.eat (σ := Cursor) ',' do
        Scan.unexpectedNext (σ := Cursor) (α := Unit)
          .commaBetweenArguments
      let name ← scanName text
      return .again
        (← scanArgument text marker definition?
          read name))
    (cursor.ahead.length + 1) read

/- Require that only blanks follow the name. -/
def scanNoArguments
    (text : String) : LineScan Arguments := do
  Scan.skipBlanks (σ := Cursor)
  if (← get).atEnd then
    return Entries.empty
  else
    throw (.malformed text .trailingText)

------------------------------------------------------------
-- Lines
------------------------------------------------------------

/- The first argument that is required and not there. -/
def missing?
    (definition? : Option Definition)
    (read : Arguments) : Option Parameter := do
  let definition ← definition?
  definition.parameters.find? fun parameter =>
    parameter.required && (read.get? parameter.name).isNone

/-
  The marker that a line denotes. Blanks at its ends do not
  count; the marker keeps the text between them.
-/
def ofLine
    (registry : Registry)
    (line : String) : Except MarkerError Marker := do
  let chars := Text.trim line.toList
  let text := String.ofList chars
  match nameToken? chars with
  | none => throw (.malformed text .noName)
  | some token =>
      let cursor := ((Cursor.ofChars chars).span isNameChar).2
      let (name, first?) :=
        splitHead registry token (cursor.peek = some '=')
      let definition? := registry.lookup? name
      let reading : LineScan Arguments :=
        match first? with
        | some first => do
            Scan.skip (σ := Cursor)
            scanArguments text name definition? first
        | none => scanNoArguments text
      match reading.run cursor with
      | .error error _ => throw error
      | .ok read _ =>
          match missing? definition? read with
          | some parameter =>
              throw (.missingArgument name parameter.name)
          | none =>
              return ⟨name, read, .nowhere, text⟩

end Marker

end Marginalia
