import Marginalia.Bounds
import Marginalia.Literal.Grammar
import Marginalia.Registry

/-
  Markers: a name, arguments, and the place where they were
  found.

  Key definitions include:
    * `Location`
    * `Marker`
    * `Marker.value?`
    * `MarkerDefect`
    * `MarkerError`
    * `MarkerError.message`
-/

namespace Marginalia

------------------------------------------------------------
-- Markers
------------------------------------------------------------

/- A place in a file; lines and columns count from one. -/
structure Location where
  file : String
  line : Nat
  column? : Option Nat
deriving DecidableEq, Inhabited

namespace Location

/- The place of what was not found in a file. -/
def nowhere : Location :=
  ⟨"", 0, none⟩

end Location

/- A marker that was read from the given text. -/
structure Marker where
  name : String
  arguments : Entries Value
  location : Location
  text : String

namespace Marker

/- The name of the argument that is written without a name. -/
def valueName : String :=
  "Value"

/- The argument that is written without a name. -/
def value?
    (marker : Marker) : Option Value :=
  marker.arguments.get? valueName

end Marker

/-
  Check the integers in the value of an argument against the
  declared shape, where there is one.
-/
def Parameter.checkBounds
    (parameter : Parameter)
    (value : Value)
    (position : Nat) : Except ReadError Unit :=
  match parameter.shape? with
  | some shape => shape.checkBounds value position
  | none => .ok ()

------------------------------------------------------------
-- Errors
------------------------------------------------------------

/- How the outline of a marker line can be broken. -/
inductive MarkerDefect where
  | noName
  | emptyArgument
  | noEquals (argument : String)
  | trailingText
deriving DecidableEq

namespace MarkerDefect

/- The wording of a defect. -/
def text : MarkerDefect → String
  | noName => "expected `+` followed by a marker name"
  | emptyArgument => "empty argument name"
  | noEquals argument =>
      "argument `" ++ argument ++ "` has no `=`"
  | trailingText => "unexpected text after marker name"

end MarkerDefect

/- The reason why a text is not accepted as a marker. -/
inductive MarkerError where
  | literal (error : ReadError)
  | malformed (text : String) (defect : MarkerDefect)
  | unknownArgument (marker argument : String)
  | missingArgument (marker argument : String)
deriving DecidableEq

namespace MarkerError

/- The wording of the reason. -/
def message : MarkerError → String
  | literal error => error.message
  | malformed text defect =>
      "Invalid marker `" ++ text ++ "`: " ++ defect.text
  | unknownArgument marker argument =>
      "Marker `" ++ marker ++ "` has no argument named `"
        ++ argument ++ "`"
  | missingArgument marker argument =>
      "Marker `" ++ marker
        ++ "` is missing required argument `"
        ++ argument ++ "`"

end MarkerError

end Marginalia
