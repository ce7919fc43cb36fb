import Marginalia.Report.Data
import Marginalia.Report.Paint

/-
  Listings of descriptors, values and extracted markers, as
  text or as data.

  Key definitions include:
    * `Report.Format`
    * `Report.descriptor`
    * `Report.value`
    * `Report.extraction`
    * `Report.survey`
-/

namespace Marginalia

namespace Report

------------------------------------------------------------
-- Formats
------------------------------------------------------------

/- The forms of a listing. -/
inductive Format where
  | text
  | json
  | jsonPretty
deriving DecidableEq

/- Write data or text, as the format asks. -/
def render
    (format : Format)
    (data : Json)
    (text : String) : String :=
  match format with
  | .text => text
  | .json => data.compact
  | .jsonPretty => data.pretty

/- The levels of a descriptor, each on a line of its own. -/
def levels
    (paint : Paint) :
    Nat → Descriptor → List String
  | depth, descriptor =>
      let label := if depth = 0 then "type" else "item"
      let line :=
        String.ofList (List.replicate (2 * depth) ' ')
          ++ paint.apply .dimmed label ++ ": "
          ++ paint.apply .cyan descriptor.kind.text ++ "\n"
      match descriptor with
      | .plain _ => [line]
      | .nested _ item => line :: levels paint (depth + 1) item

/- The listing of a descriptor. -/
def descriptor
    (format : Format)
    (paint : Paint)
    (descriptor : Descriptor) : String :=
  render format descriptor.toJson
    (String.join (levels paint 0 descriptor))

/- The listing of a value. -/
def value
    (format : Format)
    (value : Value) : String :=
  render format value.toJson value.text

------------------------------------------------------------
-- Markers
------------------------------------------------------------

/- A line number at the beginning of an entry. -/
def lineNumber
    (paint : Paint)
    (location : Location) : String :=
  "  " ++ paint.apply .dimmed (toString location.line ++ ":")
    ++ " "

/- The lines for a marker and its arguments. -/
def markerText
    (paint : Paint)
    (marker : Marker) : String :=
  lineNumber paint marker.location
    ++ paint.apply .cyan marker.name ++ "\n"
    ++ String.join
      (marker.arguments.toList.map fun (name, value) =>
        "      " ++ paint.apply .yellow name ++ " = "
          ++ value.text ++ "\n")

/- The lines for a marker line that was not accepted. -/
def diagnosticText
    (paint : Paint)
    (diagnostic : Diagnostic) : String :=
  lineNumber paint diagnostic.location
    ++ paint.apply .boldYellow "WARN" ++ " "
    ++ diagnostic.message ++ "\n      "
    ++ paint.apply .dimmed diagnostic.text ++ "\n"

/- The lines for a file. -/
def extractionText
    (paint : Paint)
    (extraction : Extraction) : String :=
  paint.apply .bold extraction.path
    ++ " (" ++ extraction.language.name ++ ")\n"
    ++ String.join
      (extraction.markers.map (markerText paint))
    ++ String.join
      (extraction.diagnostics.map (diagnosticText paint))

/- The last line for several files. -/
def verdict
    (paint : Paint)
    (survey : Survey) : String :=
  if survey.clean then
    paint.apply .boldGreen "OK" ++ " No marker errors\n"
  else
    paint.apply .boldRed (toString survey.diagnosticCount)
      ++ " markers could not be parsed\n"

/-
  The lines for several files; those without markers are left
  out.
-/
def surveyText
    (paint : Paint)
    (survey : Survey) : String :=
  let reported :=
    survey.files.filter fun file =>
      !file.markers.isEmpty || !file.diagnostics.isEmpty
  String.join
      (reported.map fun file =>
        extractionText paint file ++ "\n")
    ++ "Scanned " ++ toString survey.files.length
    ++ " files, found " ++ toString survey.markerCount
    ++ " markers\n"
    ++ verdict paint survey

/- The listing of a file. -/
def extraction
    (format : Format)
    (paint : Paint)
    (extraction : Extraction) : String :=
  render format extraction.toJson
    (extractionText paint extraction)

/- The listing of several files. -/
def survey
    (format : Format)
    (paint : Paint)
    (survey : Survey) : String :=
  render format survey.toJson (surveyText paint survey)

end Report

end Marginalia
