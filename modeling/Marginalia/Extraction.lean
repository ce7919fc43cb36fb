import Marginalia.Comment
import Marginalia.Marker.Line

/-
  Extraction of the markers from the comments of source texts.

  Key definitions include:
    * `Diagnostic`
    * `Extraction`
    * `Survey`
    * `Survey.push`
    * `Extraction.ofSource`
    * `Extraction.ofSourceStrictly`
-/

namespace Marginalia

------------------------------------------------------------
-- Results
------------------------------------------------------------

/- A marker line that was not accepted, and why. -/
structure Diagnostic where
  location : Location
  text : String
  message : String
deriving DecidableEq

/- What was extracted from one file. -/
structure Extraction where
  path : String
  language : Language
  markers : List Marker
  diagnostics : List Diagnostic

namespace Extraction

/- No marker line was refused. -/
def clean
    (extraction : Extraction) : Bool :=
  extraction.diagnostics.isEmpty

/- The markers of the given name. -/
def named
    (extraction : Extraction)
    (name : String) : List Marker :=
  extraction.markers.filter fun marker =>
    marker.name == name

end Extraction

/-
  What was extracted from several files, and the numbers of
  markers and of diagnostics in all of them.
-/
structure Survey where
  files : List Extraction
  markerCount : Nat
  diagnosticCount : Nat

namespace Survey

/- No file has been visited yet. -/
def empty : Survey :=
  { files := []
    markerCount := 0
    diagnosticCount := 0 }

/- Add what was extracted from one more file. -/
def push
    (survey : Survey)
    (file : Extraction) : Survey :=
  { files := survey.files ++ [file]
    markerCount := survey.markerCount + file.markers.length
    diagnosticCount :=
      survey.diagnosticCount + file.diagnostics.length }

/- No marker line was refused in any file. -/
def clean
    (survey : Survey) : Bool :=
  survey.diagnosticCount == 0

end Survey

------------------------------------------------------------
-- Source Texts
------------------------------------------------------------

namespace Extraction

/- The comment lines of a source text that may be markers. -/
def markerLines
    (language : Language)
    (source : String) : List CommentLine :=
  (CommentBlock.ofSource language source).flatMap
    CommentBlock.markerLines

/- The place of a comment line. -/
def locate
    (path : String)
    (line : CommentLine) : Location :=
  ⟨path, line.number, some line.column⟩

/- The marker on a comment line, with its place. -/
def readLine
    (registry : Registry)
    (path : String)
    (line : CommentLine) : Except MarkerError Marker := do
  let marker ←
    Marker.ofLine registry (String.ofList line.content)
  return { marker with location := locate path line }

/- The entry for a comment line that is not accepted. -/
def diagnose
    (path : String)
    (line : CommentLine)
    (error : MarkerError) : Diagnostic :=
  ⟨locate path line, String.ofList line.content,
    error.message⟩

/-
  Extract the markers of a source text. Lines that are not
  accepted become diagnostics.
-/
def ofSource
    (registry : Registry)
    (path : String)
    (language : Language)
    (source : String) : Extraction :=
  let readings :=
    (markerLines language source).map fun line =>
      (line, readLine registry path line)
  { path := path
    language := language
    markers :=
      readings.filterMap fun (_, reading) =>
        reading.toOption
    diagnostics :=
      readings.filterMap fun (line, reading) =>
        match reading with
        | .ok _ => none
        | .error error => some (diagnose path line error) }

/-
  Extract the markers of a source text, or return the first
  line that is not accepted and the reason.
-/
def ofSourceStrictly
    (registry : Registry)
    (path : String)
    (language : Language)
    (source : String) :
    Except (Nat × MarkerError) Extraction := do
  let markers ←
    (markerLines language source).mapM fun line =>
      (readLine registry path line).mapError fun error =>
        (line.number, error)
  return ⟨path, language, markers, []⟩

end Extraction

end Marginalia
