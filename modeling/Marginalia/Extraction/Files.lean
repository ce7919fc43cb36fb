import Marginalia.Extraction
import Marginalia.FileTree

/-
  Extraction of markers from files and folders.

  Key definitions include:
    * `Strictness`
    * `ExtractionError`
    * `Extraction.ofFile`
    * `Survey.step`
    * `Survey.ofFolder`
-/

namespace Marginalia

------------------------------------------------------------
-- Errors
------------------------------------------------------------

/- Whether extraction ends at the first line not accepted. -/
inductive Strictness where
  | lenient
  | failFast
deriving DecidableEq

/- Why nothing is extracted. -/
inductive ExtractionError where
  | unreadable (path : String) (cause : FileError)
  | unsupported (path : String)
  | marker (path : String) (line : Nat) (cause : MarkerError)
deriving DecidableEq

namespace ExtractionError

/- The wording of the reason. -/
def message : ExtractionError → String
  | unreadable path cause => cause.message path
  | unsupported path => "Unsupported file type: " ++ path
  | marker path line cause =>
      "Marker error at " ++ path ++ ":" ++ toString line
        ++ ": " ++ cause.message

end ExtractionError

------------------------------------------------------------
-- Files
------------------------------------------------------------

namespace Extraction

/- Extract the markers of a text that was found in a file. -/
def ofText
    (strictness : Strictness)
    (registry : Registry)
    (path : String)
    (language : Language)
    (text : String) : Except ExtractionError Extraction :=
  match strictness with
  | .lenient => .ok (ofSource registry path language text)
  | .failFast =>
      (ofSourceStrictly registry path language text).mapError
        fun (line, cause) => .marker path line cause

/-
  Extract the markers of a file. Its name has to tell the
  language, whether or not there is such a file.
-/
def ofFile
    (strictness : Strictness)
    (registry : Registry)
    (view : FileView)
    (path : String) : Except ExtractionError Extraction :=
  match Language.ofPath? path with
  | none => .error (.unsupported path)
  | some language =>
      match view.readText path with
      | .error cause => .error (.unreadable path cause)
      | .ok text =>
          ofText strictness registry path language text

end Extraction

------------------------------------------------------------
-- Folders
------------------------------------------------------------

namespace Survey

/- Extract the markers of a file that was found in a folder. -/
def visit
    (strictness : Strictness)
    (registry : Registry)
    (path : String)
    (language : Language)
    (text? : Option String) :
    Except ExtractionError Extraction :=
  match text? with
  | none => .error (.unreadable path .notText)
  | some text =>
      Extraction.ofText strictness registry path language text

/-
  Go on with a file that was found in a folder. One that
  cannot be read is left out, unless extraction ends at the
  first problem.
-/
def step
    (strictness : Strictness)
    (registry : Registry)
    (survey : Survey)
    (path : String)
    (text? : Option String) :
    Except ExtractionError Survey :=
  match Language.ofPath? path with
  | none => .ok survey
  | some language =>
      match
        visit strictness registry path language text?
      with
      | .ok file => .ok (survey.push file)
      | .error error =>
          match strictness with
          | .lenient => .ok survey
          | .failFast => .error error

/-
  Extract the markers of all files under a path whose names
  tell a language, one after another.
-/
def ofFolder
    (strictness : Strictness)
    (registry : Registry)
    (view : FileView)
    (path : String) : Except ExtractionError Survey :=
  (view.walk path).foldlM
    (fun survey (path, text?) =>
      step strictness registry survey path text?)
    empty

end Survey

end Marginalia
