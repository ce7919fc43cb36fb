import Marginalia.Command.Arguments
import Marginalia.Config
import Marginalia.Extraction.Files
import Marginalia.Report

/-
  The commands of the program, and what comes of them.

  Key definitions include:
    * `Command`
    * `Command.ofArguments?`
    * `Command.Result`
    * `Command.Failure`
    * `Command.run`
-/

namespace Marginalia

------------------------------------------------------------
-- Commands
------------------------------------------------------------

/-
  Extract the markers of a file or folder, read a literal of
  a type, or describe a type.
-/
inductive Command where
  | extract
      (path : String)
      (config? : Option String)
      (format : Report.Format)
      (strict : Bool)
      (strictness : Strictness)
  | parse
      (type literal : String)
      (format : Report.Format)
  | classify
      (type : String)
      (format : Report.Format)
deriving DecidableEq

namespace Command

/- The form of the listing; without the option it is text. -/
def format?
    (given : Given) : Option Report.Format :=
  match given.option? "format" with
  | none | some "text" => some .text
  | some "json" => some .json
  | some "json-pretty" => some .jsonPretty
  | some _ => none

/- A path is not empty. -/
def path?
    (text : String) : Option String :=
  if text.isEmpty then none else some text

/- A configuration that is named by a path, if there is one. -/
def config?
    (given : Given) : Option (Option String) :=
  match given.option? "config" with
  | none => some none
  | some text => (path? text).map some

/- The option for the form of the listing. -/
def formatOption : OptionName :=
  ⟨'f', "format"⟩

/- The command for extraction, at first from this folder. -/
def ofExtract?
    (arguments : List String) : Option Command := do
  let given ← collect
    ⟨[⟨'c', "config"⟩, formatOption],
      ["strict", "fail-fast"], 1⟩
    arguments
  let path ← path? (given.operands.headD ".")
  let config? ← config? given
  let strictness :=
    if given.flag "fail-fast" then
      Strictness.failFast
    else
      .lenient
  return extract path config? (← format? given)
    (given.flag "strict") strictness

/- The command for literals, at first of any type. -/
def ofParse?
    (arguments : List String) : Option Command := do
  let given ← collect
    ⟨[⟨'t', "type"⟩, formatOption], [], 1⟩ arguments
  let literal ← given.operands.head?
  return parse ((given.option? "type").getD "any") literal
    (← format? given)

/- The command for types. -/
def ofClassify?
    (arguments : List String) : Option Command := do
  let given ← collect ⟨[formatOption], [], 1⟩ arguments
  let type ← given.operands.head?
  return classify type (← format? given)

/- The command that the arguments denote, if they denote one. -/
def ofArguments? : List String → Option Command
  | "extract" :: arguments => ofExtract? arguments
  | "parse" :: arguments => ofParse? arguments
  | "classify" :: arguments => ofClassify? arguments
  | _ => none

/- The paths that a command leads to. -/
def paths : Command → List String
  | extract path config? _ _ _ => path :: config?.toList
  | parse _ _ _ => []
  | classify _ _ => []

------------------------------------------------------------
-- Results
------------------------------------------------------------

/- What a command leaves: a code, a listing, and a message. -/
structure Result where
  code : Nat
  output : String
  message : String
deriving DecidableEq

/- Why a command has no listing. -/
inductive Failure where
  | read (error : ReadError)
  | config (error : ConfigError)
  | extraction (error : ExtractionError)
deriving DecidableEq

/- The wording of a failure. -/
def Failure.message : Failure → String
  | read error => error.message
  | config error => error.message
  | extraction error => error.message

/- A listing, and whether all is as it should be. -/
structure Listing where
  text : String
  accepted : Bool
deriving DecidableEq

/-
  The code is 0 if all is as it should be, 1 if not, and 2
  for a failure.
-/
def Result.ofListing :
    Except Failure Listing → Result
  | .ok listing =>
      ⟨if listing.accepted then 0 else 1, listing.text, ""⟩
  | .error failure =>
      ⟨2, "", "Error: " ++ failure.message ++ "\n"⟩

------------------------------------------------------------
-- Runs
------------------------------------------------------------

/- The registry of a configuration, or one without definitions. -/
def registryOf
    (view : FileView) :
    Option String → Except Failure Registry
  | none => .ok Registry.empty
  | some path => do
      let config ← (Config.load view path).mapError .config
      config.toRegistry.mapError .read

/- List the markers of a file or folder. -/
def listMarkers
    (view : FileView)
    (path : String)
    (config? : Option String)
    (format : Report.Format)
    (strict : Bool)
    (strictness : Strictness) : Except Failure Listing := do
  let registry ← registryOf view config?
  if view.isFile path then
    let extraction ←
      (Extraction.ofFile strictness registry view
        path).mapError .extraction
    return {
      text := Report.extraction format .plain extraction ++ "\n"
      accepted := !strict || extraction.clean }
  else
    let survey ←
      (Survey.ofFolder strictness registry view
        path).mapError .extraction
    return {
      text := Report.survey format .plain survey ++ "\n"
      accepted := !strict || survey.clean }

/- List the value of a literal. -/
def listValue
    (type literal : String)
    (format : Report.Format) : Except Failure Listing := do
  let shape ← (Shape.ofText type).mapError .read
  let descriptor ←
    (Descriptor.ofShape shape).mapError .read
  let outcome := descriptor.readValue literal
  outcome.result.mapError .read
  (shape.checkBounds outcome.content 0).mapError .read
  return {
    text := Report.value format outcome.content ++ "\n"
    accepted := true }

/- List the descriptor of a type. -/
def listDescriptor
    (type : String)
    (format : Report.Format) : Except Failure Listing := do
  let shape ← (Shape.ofText type).mapError .read
  let descriptor ←
    (Descriptor.ofShape shape).mapError .read
  let text := Report.descriptor format .plain descriptor
  return {
    text := if format = .text then text else text ++ "\n"
    accepted := true }

/- The listing for a command. -/
def list
    (view : FileView) :
    Command → Except Failure Listing
  | extract path config? format strict strictness =>
      listMarkers view path config? format strict strictness
  | parse type literal format =>
      listValue type literal format
  | classify type format => listDescriptor type format

/- What comes of a command. -/
def run
    (view : FileView)
    (command : Command) : Result :=
  Result.ofListing (command.list view)

end Command

end Marginalia
