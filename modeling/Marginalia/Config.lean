import Marginalia.FileTree
import Marginalia.Registry
import Marginalia.Shape.Notation
import Marginalia.Toml.Document

/-
  Configurations, in which the definitions of markers are
  written down as a text.

  Key definitions include:
    * `Config`
    * `Config.ofToml?`
    * `Config.ofText?`
    * `Config.load`
    * `Config.toRegistry`
-/

namespace Marginalia

------------------------------------------------------------
-- Entries
------------------------------------------------------------

/- The entry for an argument; its type is still a text. -/
structure ArgumentEntry where
  name : String
  type : String
  required : Bool
deriving DecidableEq

/- The entry for a marker. -/
structure MarkerEntry where
  name : String
  description? : Option String
  arguments : List ArgumentEntry
deriving DecidableEq

/- The entries of a configuration, in order. -/
structure Config where
  markers : List MarkerEntry
deriving DecidableEq

------------------------------------------------------------
-- Decoding
------------------------------------------------------------

namespace Toml

/-
  A field of a record. The record is a table, or an array in
  which the fields stand in order without names.
-/
def field?
    (record : Toml)
    (index : Nat)
    (name : String) : Option Toml :=
  match record with
  | table entries => entries.lookup name
  | array items => items[index]?
  | _ => none

/- Decode a field if it is there. -/
def decodeField?
    {α : Type}
    (record : Toml)
    (index : Nat)
    (name : String)
    (decode : Toml → Option α) : Option (Option α) :=
  match record.field? index name with
  | none => some none
  | some value => (decode value).map some

/- Decode the items of an array. -/
def decodeItems?
    {α : Type}
    (decode : Toml → Option α)
    (value : Toml) : Option (List α) := do
  (← value.array?).mapM decode

end Toml

/- The entry for an argument; all but its name can be left out. -/
def ArgumentEntry.ofToml?
    (record : Toml) : Option ArgumentEntry := do
  let name ← record.field? 0 "name"
  let type? ← record.decodeField? 1 "type" Toml.string?
  let required? ←
    record.decodeField? 2 "required" Toml.boolean?
  return {
    name := ← name.string?
    type := type?.getD "any"
    required := required?.getD false }

/- The entry for a marker; all but its name can be left out. -/
def MarkerEntry.ofToml?
    (record : Toml) : Option MarkerEntry := do
  let name ← record.field? 0 "name"
  let description? ←
    record.decodeField? 1 "description" Toml.string?
  let arguments? ←
    record.decodeField? 2 "arguments"
      (Toml.decodeItems? ArgumentEntry.ofToml?)
  return {
    name := ← name.string?
    description? := description?
    arguments := arguments?.getD [] }

namespace Config

/-
  The configuration that a table holds; other keys are
  ignored.
-/
def ofToml?
    (record : Toml) : Option Config := do
  let markers? ←
    record.decodeField? 0 "markers"
      (Toml.decodeItems? MarkerEntry.ofToml?)
  return ⟨markers?.getD []⟩

/- The configuration that a text denotes. -/
def ofText?
    (text : String) : Option Config := do
  ofToml? (.table (← Toml.ofText? text))

end Config

------------------------------------------------------------
-- Files
------------------------------------------------------------

/- Why a configuration cannot be loaded. -/
inductive ConfigError where
  | unreadable (path : String) (cause : FileError)
  | malformed
deriving DecidableEq

namespace ConfigError

/- The wording of the reason. -/
def message : ConfigError → String
  | unreadable path cause => cause.message path
  | malformed => "Invalid configuration: not as expected"

end ConfigError

/- The configuration in the file at the end of a path. -/
def Config.load
    (view : FileView)
    (path : String) : Except ConfigError Config :=
  match view.readText path with
  | .error cause => .error (.unreadable path cause)
  | .ok text =>
      match ofText? text with
      | some config => .ok config
      | none => .error .malformed

------------------------------------------------------------
-- Registries
------------------------------------------------------------

/- Add the argument of an entry to a definition. -/
def ArgumentEntry.addTo
    (definition : Definition)
    (entry : ArgumentEntry) :
    Except ReadError Definition := do
  let shape ← Shape.ofText entry.type
  definition.declare entry.name shape entry.required

/- The definition that an entry describes. -/
def MarkerEntry.toDefinition
    (entry : MarkerEntry) : Except ReadError Definition :=
  entry.arguments.foldlM ArgumentEntry.addTo
    ⟨entry.name, entry.description?, []⟩

/-
  The registry of all definitions. Of two with one name the
  later one counts, but the types of both have to be right.
-/
def Config.toRegistry
    (config : Config) : Except ReadError Registry := do
  let definitions ←
    config.markers.mapM MarkerEntry.toDefinition
  return definitions.foldl
    (fun registry definition =>
      (registry.register definition).2)
    Registry.empty

end Marginalia
