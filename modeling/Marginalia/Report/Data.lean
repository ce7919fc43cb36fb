import Marginalia.Extraction
import Marginalia.Json

/-
  Descriptors, values and extracted markers as data.

  Key definitions include:
    * `Descriptor.toJson`
    * `Value.toJson`
    * `Definition.toJson`
    * `Marker.toJson`
    * `Extraction.toJson`
    * `Survey.toJson`
-/

namespace Marginalia

namespace Descriptor

/- A descriptor as data. -/
def toJson : Descriptor → Json
  | plain kind =>
      .object [("actual_type", .string kind.word)]
  | nested kind item =>
      .object [
        ("actual_type", .string kind.word),
        ("item_type", item.toJson)]

end Descriptor

namespace Value

mutual

/- A value as data. -/
def toJson : Value → Json
  | null => .null
  | bool value => .bool value
  | int value => .number value.toInt
  | uint value => .number value.toNat
  | string value => .string value
  | slice items => .array (itemsToJson items)
  | map entries => .object (entriesToJson entries)

/- The items of a slice as data. -/
def itemsToJson : List Value → List Json
  | [] => []
  | item :: rest => item.toJson :: itemsToJson rest

/- The entries of a map as data. -/
def entriesToJson :
    List (String × Value) → List (String × Json)
  | [] => []
  | (key, value) :: rest =>
      (key, value.toJson) :: entriesToJson rest

end

end Value

/- An argument as data; its shape is not shown. -/
def Parameter.toJson
    (parameter : Parameter) : Json :=
  .object [
    ("name", .string parameter.name),
    ("type_info", parameter.descriptor.toJson),
    ("required", .bool parameter.required)]

/- A definition as data. -/
def Definition.toJson
    (definition : Definition) : Json :=
  .object (
    [("name", .string definition.name)]
      ++ (definition.description?.toList.map fun text =>
        ("description", .string text))
      ++ [("arguments", .array
        (definition.parameters.map Parameter.toJson))])

/- A place as data. -/
def Location.toJson
    (location : Location) : Json :=
  .object [
    ("file", .string location.file),
    ("line", .number location.line),
    ("column",
      match location.column? with
      | some column => .number column
      | none => .null)]

/- A marker as data. -/
def Marker.toJson
    (marker : Marker) : Json :=
  .object [
    ("name", .string marker.name),
    ("arguments",
      .object (Value.entriesToJson marker.arguments.toList)),
    ("location", marker.location.toJson),
    ("text", .string marker.text)]

/- A diagnostic as data. -/
def Diagnostic.toJson
    (diagnostic : Diagnostic) : Json :=
  .object [
    ("location", diagnostic.location.toJson),
    ("text", .string diagnostic.text),
    ("message", .string diagnostic.message)]

/- The result for a file as data. -/
def Extraction.toJson
    (extraction : Extraction) : Json :=
  .object [
    ("path", .string extraction.path),
    ("language", .string extraction.language.name),
    ("markers",
      .array (extraction.markers.map Marker.toJson)),
    ("diagnostics",
      .array (extraction.diagnostics.map
        Diagnostic.toJson))]

/- The result for several files as data. -/
def Survey.toJson
    (survey : Survey) : Json :=
  .object [
    ("files", .array (survey.files.map Extraction.toJson)),
    ("total_markers", .number survey.markerCount),
    ("total_diagnostics", .number survey.diagnosticCount)]

end Marginalia
