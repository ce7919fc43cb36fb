import Marginalia.Descriptor.Classification
import Marginalia.Entries

/-
  Definitions of markers, and registries in which they are
  found by name.

  Key definitions include:
    * `Parameter`
    * `Definition`
    * `Definition.add`
    * `Definition.shapeLast`
    * `Definition.declare`
    * `Registry`
    * `Registry.register`
    * `Registry.lookup?`
-/

namespace Marginalia

------------------------------------------------------------
-- Definitions
------------------------------------------------------------

/-
  An argument that a marker may have. A shape is known where
  the type was given as one; integers have to fit its widths.
-/
structure Parameter where
  name : String
  descriptor : Descriptor
  required : Bool
  shape? : Option Shape
deriving DecidableEq, Inhabited

/- A marker and the arguments that it may have. -/
structure Definition where
  name : String
  description? : Option String
  parameters : List Parameter
deriving DecidableEq, Inhabited

namespace Definition

/- A marker without arguments. -/
def named
    (name : String) : Definition :=
  ⟨name, none, []⟩

/-
  Add an argument after the others. An earlier one of the
  same name is dropped.
-/
def add
    (definition : Definition)
    (parameter : Parameter) : Definition :=
  { definition with
    parameters :=
      definition.parameters.filter
          (fun earlier => earlier.name != parameter.name)
        ++ [parameter] }

/- The last argument, if there is one, gets the shape. -/
def shapeLast
    (definition : Definition)
    (shape : Shape) : Definition :=
  match definition.parameters.getLast? with
  | some last =>
      { definition with
        parameters :=
          definition.parameters.dropLast
            ++ [{ last with shape? := some shape }] }
  | none => definition

/-
  Add an argument whose descriptor is that of the shape. It is
  added without the shape, which it gets afterwards.
-/
def declare
    (definition : Definition)
    (name : String)
    (shape : Shape)
    (required : Bool) : Except ReadError Definition := do
  let descriptor ← Descriptor.ofShape shape
  let added :=
    definition.add ⟨name, descriptor, required, none⟩
  return added.shapeLast shape

/- The argument that was just added is the last one. -/
theorem shapeLast_add
    (definition : Definition)
    (parameter : Parameter)
    (shape : Shape) :
    (definition.add parameter).shapeLast shape =
      definition.add
        { parameter with shape? := some shape } := by
  unfold shapeLast add
  simp only [List.getLast?_concat, List.dropLast_concat]

/- A shape is declared by adding an argument that has it. -/
theorem declare_eq
    (definition : Definition)
    (name : String)
    (shape : Shape)
    (required : Bool) :
    definition.declare name shape required =
      (Descriptor.ofShape shape).map fun descriptor =>
        definition.add
          ⟨name, descriptor, required, some shape⟩ := by
  unfold declare
  cases Descriptor.ofShape shape with
  | error error => rfl
  | ok descriptor =>
      exact congrArg Except.ok
        (shapeLast_add definition _ shape)

/- The argument of the given name. -/
def parameter?
    (definition : Definition)
    (name : String) : Option Parameter :=
  definition.parameters.find?
    fun parameter => parameter.name == name

end Definition

------------------------------------------------------------
-- Registries
------------------------------------------------------------

/- A set of definitions, each kept under its own name. -/
structure Registry where
  entries : Entries Definition
  named :
    ∀ entry ∈ entries.toList, entry.1 = entry.2.name

namespace Registry

/- The registry without definitions. -/
def empty : Registry :=
  ⟨Entries.empty, by simp [Entries.empty]⟩

instance : Inhabited Registry :=
  ⟨empty⟩

/- The definition of the given name. -/
def lookup?
    (registry : Registry)
    (name : String) : Option Definition :=
  registry.entries.get? name

/-
  Add a definition. An earlier one of the same name gives way
  and is returned.
-/
def register
    (registry : Registry)
    (definition : Definition) :
    Option Definition × Registry :=
  (registry.lookup? definition.name,
    { entries :=
        registry.entries.insert definition.name definition
      named := by
        intro entry hEntry
        rcases mem_insertByKey hEntry with h | h
        · simp [h]
        · exact registry.named entry h })

/- The definitions, by ascending name. -/
def definitions
    (registry : Registry) : List Definition :=
  registry.entries.values

/- The number of definitions. -/
def size
    (registry : Registry) : Nat :=
  registry.entries.toList.length

end Registry

end Marginalia
