import Mathlib.Data.List.Nodup
import Marginalia.Proofs.Bounds
import Marginalia.Proofs.Literal.Soundness
import Marginalia.Proofs.Marker.Rounds

/-
  A marker that is accepted obeys its definition.

  Key definitions include:
    * `Definition.Built`
    * `Registry.Filled`
    * `Definition.Regular`
    * `Parameter.Accepts`
    * `Definition.ObeyedBy`

  Main statements:
    * `Registry.Filled.regular`
    * `Marker.scanNamedBy_permits`
    * `Marker.forall_get?_of_rounds`
    * `Marker.ofLine_obeys`
-/

namespace Marginalia

------------------------------------------------------------
-- Definitions
------------------------------------------------------------

/- A definition that is put together from nothing. -/
inductive Definition.Built : Definition → Prop
  | named (name : String) : Built (.named name)
  | described
      {definition : Definition}
      (hBuilt : Built definition)
      (description : String) :
      Built
        { definition with description? := some description }
  | add
      {definition : Definition}
      (hBuilt : Built definition)
      (name : String)
      (descriptor : Descriptor)
      (required : Bool) :
      Built
        (definition.add ⟨name, descriptor, required, none⟩)
  | declare
      {definition definition' : Definition}
      (hBuilt : Built definition)
      {name : String}
      {shape : Shape}
      {required : Bool}
      (hDeclare :
        definition.declare name shape required =
          .ok definition') :
      Built definition'

/- A registry that is filled by registering definitions. -/
inductive Registry.Filled : Registry → Prop
  | empty : Filled .empty
  | register
      {registry : Registry}
      {definition : Definition}
      (hFilled : Filled registry)
      (hBuilt : definition.Built) :
      Filled (registry.register definition).2

namespace Definition

/-
  Names are those of one parameter each, and a parameter has
  the descriptor of its shape.
-/
structure Regular
    (definition : Definition) : Prop where
  distinct :
    (definition.parameters.map Parameter.name).Nodup
  described :
    ∀ parameter ∈ definition.parameters,
      ∀ shape, parameter.shape? = some shape →
        Descriptor.ofShape shape = .ok parameter.descriptor

/- A new parameter replaces the one of its name. -/
theorem Regular.add
    {definition : Definition}
    (hRegular : definition.Regular)
    {parameter : Parameter}
    (hDescribed :
      ∀ shape, parameter.shape? = some shape →
        Descriptor.ofShape shape =
          .ok parameter.descriptor) :
    (definition.add parameter).Regular := by
  constructor
  · have hKept :
        ((definition.parameters.filter fun earlier =>
          earlier.name != parameter.name).map
            Parameter.name).Nodup :=
      hRegular.distinct.sublist
        (List.filter_sublist.map Parameter.name)
    rw [Definition.add, List.map_append]
    apply List.nodup_append.mpr
    refine ⟨hKept, by simp, ?_⟩
    intro name hName other hOther
    rcases List.mem_map.mp hName with ⟨earlier, hEarlier, rfl⟩
    rw [List.map_singleton] at hOther
    rw [List.mem_singleton.mp hOther]
    simpa using (List.mem_filter.mp hEarlier).2
  · intro other hOther
    rcases List.mem_append.mp hOther with hEarlier | hNew
    · exact hRegular.described other
        (List.mem_filter.mp hEarlier).1
    · rw [List.mem_singleton.mp hNew]
      exact hDescribed

theorem Built.regular
    {definition : Definition}
    (hBuilt : definition.Built) :
    definition.Regular := by
  induction hBuilt with
  | named name => exact ⟨List.nodup_nil, nofun⟩
  | described _ _ ih => exact ⟨ih.distinct, ih.described⟩
  | add _ name descriptor required ih => exact ih.add nofun
  | @declare _ _ _ _ shape _ hDeclare ih =>
      rw [Definition.declare_eq] at hDeclare
      cases hShape : Descriptor.ofShape shape with
      | error error =>
          rw [hShape] at hDeclare
          cases hDeclare
      | ok descriptor =>
          rw [hShape] at hDeclare
          cases hDeclare
          apply ih.add
          rintro _ ⟨⟩
          exact hShape

/- A parameter is found under its name, and no other is. -/
theorem Regular.parameter?_eq_some_iff
    {definition : Definition}
    (hRegular : definition.Regular)
    {name : String}
    {parameter : Parameter} :
    definition.parameter? name = some parameter ↔
      parameter ∈ definition.parameters ∧
        parameter.name = name := by
  unfold parameter?
  constructor
  · intro hFound
    exact ⟨List.mem_of_find?_eq_some hFound,
      by simpa using List.find?_some hFound⟩
  · rintro ⟨hMember, hName⟩
    cases hFound :
      definition.parameters.find? fun other =>
        other.name == name with
    | none =>
        have hAbsent :=
          List.find?_eq_none.mp hFound parameter hMember
        simp [hName] at hAbsent
    | some other =>
        have hOther : other.name = name := by
          simpa using List.find?_some hFound
        have hSame :=
          List.inj_on_of_nodup_map hRegular.distinct
            (List.mem_of_find?_eq_some hFound) hMember
            (hOther.trans hName.symm)
        rw [hSame]

end Definition

/- Definitions in a registry are regular. -/
theorem Registry.Filled.regular
    {registry : Registry}
    (hFilled : registry.Filled)
    {name : String}
    {definition : Definition}
    (hLookup : registry.lookup? name = some definition) :
    definition.Regular := by
  induction hFilled with
  | empty => cases hLookup
  | @register registry added hFilled hBuilt ih =>
      have hInsert :
          (registry.register added).2.lookup? name =
            if name = added.name then some added
            else registry.lookup? name :=
        Entries.get?_insert _ _ _ _
      rw [hInsert] at hLookup
      split at hLookup
      · cases hLookup
        exact hBuilt.regular
      · exact ih hLookup

------------------------------------------------------------
-- Values
------------------------------------------------------------

/-
  A value of the parameter: it fits the descriptor at every
  level, and integers are in the ranges that the shape has
  where they sit.
-/
structure Parameter.Accepts
    (parameter : Parameter)
    (value : Value) : Prop where
  fits : Value.Fits parameter.descriptor.core value
  ranged :
    ∀ shape, parameter.shape? = some shape →
      shape.Ranged value

/- All that a definition asks of arguments. -/
structure Definition.ObeyedBy
    (definition : Definition)
    (arguments : Marker.Arguments) : Prop where
  declared :
    ∀ name, (arguments.get? name).isSome →
      ∃ parameter ∈ definition.parameters,
        parameter.name = name
  complete :
    ∀ parameter ∈ definition.parameters,
      parameter.required = true →
        (arguments.get? parameter.name).isSome
  accepted :
    ∀ parameter ∈ definition.parameters,
      ∀ value,
        arguments.get? parameter.name = some value →
          parameter.Accepts value

namespace Marker

open Literal

variable {text marker name : String}
variable {definition? : Option Definition}
variable {value : Value}
variable {cursor place : Cursor}

/-
  The value may stand under the name: a parameter of the
  definition accepts it, or there is no definition.
-/
def Permits
    (definition? : Option Definition)
    (name : String)
    (value : Value) : Prop :=
  match definition? with
  | none => Value.Fits (.plain .any) value
  | some definition =>
      ∃ parameter,
        definition.parameter? name = some parameter ∧
          parameter.Accepts value

/- What is read fits, whether or not it is within bounds. -/
theorem scanDeclaredBy_fits
    {parameter? : Option Parameter}
    (hRun :
      scanDeclaredBy seesColon parameter? cursor =
        .ok value place) :
    Value.Fits (declared parameter?).core value := by
  have hValue := (scanDeclaredBy_eq_ok.mp hRun).1
  rw [Descriptor.fillBy_seesColon] at hValue
  have hCollect :
      Ends
        (fun result _ =>
          Value.Fits (declared parameter?).core result)
        (fun error _ =>
          (declared parameter?).WellFormed → error.OfText)
        (scanValue
          ((declared parameter?).fill .group .dynamic)
          cursor.skipBlanks) := by
    apply Fill.ends_collect.mpr
    exact Descriptor.fill_fits _ .group cursor.skipBlanks
      Value.null trivial
  rw [hValue] at hCollect
  exact hCollect

/-
  What one argument keeps: its value is one that is permitted
  under its name.
-/
theorem scanNamedBy_permits
    (hRegular :
      ∀ definition, definition? = some definition →
        definition.Regular)
    (hRun :
      scanNamedBy seesColon text marker definition? name
          cursor =
        .ok value place) :
    Permits definition? name value := by
  rcases scanNamedBy_eq_ok hRun with
    ⟨_, _, hScan, ⟨rfl, rfl⟩ |
      ⟨definition, parameter, rfl, hFound, rfl⟩⟩
  · exact scanDeclaredBy_fits hScan
  · have hFits := scanDeclaredBy_fits hScan
    have hBounds :=
      (scanDeclaredBy_eq_ok.mp hScan).2 parameter rfl
    refine ⟨parameter, hFound, hFits, ?_⟩
    intro shape hShape
    have hOwn := hRegular definition rfl
    have hMember :=
      (hOwn.parameter?_eq_some_iff.mp hFound).1
    have hDescriptor :=
      hOwn.described parameter hMember shape hShape
    have hCore :
        parameter.descriptor.core = parameter.descriptor :=
      Descriptor.core_of_wellFormed
        (Descriptor.wellFormed_of_ofShape hDescriptor)
    unfold Parameter.checkBounds at hBounds
    rw [hShape] at hBounds
    apply Shape.ranged_of_checkBounds
      (Descriptor.ofPointee_of_ofShape hDescriptor) ?_ hBounds
    rw [← hCore]
    exact hFits

------------------------------------------------------------
-- Rounds
------------------------------------------------------------

/- What holds of every argument that is read holds of all. -/
theorem forall_get?_of_rounds
    {next : LineScan (Option (String × Value))}
    {permits : String → Value → Prop}
    (hNext : ∀ cursor name value place,
      next cursor = .ok (some (name, value)) place →
        permits name value)
    {rounds : Nat}
    {read result : Arguments}
    {cursor final : Cursor}
    (hRun :
      argumentRounds next rounds read cursor =
        .ok result final)
    (hRead : ∀ name value,
      read.get? name = some value → permits name value) :
    ∀ name value,
      result.get? name = some value → permits name value := by
  apply invariant_of_rounds
    (fun read cursor own ownValue place hFound hRead => ?_)
    hRun hRead
  exact Entries.forall_get?_insert hRead
    (hNext cursor own ownValue place hFound)

theorem nextArgumentBy_permits
    (hRegular :
      ∀ definition, definition? = some definition →
        definition.Regular)
    (hRun :
      nextArgumentBy seesColon text marker definition?
          cursor =
        .ok (some (name, value)) place) :
    Permits definition? name value := by
  rcases nextArgumentBy_eq_some.mp hRun with
    ⟨_, start, _, hValue⟩
  exact scanNamedBy_permits hRegular hValue

/- All arguments of a line are permitted under their names. -/
theorem scanArgumentsBy_permits
    (hRegular :
      ∀ definition, definition? = some definition →
        definition.Regular)
    {result : Arguments}
    (hRun :
      scanArgumentsBy seesColon text marker definition? name
          cursor =
        .ok result place) :
    ∀ other value,
      result.get? other = some value →
        Permits definition? other value := by
  rcases scanArgumentsBy_eq_ok.mp hRun with
    ⟨first, middle, hFirst, hRounds⟩
  have hNext :
      ∀ cursor name value place,
        nextArgumentBy seesColon text marker definition?
              cursor =
            .ok (some (name, value)) place →
          Permits definition? name value :=
    fun _ _ _ _ hRun => nextArgumentBy_permits hRegular hRun
  apply forall_get?_of_rounds hNext hRounds
  exact Entries.forall_get?_insert nofun
    (scanNamedBy_permits hRegular hFirst)

------------------------------------------------------------
-- Lines
------------------------------------------------------------

/- The arguments of a marker are read by its definition. -/
theorem exists_readArgumentsBy_of_ofLine
    {registry : Registry}
    {line : String}
    {found : Marker}
    (hLine : ofLine registry line = .ok found) :
    ∃ text first? cursor place,
      readArgumentsBy seesColon text found.name
            (registry.lookup? found.name) first? cursor =
          .ok found.arguments place ∧
        missing? (registry.lookup? found.name)
          found.arguments = none := by
  rw [← ofLineBy_seesColon] at hLine
  unfold ofLineBy at hLine
  dsimp only at hLine
  split at hLine
  · cases hLine
  · have hName := name_of_complete hLine
    rcases complete_eq_ok hLine with ⟨place, hRead, hMissing⟩
    rw [← hName] at hRead hMissing
    exact ⟨_, _, _, place, hRead, hMissing⟩

theorem readArgumentsBy_permits
    (hRegular :
      ∀ definition, definition? = some definition →
        definition.Regular)
    {first? : Option String}
    {result : Arguments}
    (hRun :
      readArgumentsBy seesColon text marker definition?
          first? cursor =
        .ok result place) :
    ∀ name value,
      result.get? name = some value →
        Permits definition? name value := by
  cases first? with
  | none =>
      have hEmpty : result = Entries.empty :=
        (scanNoArguments_eq_ok hRun).1
      intro name value hValue
      rw [hEmpty] at hValue
      cases hValue
  | some first =>
      rcases run_bind_eq_ok.mp hRun with
        ⟨_, middle, _, hRest⟩
      exact scanArgumentsBy_permits hRegular hRest

/-
  The arguments of a marker that is accepted obey its
  definition, if there is one; otherwise every value is one
  that is found out from a text.
-/
theorem ofLine_obeys
    {registry : Registry}
    {line : String}
    {found : Marker}
    (hFilled : registry.Filled)
    (hLine : ofLine registry line = .ok found) :
    (∀ definition,
      registry.lookup? found.name = some definition →
        definition.ObeyedBy found.arguments) ∧
      (registry.lookup? found.name = none →
        ∀ name value,
          found.arguments.get? name = some value →
            Value.Fits (.plain .any) value) := by
  rcases exists_readArgumentsBy_of_ofLine hLine with
    ⟨text, first?, cursor, place, hRead, hMissing⟩
  have hPermits :=
    readArgumentsBy_permits
      (fun _ hLookup => hFilled.regular hLookup) hRead
  constructor
  · intro definition hLookup
    have hRegular := hFilled.regular hLookup
    rw [hLookup] at hPermits hMissing
    constructor
    · intro name hName
      rcases Option.isSome_iff_exists.mp hName with
        ⟨value, hValue⟩
      rcases hPermits name value hValue with
        ⟨parameter, hFound, _⟩
      exact ⟨parameter,
        hRegular.parameter?_eq_some_iff.mp hFound⟩
    · exact missing?_eq_none_iff.mp hMissing
    · intro parameter hParameter value hValue
      rcases hPermits parameter.name value hValue with
        ⟨other, hFound, hAccepts⟩
      have hOwn :=
        hRegular.parameter?_eq_some_iff.mpr
          ⟨hParameter, rfl⟩
      rw [hOwn] at hFound
      cases hFound
      exact hAccepts
  · intro hLookup
    rw [hLookup] at hPermits
    exact hPermits

/- A parameter that was declared again has its new type. -/
theorem ofLine_obeys_renewed_parameter :
    ∃ definition found,
      definition.parameters =
          [⟨"A", .nested .slice (.plain .signed), true,
            some (.slice (.signed 8))⟩] ∧
        ofLine (Registry.empty.register definition).2
              "+m:A=\x7b1, -128\x7d" =
            .ok found ∧
          definition.ObeyedBy found.arguments := by
  let earlier : Definition :=
    (Definition.named "m").add
      ⟨"A", .plain .string, false, none⟩
  let definition : Definition :=
    earlier.add
      ⟨"A", .nested .slice (.plain .signed), true,
        some (.slice (.signed 8))⟩
  have hDeclare :
      earlier.declare "A" (.slice (.signed 8)) true =
        .ok definition :=
    rfl
  have hBuilt : definition.Built :=
    .declare (.add (.named "m") "A" (.plain .string) false)
      hDeclare
  have hLine :
      ofLine (Registry.empty.register definition).2
          "+m:A=\x7b1, -128\x7d" =
        .ok
          ⟨"m",
            Entries.empty.insert "A"
              (.slice [.int 1, .int (-128)]),
            .nowhere, "+m:A=\x7b1, -128\x7d"⟩ :=
    rfl
  have hObeys := ofLine_obeys (.register .empty hBuilt) hLine
  exact ⟨definition, _, rfl, hLine,
    hObeys.1 definition rfl⟩

end Marker

end Marginalia
