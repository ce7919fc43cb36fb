import Mathlib.Data.Finset.Card
import Mathlib.Data.Option.Basic
import Marginalia.Config
import Marginalia.Proofs.Entries
import Marginalia.Proofs.Results

/-
  Definitions and registries are what the calls make of them
  by which they are built: of every name the last call counts.

  Key definitions include:
    * `Definition.Call`
    * `Definition.build`
    * `Definition.Call.latest`
    * `Definition.Keeps`
    * `Registry.registerAll`
    * `Registry.Keeps`
    * `ArgumentEntry.Typed`
    * `MarkerEntry.Describes`

  Main statements:
    * `Definition.keeps_of_build`
    * `Registry.keeps_registerAll`
    * `Config.toRegistry_eq_ok_iff`
    * `Registry.builds_keep`
-/

namespace Marginalia

------------------------------------------------------------
-- Calls
------------------------------------------------------------

namespace Definition

/-
  A call that adds an argument: by a shape, which may be the
  one of a type, or by a descriptor that is given.
-/
inductive Call where
  | declare
      (name : String)
      (shape : Shape)
      (required : Bool)
  | add
      (name : String)
      (descriptor : Descriptor)
      (required : Bool)

namespace Call

def name : Call → String
  | declare name _ _ => name
  | add name _ _ => name

def required : Call → Bool
  | declare _ _ required => required
  | add _ _ required => required

def shape? : Call → Option Shape
  | declare _ shape _ => some shape
  | add _ _ _ => none

/- The descriptor that the call asks for, if there is one. -/
def descriptor : Call → Except ReadError Descriptor
  | declare _ shape _ => Descriptor.ofShape shape
  | add _ descriptor _ => .ok descriptor

/- The argument that the call adds with a descriptor. -/
def parameter
    (call : Call)
    (descriptor : Descriptor) : Parameter :=
  ⟨call.name, descriptor, call.required, call.shape?⟩

/- The calls that no later call of the same name follows. -/
def latest : List Call → List Call
  | [] => []
  | call :: later =>
      if call.name ∈ later.map name then
        latest later
      else
        call :: latest later

/- The argument is the one that the call asks for. -/
structure Gives
    (call : Call)
    (parameter : Parameter) : Prop where
  name : parameter.name = call.name
  required : parameter.required = call.required
  shape : parameter.shape? = call.shape?
  descriptor : call.descriptor = .ok parameter.descriptor

end Call

/- What a call makes of a definition. -/
def apply
    (definition : Definition)
    (call : Call) : Except ReadError Definition :=
  match call with
  | .declare name shape required =>
      definition.declare name shape required
  | .add name descriptor required =>
      .ok (definition.add ⟨name, descriptor, required, none⟩)

/- What calls make of a definition, one after another. -/
def build
    (definition : Definition)
    (calls : List Call) : Except ReadError Definition :=
  calls.foldlM apply definition

/-
  The arguments are those of the calls, where the last call of
  a name counts; they stand in the order of these calls, and
  each is found under its name.
-/
structure Keeps
    (definition : Definition)
    (calls : List Call) : Prop where
  arguments :
    List.Forall₂ Call.Gives (Call.latest calls)
      definition.parameters
  distinct :
    (definition.parameters.map Parameter.name).Nodup
  found : ∀ name,
    Option.Rel Call.Gives
      (calls.reverse.find? fun call => call.name == name)
      (definition.parameter? name)

------------------------------------------------------------
-- The Last Call of a Name
------------------------------------------------------------

namespace Call

/- A new call takes the place of an earlier one. -/
theorem latest_append_singleton
    (calls : List Call)
    (call : Call) :
    latest (calls ++ [call]) =
      ((latest calls).filter fun earlier =>
        earlier.name != call.name) ++ [call] := by
  induction calls with
  | nil => simp [latest]
  | cons first later ih =>
      have hMember :
          first.name ∈ (later ++ [call]).map name ↔
            first.name ∈ later.map name ∨
              first.name = call.name := by
        rw [List.map_append, List.mem_append,
          List.map_singleton, List.mem_singleton]
      rw [List.cons_append, latest, latest, ih]
      by_cases hLater : first.name ∈ later.map name
      · rw [if_pos (hMember.mpr (Or.inl hLater)),
          if_pos hLater]
      · rw [if_neg hLater]
        by_cases hSame : first.name = call.name
        · rw [if_pos (hMember.mpr (Or.inr hSame)),
            List.filter_cons_of_neg (by simp [hSame])]
        · have hOther :=
            mt hMember.mp (not_or.mpr ⟨hLater, hSame⟩)
          rw [if_neg hOther,
            List.filter_cons_of_pos (by simp [hSame]),
            List.cons_append]

theorem mem_of_mem_latest
    {calls : List Call}
    {call : Call}
    (hCall : call ∈ latest calls) :
    call ∈ calls := by
  induction calls with
  | nil => exact hCall
  | cons first later ih =>
      rw [latest] at hCall
      split at hCall
      · exact List.mem_cons_of_mem _ (ih hCall)
      · rcases List.mem_cons.mp hCall with rfl | hLater
        · exact List.mem_cons_self
        · exact List.mem_cons_of_mem _ (ih hLater)

/- Of every name there is at most one last call. -/
theorem nodup_latest
    (calls : List Call) :
    ((latest calls).map name).Nodup := by
  induction calls with
  | nil => exact List.nodup_nil
  | cons first later ih =>
      rw [latest]
      split
      · exact ih
      · rename_i hNotLater
        rw [List.map_cons, List.nodup_cons]
        refine ⟨?_, ih⟩
        intro hMember
        rcases List.mem_map.mp hMember with
          ⟨call, hCall, hName⟩
        exact hNotLater
          (List.mem_map.mpr
            ⟨call, mem_of_mem_latest hCall, hName⟩)

/- Apart from its descriptor the call says what is added. -/
theorem Gives.eq_parameter
    {call : Call}
    {parameter : Parameter}
    (hGives : call.Gives parameter) :
    parameter = call.parameter parameter.descriptor := by
  unfold Call.parameter
  rw [← hGives.name, ← hGives.required, ← hGives.shape]

/- The arguments that are given are named as their calls. -/
theorem map_name_eq
    {calls : List Call}
    {parameters : List Parameter}
    (hGives : List.Forall₂ Gives calls parameters) :
    parameters.map Parameter.name = calls.map name := by
  induction hGives with
  | nil => rfl
  | cons hFirst _ ih =>
      rw [List.map_cons, List.map_cons, hFirst.name, ih]

end Call

------------------------------------------------------------
-- Definitions
------------------------------------------------------------

theorem parameter?_add
    (definition : Definition)
    (parameter : Parameter)
    (name : String) :
    (definition.add parameter).parameter? name =
      if parameter.name = name then
        some parameter
      else
        definition.parameter? name := by
  unfold add parameter?
  rw [List.find?_append, List.find?_singleton]
  by_cases hName : parameter.name = name
  · have hDropped :
        (definition.parameters.filter fun earlier =>
            earlier.name != parameter.name).find?
          (fun earlier => earlier.name == name) = none := by
      rw [List.find?_eq_none]
      intro earlier hEarlier
      have hKept := (List.mem_filter.mp hEarlier).2
      simpa [hName] using hKept
    rw [hDropped, if_pos hName]
    simp [hName]
  · have hKept :
        (definition.parameters.filter fun earlier =>
            earlier.name != parameter.name).find?
          (fun earlier => earlier.name == name) =
        definition.parameters.find?
          (fun earlier => earlier.name == name) := by
      rw [List.find?_filter]
      congr 1
      funext earlier
      by_cases hEarlier : earlier.name = name
      · simp [hEarlier, Ne.symm hName]
      · simp [hEarlier]
    rw [hKept, if_neg hName]
    simp [hName]

/- Both kinds of calls add an argument with its descriptor. -/
theorem apply_eq
    (definition : Definition)
    (call : Call) :
    definition.apply call =
      call.descriptor.map fun descriptor =>
        definition.add (call.parameter descriptor) := by
  cases call with
  | declare name shape required =>
      exact definition.declare_eq name shape required
  | add name descriptor required => rfl

/- A call adds the argument that it asks for. -/
theorem apply_eq_ok_iff
    {definition after : Definition}
    {call : Call} :
    definition.apply call = .ok after ↔
      ∃ parameter,
        call.Gives parameter ∧
          after = definition.add parameter := by
  rw [apply_eq]
  constructor
  · intro hOk
    cases hDescriptor : call.descriptor with
    | error error =>
        rw [hDescriptor] at hOk
        cases hOk
    | ok descriptor =>
        rw [hDescriptor] at hOk
        cases hOk
        exact ⟨call.parameter descriptor,
          ⟨rfl, rfl, rfl, hDescriptor⟩, rfl⟩
  · rintro ⟨parameter, hGives, rfl⟩
    rw [hGives.descriptor, hGives.eq_parameter]
    rfl

theorem build_cons_eq_ok_iff
    {start definition : Definition}
    {call : Call}
    {later : List Call} :
    start.build (call :: later) = .ok definition ↔
      ∃ next,
        start.apply call = .ok next ∧
          next.build later = .ok definition :=
  bind_eq_ok_iff

theorem build_append_singleton_eq_ok_iff
    {start definition : Definition}
    {calls : List Call}
    {call : Call} :
    start.build (calls ++ [call]) = .ok definition ↔
      ∃ earlier,
        start.build calls = .ok earlier ∧
          earlier.apply call = .ok definition := by
  unfold build
  rw [List.foldlM_append, bind_eq_ok_iff]
  simp only [List.foldlM_cons, List.foldlM_nil, bind_pure]

/- What was kept of earlier calls is kept with one more. -/
theorem Keeps.add
    {definition : Definition}
    {calls : List Call}
    {call : Call}
    {parameter : Parameter}
    (hKeeps : definition.Keeps calls)
    (hGives : call.Gives parameter) :
    (definition.add parameter).Keeps (calls ++ [call]) := by
  have hArguments :
      List.Forall₂ Call.Gives
        (Call.latest (calls ++ [call]))
        (definition.add parameter).parameters := by
    rw [Call.latest_append_singleton]
    refine List.rel_append ?_ (.cons hGives .nil)
    refine List.rel_filter ?_ hKeeps.arguments
    intro earlier kept hEarlier
    change
      (earlier.name != call.name) = true ↔
        (kept.name != parameter.name) = true
    rw [hEarlier.name, hGives.name]
  have hNames := Call.map_name_eq hArguments
  refine ⟨hArguments, ?_, ?_⟩
  · rw [hNames]
    exact Call.nodup_latest _
  · intro name
    rw [List.reverse_append, List.reverse_singleton,
      List.singleton_append, List.find?_cons,
      parameter?_add, hGives.name]
    by_cases hName : call.name = name
    · rw [if_pos hName, beq_iff_eq.mpr hName]
      exact .some hGives
    · rw [if_neg hName, beq_eq_false_iff_ne.mpr hName]
      exact hKeeps.found name

/- A definition is what all calls together make of it. -/
theorem keeps_of_build
    {start definition : Definition}
    {calls : List Call}
    (hStart : start.parameters = [])
    (hBuild : start.build calls = .ok definition) :
    definition.Keeps calls := by
  induction calls using List.reverseRecOn
    generalizing definition with
  | nil =>
      cases hBuild
      refine ⟨?_, ?_, ?_⟩
      · rw [hStart]
        exact .nil
      · rw [hStart]
        exact List.nodup_nil
      · intro name
        unfold parameter?
        rw [hStart]
        exact .none
  | append_singleton calls call ih =>
      rcases build_append_singleton_eq_ok_iff.mp hBuild with
        ⟨earlier, hEarlier, hApply⟩
      rcases apply_eq_ok_iff.mp hApply with
        ⟨parameter, hGives, rfl⟩
      exact (ih hEarlier).add hGives

/- Calls add arguments and change nothing else. -/
theorem eq_of_build
    {start definition : Definition}
    {calls : List Call}
    (hBuild : start.build calls = .ok definition) :
    definition =
      { start with parameters := definition.parameters } := by
  induction calls generalizing start with
  | nil =>
      cases hBuild
      rfl
  | cons call later ih =>
      rcases build_cons_eq_ok_iff.mp hBuild with
        ⟨next, hFirst, hLater⟩
      rcases apply_eq_ok_iff.mp hFirst with
        ⟨parameter, _, rfl⟩
      have hRest := ih hLater
      exact hRest

end Definition

------------------------------------------------------------
-- Registries
------------------------------------------------------------

namespace Registry

/- Add definitions one after another. -/
def registerAll
    (registry : Registry)
    (definitions : List Definition) : Registry :=
  definitions.foldl
    (fun registry definition =>
      (registry.register definition).2)
    registry

/-
  Of every name the last definition is found, and it is the
  one that a further one displaces. The list has what is found
  under its own name, in ascending order.
-/
structure Keeps
    (registry : Registry)
    (registered : List Definition) : Prop where
  found : ∀ name,
    registry.lookup? name =
      registered.reverse.find? fun definition =>
        definition.name == name
  named : ∀ name definition,
    registry.lookup? name = some definition →
      definition.name = name
  displaced : ∀ definition,
    (registry.register definition).1 =
      registered.reverse.find? fun earlier =>
        earlier.name == definition.name
  size :
    registry.size =
      (registered.map Definition.name).toFinset.card
  listed : ∀ definition,
    definition ∈ registry.definitions ↔
      registry.lookup? definition.name = some definition
  ascending :
    registry.definitions.Pairwise fun first second =>
      first.name < second.name

theorem lookup?_register
    (registry : Registry)
    (definition : Definition)
    (name : String) :
    (registry.register definition).2.lookup? name =
      if name = definition.name then
        some definition
      else
        registry.lookup? name :=
  registry.entries.get?_insert definition.name name definition

/- Later definitions are found before earlier ones. -/
theorem lookup?_registerAll
    (registry : Registry)
    (registered : List Definition)
    (name : String) :
    (registry.registerAll registered).lookup? name =
      (registered.reverse.find? fun definition =>
          definition.name == name).or
        (registry.lookup? name) := by
  induction registered generalizing registry with
  | nil => rfl
  | cons first later ih =>
      have hLater := ih (registry.register first).2
      rw [lookup?_register] at hLater
      rw [List.reverse_cons, List.find?_append,
        List.find?_singleton, Option.or_assoc]
      apply hLater.trans
      by_cases hName : first.name = name
      · simp [hName]
      · simp [hName, Ne.symm hName]

/- The definitions that are found are those of the list. -/
theorem mem_definitions_iff
    {registry : Registry}
    {definition : Definition} :
    definition ∈ registry.definitions ↔
      registry.lookup? definition.name = some definition := by
  constructor
  · intro hMember
    rcases List.mem_map.mp hMember with
      ⟨⟨key, value⟩, hEntry, rfl⟩
    have hKey : key = value.name :=
      registry.named _ hEntry
    subst hKey
    exact registry.entries.ascending.lookup_eq_some_iff.mpr
      hEntry
  · intro hLookup
    have hEntry :=
      registry.entries.ascending.lookup_eq_some_iff.mp hLookup
    exact List.mem_map.mpr ⟨_, hEntry, rfl⟩

/- The keys of the entries are the names of the list. -/
theorem map_name_definitions
    (registry : Registry) :
    registry.definitions.map Definition.name =
      registry.entries.toList.map Prod.fst := by
  unfold definitions Entries.values
  rw [List.map_map]
  apply List.map_congr_left
  intro entry hEntry
  exact (registry.named entry hEntry).symm

theorem ascending_definitions
    (registry : Registry) :
    registry.definitions.Pairwise fun first second =>
      first.name < second.name := by
  rw [← List.pairwise_map, map_name_definitions,
    List.pairwise_map]
  exact registry.entries.ascending

/- A registry is as large as the set of the names it knows. -/
theorem size_eq_card
    {registry : Registry}
    {names : Finset String}
    (hNames : ∀ name,
      (registry.lookup? name).isSome ↔ name ∈ names) :
    registry.size = names.card := by
  have hDistinct :
      (registry.entries.toList.map Prod.fst).Nodup := by
    rw [List.nodup_iff_pairwise_ne, List.pairwise_map]
    refine registry.entries.ascending.imp ?_
    intro first second hLess hEqual
    rw [hEqual] at hLess
    exact String.lt_irrefl _ hLess
  have hKeys :
      (registry.entries.toList.map Prod.fst).toFinset =
        names := by
    ext name
    rw [List.mem_toFinset, ← hNames]
    exact isSome_lookup_iff.symm
  rw [← hKeys, List.toFinset_card_of_nodup hDistinct,
    List.length_map]
  rfl

/- A registry is what all registrations together make of it. -/
theorem keeps_registerAll
    (registered : List Definition) :
    (empty.registerAll registered).Keeps registered := by
  have hFound : ∀ name,
      (empty.registerAll registered).lookup? name =
        registered.reverse.find? fun definition =>
          definition.name == name := by
    intro name
    rw [lookup?_registerAll]
    exact Option.or_none
  refine ⟨hFound, ?_, ?_, ?_, ?_, ?_⟩
  · intro name definition hLookup
    rw [hFound] at hLookup
    have hName := List.find?_some hLookup
    exact eq_of_beq hName
  · intro definition
    exact hFound definition.name
  · apply size_eq_card
    intro name
    rw [hFound, List.find?_isSome]
    simp
  · intro definition
    exact mem_definitions_iff
  · exact ascending_definitions _

end Registry

------------------------------------------------------------
-- Configurations
------------------------------------------------------------

/- The text of the type denotes a shape with a descriptor. -/
def ArgumentEntry.Typed
    (entry : ArgumentEntry) : Prop :=
  ∃ shape,
    Shape.ofText entry.type = .ok shape ∧
      ∃ descriptor,
        Descriptor.ofShape shape = .ok descriptor

/- The call adds the argument of an entry. -/
def ArgumentEntry.Asks
    (entry : ArgumentEntry)
    (call : Definition.Call) : Prop :=
  ∃ shape,
    Shape.ofText entry.type = .ok shape ∧
      call = .declare entry.name shape entry.required

/- The calls for the arguments build the definition. -/
def MarkerEntry.Describes
    (entry : MarkerEntry)
    (definition : Definition) : Prop :=
  ∃ calls,
    List.Forall₂ ArgumentEntry.Asks entry.arguments calls ∧
      Definition.build
          ⟨entry.name, entry.description?, []⟩ calls =
        .ok definition

/- An entry makes the call that it asks for. -/
theorem ArgumentEntry.addTo_eq_ok_iff
    {definition after : Definition}
    {entry : ArgumentEntry} :
    addTo definition entry = .ok after ↔
      ∃ call,
        entry.Asks call ∧ definition.apply call = .ok after := by
  unfold addTo
  rw [bind_eq_ok_iff]
  constructor
  · rintro ⟨shape, hShape, hDeclare⟩
    exact ⟨.declare entry.name shape entry.required,
      ⟨shape, hShape, rfl⟩, hDeclare⟩
  · rintro ⟨_, ⟨shape, hShape, rfl⟩, hApply⟩
    exact ⟨shape, hShape, hApply⟩

/- The entry can be added if its type can be read. -/
theorem ArgumentEntry.exists_addTo_eq_ok_iff
    {definition : Definition}
    {entry : ArgumentEntry} :
    (∃ after, addTo definition entry = .ok after) ↔
      entry.Typed := by
  constructor
  · rintro ⟨after, hOk⟩
    rcases addTo_eq_ok_iff.mp hOk with
      ⟨_, ⟨shape, hShape, rfl⟩, hApply⟩
    rcases Definition.apply_eq_ok_iff.mp hApply with
      ⟨parameter, hGives, _⟩
    exact ⟨shape, hShape, _, hGives.descriptor⟩
  · rintro ⟨shape, hShape, descriptor, hDescriptor⟩
    let call : Definition.Call :=
      .declare entry.name shape entry.required
    let parameter : Parameter :=
      ⟨entry.name, descriptor, entry.required, some shape⟩
    have hGives : call.Gives parameter :=
      ⟨rfl, rfl, rfl, hDescriptor⟩
    exact ⟨definition.add parameter,
      addTo_eq_ok_iff.mpr
        ⟨call, ⟨shape, hShape, rfl⟩,
          Definition.apply_eq_ok_iff.mpr
            ⟨parameter, hGives, rfl⟩⟩⟩

/- Entries one after another make the calls they ask for. -/
theorem ArgumentEntry.foldlM_addTo_eq_ok_iff
    {start definition : Definition}
    {arguments : List ArgumentEntry} :
    arguments.foldlM addTo start = .ok definition ↔
      ∃ calls,
        List.Forall₂ Asks arguments calls ∧
          start.build calls = .ok definition := by
  induction arguments generalizing start with
  | nil =>
      constructor
      · intro hOk
        exact ⟨[], .nil, hOk⟩
      · rintro ⟨_, ⟨⟩, hBuild⟩
        exact hBuild
  | cons entry later ih =>
      rw [List.foldlM_cons, bind_eq_ok_iff]
      constructor
      · rintro ⟨next, hNext, hLater⟩
        rcases addTo_eq_ok_iff.mp hNext with
          ⟨call, hAsks, hApply⟩
        rcases ih.mp hLater with ⟨calls, hCalls, hBuild⟩
        exact ⟨call :: calls, .cons hAsks hCalls,
          Definition.build_cons_eq_ok_iff.mpr
            ⟨next, hApply, hBuild⟩⟩
      · rintro ⟨_, hCalls, hBuild⟩
        cases hCalls with
        | cons hAsks hLater =>
            rcases Definition.build_cons_eq_ok_iff.mp hBuild
              with ⟨next, hApply, hRest⟩
            exact ⟨next, addTo_eq_ok_iff.mpr ⟨_, hAsks, hApply⟩,
              ih.mpr ⟨_, hLater, hRest⟩⟩

theorem MarkerEntry.toDefinition_eq_ok_iff
    {entry : MarkerEntry}
    {definition : Definition} :
    entry.toDefinition = .ok definition ↔
      entry.Describes definition :=
  ArgumentEntry.foldlM_addTo_eq_ok_iff

/- The types of all entries have to be right. -/
theorem MarkerEntry.exists_toDefinition_eq_ok_iff
    {entry : MarkerEntry} :
    (∃ definition, entry.toDefinition = .ok definition) ↔
      ∀ argument ∈ entry.arguments, argument.Typed := by
  apply exists_foldlM_eq_ok_iff
  intro definition argument
  exact ArgumentEntry.exists_addTo_eq_ok_iff

namespace Config

/- The registry of a configuration has what it describes. -/
theorem toRegistry_eq_ok_iff
    {config : Config}
    {registry : Registry} :
    config.toRegistry = .ok registry ↔
      ∃ definitions,
        List.Forall₂ MarkerEntry.Describes config.markers
            definitions ∧
          registry =
            Registry.empty.registerAll definitions := by
  unfold toRegistry
  rw [bind_eq_ok_iff]
  apply exists_congr
  intro definitions
  simp only [mapM_eq_ok_iff,
    MarkerEntry.toDefinition_eq_ok_iff]
  exact and_congr_right fun _ =>
    ⟨fun hOk => (Except.ok.inj hOk).symm,
      fun hRegistry => congrArg _ hRegistry.symm⟩

/- Every type has to be right, also one that is replaced. -/
theorem exists_toRegistry_eq_ok_iff
    {config : Config} :
    (∃ registry, config.toRegistry = .ok registry) ↔
      ∀ entry ∈ config.markers,
        ∀ argument ∈ entry.arguments, argument.Typed := by
  simp only [← MarkerEntry.exists_toDefinition_eq_ok_iff,
    ← exists_mapM_eq_ok_iff]
  unfold toRegistry
  constructor
  · rintro ⟨registry, hOk⟩
    rcases bind_eq_ok_iff.mp hOk with
      ⟨definitions, hDefinitions, _⟩
    exact ⟨definitions, hDefinitions⟩
  · rintro ⟨definitions, hDefinitions⟩
    rw [hDefinitions]
    exact ⟨_, rfl⟩

end Config

------------------------------------------------------------
-- Histories
------------------------------------------------------------

/-
  Whatever calls a definition is built by and whatever is
  registered, what counts is kept; a configuration stands for
  such calls, one entry after another.
-/
theorem Registry.builds_keep :
    (∀ name description? calls definition,
      Definition.build ⟨name, description?, []⟩ calls =
          .ok definition →
        definition =
            ⟨name, description?, definition.parameters⟩ ∧
          definition.Keeps calls) ∧
    (∀ registered,
      (Registry.empty.registerAll registered).Keeps
        registered) ∧
    ∀ config : Config,
      ((∃ registry, config.toRegistry = .ok registry) ↔
        ∀ entry ∈ config.markers,
          ∀ argument ∈ entry.arguments, argument.Typed) ∧
      ∀ registry,
        config.toRegistry = .ok registry ↔
          ∃ definitions,
            List.Forall₂ MarkerEntry.Describes config.markers
                definitions ∧
              registry =
                Registry.empty.registerAll definitions := by
  refine ⟨?_, keeps_registerAll, ?_⟩
  · intro name description? calls definition hBuild
    exact ⟨Definition.eq_of_build hBuild,
      Definition.keeps_of_build rfl hBuild⟩
  · intro config
    exact ⟨Config.exists_toRegistry_eq_ok_iff,
      fun _ => Config.toRegistry_eq_ok_iff⟩

/- The later of two calls of one name, with another type. -/
theorem Registry.builds_keep_of_replaced :
    ∃ definition,
      Definition.build (.named "route")
          [.declare "path" .string true,
            .add "verb" (.plain .any) false,
            .declare "path" (.slice (.signed 32)) false] =
        .ok definition ∧
      definition.parameter? "path" =
        some ⟨"path", .nested .slice (.plain .signed), false,
          some (.slice (.signed 32))⟩ ∧
      definition.Keeps
        [.declare "path" .string true,
          .add "verb" (.plain .any) false,
          .declare "path" (.slice (.signed 32)) false] := by
  refine ⟨_, rfl, by decide, ?_⟩
  exact (builds_keep.1 "route" none _ _ rfl).2

end Marginalia
