import Marginalia.Proofs.Literal.RoundTrip
import Marginalia.Proofs.Marker.Carrying

/-
  Marker lines that are written out are read back: the head,
  then the arguments with their values, and blanks around the
  signs between them.

  Key definitions include:
    * `Marker.Suits`
    * `Marker.Admits`
    * `Marker.Continues`
    * `Marker.Writes`

  Main statements:
    * `Marker.scanNamedBy_text`
    * `Marker.rounds_of_continues`
    * `Marker.ofLine_written`
-/

namespace Marginalia

------------------------------------------------------------
-- Ends of Texts
------------------------------------------------------------

namespace Value

open Literal

theorem ends_groupText
    (blanks : List Char)
    (texts : List (List Char)) :
    Text.Ends (groupText blanks texts) := by
  have hBrace : Text.Ends ['}'] :=
    ⟨[], '}', rfl, by decide⟩
  exact (hBrace.append _).cons '{'

/- All values that have a literal end with it. -/
theorem ends_text
    {value : Value}
    (hValue : value ≠ .null) :
    Text.Ends value.text.toList := by
  cases value with
  | null => exact absurd rfl hValue
  | bool value =>
      have hBare := bareBefore_of_bool value
      exact Text.ends_of_trimmed hBare.nonempty hBare.trimmed
  | int value =>
      have hBare := bareBefore_of_int value.toInt
      rw [text_int]
      exact Text.ends_of_trimmed hBare.nonempty hBare.trimmed
  | uint value =>
      have hBare := bareBefore_of_int value.toNat
      rw [text_uint]
      exact Text.ends_of_trimmed hBare.nonempty hBare.trimmed
  | string value =>
      unfold text Text.quoted
      rw [String.toList_ofList]
      exact ⟨_, '"', rfl, by decide⟩
  | slice items =>
      rw [toList_text_slice]
      exact ends_groupText _ _
  | map entries =>
      rw [toList_text_map]
      exact ends_groupText _ _

end Value

namespace Marker

open Literal

------------------------------------------------------------
-- Values
------------------------------------------------------------

variable {text marker : String}
variable {definition? : Option Definition}

/- A spelling of a value is read before a comma or the end. -/
theorem scanDeclaredBy_spelling
    {parameter? : Option Parameter}
    {value : Value}
    {spelling rest : List Char}
    (hSpells :
      Value.Spells (declared parameter?) value spelling)
    (hBounds :
      ∀ parameter, parameter? = some parameter →
        parameter.checkBounds value 0 = .ok ())
    (hRest : StopsAt elementStops rest)
    {cursor : Cursor}
    (hAhead :
      Text.trimStart cursor.ahead =
        Text.trimStart (spelling ++ rest)) :
    ∃ place,
      scanDeclaredBy seesColon parameter? cursor =
          .ok value place ∧
        Text.trimStart place.ahead = Text.trimStart rest := by
  have hBefore :
      Text.trimStart cursor.skipBlanks.ahead =
        Text.trimStart (spelling ++ rest) := by
    rw [Cursor.skipBlanks_ahead, ← hAhead]
    exact Text.trimStart_trimStart _
  rcases hSpells.reads
      (cursor.skipBlanks.ahead.length + 1) .group
      Value.null rest cursor.skipBlanks.ahead hRest hBefore
      (Nat.lt_succ_self _) with
    ⟨after, hTakes, hAfter⟩
  rcases hTakes.collect cursor.skipBlanks rfl with
    ⟨place, hValue, hPlace⟩
  refine ⟨place, ?_, by rw [hPlace, hAfter]⟩
  apply scanDeclaredBy_eq_ok.mpr
  rw [Descriptor.fillBy_seesColon]
  refine ⟨hValue, ?_⟩
  intro parameter hParameter
  exact checkBounds_elsewhere (hBounds parameter hParameter)
    _

/-
  The value of an argument suits what is declared of it, or,
  where nothing is declared, it is found out from its text.
-/
def Suits
    (definition? : Option Definition)
    (argument : String × Value) : Prop :=
  match definition? with
  | none => argument.2.Inferable
  | some definition =>
      ∃ parameter,
        definition.parameter? argument.1 = some parameter ∧
          parameter.descriptor.RawFree ∧
            Value.Fits parameter.descriptor argument.2 ∧
              parameter.checkBounds argument.2 0 = .ok ()

theorem Suits.ne_null
    {argument : String × Value}
    (hSuits : Suits definition? argument) :
    argument.2 ≠ .null := by
  cases definition? with
  | none => exact Value.Inferable.ne_null hSuits
  | some definition =>
      rcases hSuits with ⟨_, _, _, hFits, _⟩
      exact hFits.ne_null

/- The written form of a value that suits is read back. -/
theorem scanNamedBy_text
    {argument : String × Value}
    (hSuits : Suits definition? argument)
    (hNonempty : argument.1 ≠ "")
    {rest : List Char}
    (hRest : StopsAt elementStops rest)
    {cursor : Cursor}
    (hAhead :
      Text.trimStart cursor.ahead =
        Text.trimStart
          (argument.2.text.toList ++ rest)) :
    ∃ place,
      scanNamedBy seesColon text marker definition?
            argument.1 cursor =
          .ok argument.2 place ∧
        Text.trimStart place.ahead = Text.trimStart rest := by
  cases definition? with
  | none =>
      have hSpells :
          Value.Spells (declared none) argument.2
            argument.2.text.toList :=
        .any (Value.Inferable.spells_text hSuits false)
      rcases scanDeclaredBy_spelling hSpells nofun hRest
          hAhead with
        ⟨place, hRun, hPlace⟩
      refine ⟨place, ?_, hPlace⟩
      rw [scanNamedBy_of_none hNonempty]
      exact hRun
  | some definition =>
      rcases hSuits with
        ⟨parameter, hFound, hRawFree, hFits, hBounds⟩
      have hPasses :
          ∀ other, some parameter = some other →
            other.checkBounds argument.2 0 = .ok () := by
        rintro _ ⟨⟩
        exact hBounds
      have hSpells :
          Value.Spells (declared (some parameter)) argument.2
            argument.2.text.toList :=
        hFits.spells_text hRawFree
      rcases scanDeclaredBy_spelling hSpells hPasses hRest
          hAhead with
        ⟨place, hRun, hPlace⟩
      refine ⟨place, ?_, hPlace⟩
      rw [scanNamedBy_of_declared hNonempty hFound]
      exact hRun

------------------------------------------------------------
-- Arguments
------------------------------------------------------------

/-
  What may stand around the comma before the name of an
  argument and around the sign after it.
-/
structure Gaps where
  beforeComma : List Char
  afterComma : List Char
  beforeSign : List Char
  afterSign : List Char
  blank :
    Text.Blank beforeComma ∧ Text.Blank afterComma ∧
      Text.Blank beforeSign ∧ Text.Blank afterSign

/- The comma, the name and the sign before a value. -/
def Gaps.label
    (gaps : Gaps)
    (name : String)
    (rest : List Char) : List Char :=
  gaps.beforeComma ++ ',' ::
    (gaps.afterComma ++
      (name.toList ++
        (gaps.beforeSign ++ '=' ::
          (gaps.afterSign ++ rest))))

theorem Gaps.trimStart_label
    (gaps : Gaps)
    (name : String)
    (rest : List Char) :
    Text.trimStart (gaps.label name rest) =
      ',' ::
        (gaps.afterComma ++
          (name.toList ++
            (gaps.beforeSign ++ '=' ::
              (gaps.afterSign ++ rest)))) := by
  unfold label
  rw [Text.trimStart_append_of_blank gaps.blank.1,
    Text.trimStart_cons (by decide)]

theorem Gaps.ends_label
    (gaps : Gaps)
    (name : String)
    {rest : List Char}
    (hRest : Text.Ends rest) :
    Text.Ends (gaps.label name rest) := by
  have hValue := (hRest.append gaps.afterSign).cons '='
  have hName :=
    (hValue.append gaps.beforeSign).append name.toList
  exact ((hName.append gaps.afterComma).cons ',').append
    gaps.beforeComma

/- An argument is read from its label and its value. -/
theorem nextArgumentBy_label
    {argument : String × Value}
    (hSuits : Suits definition? argument)
    (hName : IsName argument.1)
    (hNonempty : argument.1 ≠ "")
    (gaps : Gaps)
    {rest : List Char}
    (hRest : StopsAt elementStops rest)
    {cursor : Cursor}
    (hAhead :
      Text.trimStart cursor.ahead =
        Text.trimStart
          (gaps.label argument.1
            (argument.2.text.toList ++ rest))) :
    ∃ place,
      nextArgumentBy seesColon text marker definition?
            cursor =
          .ok (some argument) place ∧
        Text.trimStart place.ahead = Text.trimStart rest := by
  rcases gaps.blank with
    ⟨_, hAfterComma, hBeforeSign, hAfterSign⟩
  rw [gaps.trimStart_label] at hAhead
  rcases nextArgumentBy_of_label hName hAfterComma hBeforeSign
      hAhead with
    ⟨start, hStart, hNext⟩
  have hValue :
      Text.trimStart start.ahead =
        Text.trimStart
          (argument.2.text.toList ++ rest) := by
    rw [hStart, Text.trimStart_append_of_blank hAfterSign]
  rcases scanNamedBy_text hSuits hNonempty hRest hValue with
    ⟨place, hRead, hPlace⟩
  exact ⟨place, hNext argument.2 place hRead, hPlace⟩

/- The text of the arguments after the first one. -/
inductive Continues :
    List (String × Value) → List Char → Prop
  | nil : Continues [] []
  | cons
      {argument : String × Value}
      {later : List (String × Value)}
      {rest : List Char}
      (gaps : Gaps)
      (hLater : Continues later rest) :
      Continues (argument :: later)
        (gaps.label argument.1
          (argument.2.text.toList ++ rest))

/- What comes after a value begins with a comma, or is empty. -/
theorem Continues.stops
    {arguments : List (String × Value)}
    {rest : List Char}
    (hRest : Continues arguments rest) :
    StopsAt elementStops rest := by
  cases hRest with
  | nil => rintro c ⟨⟩
  | cons gaps =>
      intro c hHead
      rw [gaps.trimStart_label] at hHead
      cases hHead
      decide

theorem Continues.ends
    {arguments : List (String × Value)}
    {rest : List Char}
    (hRest : Continues arguments rest)
    (hSuits : ∀ argument ∈ arguments,
      Suits definition? argument)
    {front : List Char}
    (hFront : Text.Ends front) :
    Text.Ends (front ++ rest) := by
  induction hRest generalizing front with
  | nil =>
      rw [List.append_nil]
      exact hFront
  | cons gaps _ ih =>
      rcases List.forall_mem_cons.mp hSuits with
        ⟨hFirst, hLater⟩
      have hValue := Value.ends_text hFirst.ne_null
      exact (gaps.ends_label _ (ih hLater hValue)).append front

/-
  The arguments after the first one are read, one in a round,
  and put to those that were read before.
-/
theorem rounds_of_continues
    {arguments : List (String × Value)}
    {rest : List Char}
    (hRest : Continues arguments rest)
    (hNames : ∀ argument ∈ arguments,
      IsName argument.1 ∧ argument.1 ≠ "")
    (hDistinct : (arguments.map Prod.fst).Nodup)
    (hSuits : ∀ argument ∈ arguments,
      Suits definition? argument)
    {cursor : Cursor}
    (hAhead :
      Text.trimStart cursor.ahead = Text.trimStart rest)
    (read : Arguments) :
    ∃ result final,
      argumentRounds
            (nextArgumentBy seesColon text marker definition?)
            (arguments.length + 1) read cursor =
          .ok result final ∧
        ∀ name,
          result.get? name =
            (arguments.lookup name).or (read.get? name) := by
  induction hRest generalizing cursor read with
  | nil =>
      have hEnd : cursor.skipBlanks.ahead = [] := by
        rw [Cursor.skipBlanks_ahead]
        exact hAhead
      exact ⟨read, cursor.skipBlanks,
        argumentRounds_of_end hEnd _ read, fun name => rfl⟩
  | @cons argument later rest gaps hLater ih =>
      rcases List.forall_mem_cons.mp hNames with
        ⟨⟨hName, hNonempty⟩, hNamesLater⟩
      rcases List.forall_mem_cons.mp hSuits with
        ⟨hSuitsFirst, hSuitsLater⟩
      rw [List.map_cons, List.nodup_cons] at hDistinct
      rcases nextArgumentBy_label hSuitsFirst hName hNonempty
          gaps hLater.stops hAhead with
        ⟨place, hNext, hPlace⟩
      rcases ih hNamesLater hDistinct.2 hSuitsLater hPlace
          (read.insert argument.1 argument.2) with
        ⟨result, final, hRun, hResult⟩
      refine ⟨result, final, ?_, ?_⟩
      · rw [List.length_cons, argumentRounds_of_some hNext]
        exact hRun
      · intro name
        rcases argument with ⟨first, value⟩
        rw [hResult name, Entries.get?_insert]
        exact lookup_or_insert hDistinct.1 name _

/- All arguments of a line are read. -/
theorem scanArgumentsBy_continues
    {argument : String × Value}
    {later : List (String × Value)}
    {rest : List Char}
    (hRest : Continues later rest)
    (hNames : ∀ other ∈ argument :: later,
      IsName other.1 ∧ other.1 ≠ "")
    (hDistinct : ((argument :: later).map Prod.fst).Nodup)
    (hSuits : ∀ other ∈ argument :: later,
      Suits definition? other)
    {cursor : Cursor}
    (hAhead :
      cursor.ahead = argument.2.text.toList ++ rest) :
    ∃ result final,
      scanArgumentsBy seesColon text marker definition?
            argument.1 cursor =
          .ok result final ∧
        ∀ name,
          result.get? name =
            (argument :: later).lookup name := by
  rcases List.forall_mem_cons.mp hNames with
    ⟨⟨_, hNonempty⟩, hNamesLater⟩
  rcases List.forall_mem_cons.mp hSuits with
    ⟨hSuitsFirst, hSuitsLater⟩
  rw [List.map_cons, List.nodup_cons] at hDistinct
  rcases scanNamedBy_text hSuitsFirst hNonempty hRest.stops
      (congrArg Text.trimStart hAhead) with
    ⟨place, hValue, hPlace⟩
  rcases rounds_of_continues hRest hNamesLater hDistinct.2
      hSuitsLater hPlace
      (Entries.empty.insert argument.1 argument.2) with
    ⟨result, final, hRounds, hResult⟩
  refine ⟨result, final, ?_, ?_⟩
  · apply scanArgumentsBy_eq_ok.mpr
    exact ⟨argument.2, place, hValue,
      rounds_suffice hRounds (Nat.lt_succ_self _)⟩
  · intro name
    rcases argument with ⟨first, value⟩
    rw [hResult name, Entries.get?_insert,
      Entries.get?_empty, lookup_or_insert hDistinct.1,
      Option.or_none]

------------------------------------------------------------
-- Lines
------------------------------------------------------------

/-
  The text of a marker with its arguments. The name of the
  first argument may be left out if it is `Value` and if the
  name of the marker cannot be taken for more than that.
-/
inductive Writes
    (registry : Registry)
    (name : String) :
    List (String × Value) → List Char → Prop
  | flag : Writes registry name [] ('+' :: name.toList)
  | unnamed
      {value : Value}
      {later : List (String × Value)}
      {rest : List Char}
      (hWhole :
        (registry.lookup? name).isSome ∨
          ':' ∉ name.toList)
      (hLater : Continues later rest) :
      Writes registry name ((valueName, value) :: later)
        ('+' ::
          (name.toList ++ '=' ::
            (value.text.toList ++ rest)))
  | named
      {first : String}
      {value : Value}
      {later : List (String × Value)}
      {rest : List Char}
      (hColon : ':' ∉ first.toList)
      (hFree :
        registry.lookup? (name ++ ":" ++ first) = none)
      (hLater : Continues later rest) :
      Writes registry name ((first, value) :: later)
        ('+' ::
          ((name.toList ++ ':' :: first.toList) ++ '=' ::
            (value.text.toList ++ rest)))

/-
  The marker is named, its arguments can be told from each
  other, and they are as its definition wants them.
-/
structure Admits
    (registry : Registry)
    (name : String)
    (arguments : List (String × Value)) : Prop where
  isName : IsName name
  nonempty : name ≠ ""
  names :
    ∀ argument ∈ arguments,
      IsName argument.1 ∧ argument.1 ≠ ""
  distinct : (arguments.map Prod.fst).Nodup
  suits :
    ∀ argument ∈ arguments,
      Suits (registry.lookup? name) argument
  required :
    ∀ definition,
      registry.lookup? name = some definition →
        ∀ parameter ∈ definition.parameters,
          parameter.required = true →
            parameter.name ∈ arguments.map Prod.fst

section Written

variable {registry : Registry}
variable {name : String}
variable {arguments : List (String × Value)}

/- Nothing is missing where all that was written is read. -/
theorem Admits.missing?_eq_none
    (hAdmits : Admits registry name arguments)
    {read : Arguments}
    (hRead : ∀ key, read.get? key = arguments.lookup key) :
    missing? (registry.lookup? name) read = none := by
  cases hFound : registry.lookup? name with
  | none => rfl
  | some definition =>
      apply missing?_eq_none_iff.mpr
      intro parameter hMember hRequired
      have hWritten :=
        hAdmits.required definition hFound parameter hMember
          hRequired
      rw [hRead, isSome_lookup_iff]
      exact hWritten

theorem Writes.ends
    (hAdmits : Admits registry name arguments)
    {text : List Char}
    (hText : Writes registry name arguments text) :
    Text.Ends text := by
  have hSuits := hAdmits.suits
  cases hText with
  | flag =>
      have hName : name.toList ≠ [] := by
        simpa using hAdmits.nonempty
      rcases List.eq_nil_or_concat name.toList with
        hNil | ⟨front, c, hConcat⟩
      · exact absurd hNil hName
      · rw [List.concat_eq_append] at hConcat
        have hChar := hAdmits.isName c (by simp [hConcat])
        exact Text.Ends.cons
          ⟨front, c, hConcat, isBlank_of_isNameChar hChar⟩ _
  | unnamed _ hLater | named _ _ hLater =>
      rcases List.forall_mem_cons.mp hSuits with
        ⟨hFirst, hOther⟩
      have hValue := Value.ends_text hFirst.ne_null
      exact (((hLater.ends hOther hValue).cons _).append
        _).cons _

/- Blanks at the ends of a line are not part of its text. -/
theorem trim_written
    (hAdmits : Admits registry name arguments)
    {front text back : List Char}
    (hText : Writes registry name arguments text)
    (hFront : Text.Blank front)
    (hBack : Text.Blank back) :
    Text.trim (front ++ text ++ back) = text := by
  have hStart : Text.trimStart text = text := by
    cases hText <;> exact Text.trimStart_cons (by decide) _
  rw [Text.trim_append_of_blank hBack]
  unfold Text.trim
  rw [Text.trimStart_append_of_blank hFront, hStart]
  exact (hText.ends hAdmits).trimEnd

/- A marker is read if its head is and all its arguments are. -/
theorem ofLine_of_head
    {argument : String × Value}
    {later : List (String × Value)}
    (hAdmits : Admits registry name (argument :: later))
    {token rest : List Char}
    (hToken : ∀ c ∈ token, isNameChar c = true)
    (hNonempty : token ≠ [])
    (hHead :
      splitHead registry token true =
        (name, some argument.1))
    (hRest : Continues later rest)
    {line : String}
    (hLine :
      Text.trim line.toList =
        '+' ::
          (token ++ '=' ::
            (argument.2.text.toList ++ rest))) :
    ∃ read,
      ofLine registry line =
          .ok ⟨name, read, .nowhere,
            String.ofList (Text.trim line.toList)⟩ ∧
        ∀ key,
          read.get? key = (argument :: later).lookup key := by
  rcases ofLineBy_of_head seesColon hLine hToken hNonempty
      hHead with
    ⟨cursor, hAhead, _, hRun⟩
  rcases scanArgumentsBy_continues hRest hAdmits.names
      hAdmits.distinct hAdmits.suits hAhead with
    ⟨read, final, hScan, hRead⟩
  refine ⟨read, ?_, hRead⟩
  rw [← ofLineBy_seesColon, hRun, hScan]
  exact complete_eq_ok_iff.mpr
    ⟨read, final, rfl, hAdmits.missing?_eq_none hRead, rfl⟩

/-
  A marker that is written on a line is read back from it,
  with its name and exactly its arguments.
-/
theorem ofLine_written
    (hAdmits : Admits registry name arguments)
    {front text back : List Char}
    (hText : Writes registry name arguments text)
    (hFront : Text.Blank front)
    (hBack : Text.Blank back)
    {line : String}
    (hLine : line.toList = front ++ text ++ back) :
    ∃ read,
      ofLine registry line =
          .ok ⟨name, read, .nowhere,
            String.ofList (Text.trim line.toList)⟩ ∧
        ∀ key, read.get? key = arguments.lookup key := by
  have hTrim := trim_written hAdmits hText hFront hBack
  rw [← hLine] at hTrim
  have hName : name.toList ≠ [] := by
    simpa using hAdmits.nonempty
  cases hText with
  | flag =>
      rcases ofLineBy_of_flag seesColon hTrim hAdmits.isName
          hName with
        ⟨place, hRun⟩
      have hRead :
          ∀ key, (Entries.empty : Arguments).get? key =
            List.lookup key [] :=
        fun key => rfl
      refine ⟨Entries.empty, ?_, hRead⟩
      rw [← ofLineBy_seesColon, hRun, String.ofList_toList]
      unfold complete
      dsimp only
      rw [hAdmits.missing?_eq_none hRead]
      rfl
  | unnamed hWhole hLater =>
      exact ofLine_of_head hAdmits hAdmits.isName hName
        (splitHead_whole hWhole) hLater hTrim
  | named hColon hFree hLater =>
      rcases List.forall_mem_cons.mp hAdmits.names with
        ⟨⟨hFirst, _⟩, _⟩
      exact ofLine_of_head hAdmits
        (isNameChar_of_mem_token hAdmits.isName hFirst)
        (by simp) (splitHead_token hColon hFree) hLater hTrim

end Written

/- A byte, and a map whose values are found out. -/
theorem ofLine_written_byte_and_map :
    let definition : Definition :=
      ⟨"m", none,
        [⟨"A", .plain .unsigned, true, some (.unsigned 8)⟩,
          ⟨"b:c", .nested .map (.plain .any), true, none⟩]⟩
    let value : Value :=
      .map [("k", .slice [.bool true, .string "x,y"])]
    ∃ read,
      ofLine (Registry.empty.register definition).2
            " +m:A=255 ,b:c\t=\x7b\"k\":\x7btrue,\"x,y\"\x7d\x7d " =
          .ok ⟨"m", read, .nowhere,
            "+m:A=255 ,b:c\t=\x7b\"k\":\x7btrue,\"x,y\"\x7d\x7d"⟩ ∧
        read.get? "A" = some (.int 255) ∧
          read.get? "b:c" = some value := by
  intro definition value
  have hValue : Value.Fits (.nested .map (.plain .any)) value := by
    refine .map (List.pairwise_singleton _ _) ?_
    intro entry hEntry
    cases List.mem_singleton.mp hEntry
    refine .any (.slice ?_)
    intro item hItem
    rcases List.mem_pair.mp hItem with rfl | rfl
    · exact .bool true
    · exact .string "x,y"
  let arguments : List (String × Value) :=
    [("A", .int 255), ("b:c", value)]
  have hAdmits :
      Admits (Registry.empty.register definition).2 "m"
        arguments := by
    refine ⟨by unfold IsName; decide, by decide,
      by unfold IsName; decide, by decide, ?_, ?_⟩
    · intro argument hArgument
      rcases List.mem_pair.mp hArgument with rfl | rfl
      · exact ⟨_, rfl, by decide, .unsigned (by decide), rfl⟩
      · exact ⟨_, rfl, by decide, hValue, rfl⟩
    · rintro _ ⟨⟩
      decide
  let gaps : Gaps :=
    ⟨[' '], [], ['\t'], [], by decide⟩
  let text : List Char :=
    '+' ::
      (("m".toList ++ ':' :: "A".toList) ++ '=' ::
        ((Value.int 255).text.toList ++
          gaps.label "b:c" (value.text.toList ++ [])))
  have hText :
      Writes (Registry.empty.register definition).2 "m"
        arguments text :=
    .named (by decide) rfl (.cons gaps .nil)
  have hBlank : Text.Blank [' '] := by decide
  have hLine :
      " +m:A=255 ,b:c\t=\x7b\"k\":\x7btrue,\"x,y\"\x7d\x7d ".toList =
        [' '] ++ text ++ [' '] := by
    decide +kernel
  rcases ofLine_written hAdmits hText hBlank hBlank hLine with
    ⟨read, hRun, hRead⟩
  exact ⟨read, hRun, hRead "A", hRead "b:c"⟩

end Marker

end Marginalia
