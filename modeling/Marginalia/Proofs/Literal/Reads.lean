import Marginalia.Proofs.Integers
import Marginalia.Proofs.Literal.Groups

/-
  The grammars read the spellings of scalars, and groups of
  items or entries whose spellings are read.

  Key definitions include:
    * `Literal.ItemReader.Reads`

  Main statements:
    * `Literal.takes_fillSlice`
    * `Literal.takes_fillMap`
    * `Literal.takes_fillBool`
    * `Literal.takes_fillSigned`
    * `Literal.takes_fillUnsigned`
-/

namespace Marginalia

namespace Literal

------------------------------------------------------------
-- What Begins
------------------------------------------------------------

theorem begins_of_cons
    {c : Char}
    {rest : List Char}
    (hOther : Text.isBlank c = false)
    (hText : c ∉ Scan.delimiters) :
    Begins (c :: rest) :=
  ⟨c, rest, Text.trimStart_cons hOther rest, hText⟩

theorem Begins.append
    {text : List Char}
    (hText : Begins text)
    (back : List Char) :
    Begins (text ++ back) := by
  have hSplit := hText.opens.trimStart_append back
  rcases hText with ⟨c, rest, hTrim, hBegins⟩
  rw [hTrim] at hSplit
  exact ⟨c, rest ++ back, hSplit, hBegins⟩

theorem Begins.pad
    {front text : List Char}
    (hFront : Text.Blank front)
    (hText : Begins text)
    (back : List Char) :
    Begins (front ++ text ++ back) := by
  rcases hText.append back with ⟨c, rest, hTrim, hBegins⟩
  refine ⟨c, rest, ?_, hBegins⟩
  rw [List.append_assoc,
    Text.trimStart_append_of_blank hFront, hTrim]

theorem BareBefore.begins
    {stops text : List Char}
    (hText : BareBefore stops text)
    (hStops : ∀ c ∈ Scan.delimiters, c ∈ stops) :
    Begins text := by
  have hTrim := hText.trimStart []
  rw [List.append_nil] at hTrim
  cases hList : text with
  | nil => exact absurd hList hText.nonempty
  | cons c rest =>
      subst hList
      refine begins_of_cons
        (Text.isBlank_head_trimStart hTrim) ?_
      intro hMember
      exact hText.noStop c List.mem_cons_self
        (hStops c hMember)

theorem SpellsString.begins
    {bare : List Char → Prop}
    {stops : List Char}
    (hStops : ∀ c ∈ Scan.delimiters, c ∈ stops)
    (hBefore : ∀ text, bare text → BareBefore stops text)
    {value : String}
    {text : List Char}
    (hText : SpellsString bare value text) :
    Begins text := by
  induction hText with
  | quoted =>
      rw [Text.toList_quoted]
      exact begins_of_cons (by decide) (by decide)
  | backtick => exact begins_of_cons (by decide) (by decide)
  | bare hValue => exact (hBefore _ hValue).begins hStops
  | pad hFront _ _ ih => exact ih.pad hFront _

/- A group begins with its brace. -/
theorem begins_groupText
    (blanks : List Char)
    (texts : List (List Char)) :
    Begins (groupText blanks texts) :=
  begins_of_cons (by decide) (by decide)

------------------------------------------------------------
-- Items and Entries
------------------------------------------------------------

/-
  The reader makes the value of the text wherever a stop of
  the frame follows, if it has fewer characters ahead than
  the bound.
-/
def ItemReader.Reads
    (item : ItemReader)
    (bound : Nat)
    (text : List Char)
    (value : Value) : Prop :=
  ∀ (frame : Frame) (content : Target.dynamic.Content)
      (rest before : List Char),
    StopsAt (itemStops frame) rest →
      Text.trimStart before = Text.trimStart (text ++ rest) →
        before.length < bound →
          ∃ after,
            Fill.Takes (item frame .dynamic) before content ()
                after value ∧
              Text.trimStart after = Text.trimStart rest

variable {item : ItemReader}
variable {bound : Nat}

/- An item is read into the place that is new. -/
theorem takes_fillItem_of_pushItem
    {target : Target}
    {frame : Frame}
    {content pushed : target.Content}
    {child : Child target}
    {content' : child.inner.Content}
    {before after : List Char}
    (hPush : target.pushItem content = .ok child pushed)
    (hItem :
      Fill.Takes (item frame child.inner) before
        child.inner.fresh () after content') :
    Fill.Takes (fillItem item frame target) before content
      () after (child.put content') := by
  refine .position fun start => ?_
  apply (Fill.Takes.store hPush).bind
  intro cursor hAhead
  rcases hItem cursor hAhead with ⟨cursor', hRun, hCursor⟩
  exact ⟨cursor', Fill.run_within_of_ok hRun _, hCursor⟩

/- An item is appended to a slice. -/
theorem takes_fillItem
    {frame : Frame}
    {value : Value}
    {before after : List Char}
    (hItem :
      Fill.Takes (item frame .dynamic) before Value.null ()
        after value)
    (items : List Value) :
    Fill.Takes (fillItem item frame .dynamic) before
      (Value.slice items) () after
      (Value.slice (items ++ [value])) := by
  have hPush :
      Target.dynamic.pushItem (Value.slice items) =
        .ok (itemPlace items)
          (Value.slice (items ++ [Value.null])) :=
    rfl
  exact takes_fillItem_of_pushItem hPush hItem

theorem readsElement_of_pushItem
    {target : Target}
    {content pushed : target.Content}
    {child : Child target}
    {content' : child.inner.Content}
    {text : List Char}
    (hPush : target.pushItem content = .ok child pushed)
    (hItem :
      Fill.ReadsElement (item .group child.inner) bound text
        child.inner.fresh content') :
    Fill.ReadsElement (fillItem item .group target) bound
      text content (child.put content') := by
  intro rest hRest hLength
  rcases hItem rest hRest hLength with
    ⟨after, hTakes, hAfter⟩
  exact ⟨after, takes_fillItem_of_pushItem hPush hTakes,
    hAfter⟩

/- An item that may fail is read at a new place. -/
theorem onlyReads_fillItem
    {target : Target}
    {text : List Char}
    {holds : Prop}
    (hItem : ∀ child : Child target,
      Fill.OnlyReads (item .group child.inner) text holds) :
    Fill.OnlyReads (fillItem item .group target) text
      holds := by
  intro rest hRest
  refine .positionFill fun start => ?_
  have hPush :
      OnlyTakes Prod.fst
        (Fill.store target.pushItem "" start)
        (Text.trimStart (text ++ rest))
        fun _ after =>
          after = Text.trimStart (text ++ rest) :=
    .store fun _ => rfl
  refine hPush.bind ?_
  rintro child _ rfl
  exact .within (hItem child rest hRest)

theorem readsElement_fillItem
    {text : List Char}
    {value : Value}
    (hItem : item.Reads bound text value)
    (items : List Value) :
    Fill.ReadsElement (fillItem item .group .dynamic) bound
      text (Value.slice items)
      (Value.slice (items ++ [value])) := by
  intro rest hRest hLength
  rcases hItem .group Value.null rest _ hRest
    (Text.trimStart_trimStart _) hLength with
    ⟨after, hTakes, hAfter⟩
  exact ⟨after, takes_fillItem hTakes items, hAfter⟩

theorem readsElements_items
    {pieces : List (Value × List Char)}
    (hBegins : ∀ piece ∈ pieces, Begins piece.2)
    (hReads : ∀ piece ∈ pieces,
      item.Reads bound piece.2 piece.1)
    (items : List Value) :
    Fill.ReadsElements (fillItem item .group .dynamic) bound
      (pieces.map Prod.snd) (Value.slice items)
      (Value.slice (items ++ pieces.map Prod.fst)) := by
  induction pieces generalizing items with
  | nil =>
      rw [List.map_nil, List.map_nil, List.append_nil]
      exact .nil _
  | cons piece pieces ih =>
      have hRest := ih
        (fun other hMember =>
          hBegins other (List.mem_cons_of_mem _ hMember))
        (fun other hMember =>
          hReads other (List.mem_cons_of_mem _ hMember))
        (items ++ [piece.1])
      rw [List.append_assoc] at hRest
      exact .cons (hBegins piece List.mem_cons_self).opens
        (readsElement_fillItem
          (hReads piece List.mem_cons_self) items)
        hRest

/- At a brace a slice is a group. -/
theorem takes_fillSlice_group
    {target : Target}
    {content begun content' : target.Content}
    {frame : Frame}
    {before after : List Char}
    (hBegin : target.beginSlice content = .ok () begun)
    (hOpen : before.head? = some '{')
    (hGroup :
      Fill.Takes (Fill.group (fillItem item .group target))
        before begun () after content') :
    Fill.Takes (fillSlice item frame target) before content
      () after content' := by
  rw [fillSlice_eq]
  refine .position fun start => ?_
  apply (Fill.Takes.store hBegin).bind
  apply (Fill.Takes.lift .peek).bind
  rw [hOpen]
  exact hGroup

theorem onlyTakes_fillSlice_group
    {target : Target}
    {frame : Frame}
    {before : List Char}
    {post : Unit → List Char → Prop}
    (hOpen : before.head? = some '{')
    (hGroup :
      OnlyTakes Prod.fst
        (Fill.group (fillItem item .group target)) before
        post) :
    OnlyTakes Prod.fst (fillSlice item frame target) before
      post := by
  rw [fillSlice_eq]
  refine .positionFill fun start => ?_
  have hBegin :
      OnlyTakes Prod.fst
        (Fill.store target.beginSlice "" start) before
        fun _ after => after = before :=
    .store fun _ => rfl
  refine hBegin.bind ?_
  rintro _ _ rfl
  refine .takesFill .peek ?_
  rw [hOpen]
  exact hGroup

/- A spelled group of items is a slice. -/
theorem takes_fillSlice
    {pieces : List (Value × List Char)}
    {blanks : List Char}
    (hBlanks : Text.Blank blanks)
    (hBegins : ∀ piece ∈ pieces, Begins piece.2)
    (hReads : ∀ piece ∈ pieces,
      item.Reads bound piece.2 piece.1)
    (frame : Frame)
    (content : Target.dynamic.Content)
    (rest : List Char)
    (hBound :
      (groupText blanks (pieces.map Prod.snd) ++
        rest).length ≤ bound) :
    Fill.Takes (fillSlice item frame .dynamic)
      (groupText blanks (pieces.map Prod.snd) ++ rest)
      content () rest
      (Value.slice (pieces.map Prod.fst)) := by
  have hGroup :=
    Fill.takes_group hBlanks
      (readsElements_items hBegins hReads []) rest hBound
  exact takes_fillSlice_group rfl rfl hGroup

/- An entry is put into a map. -/
theorem readsElement_fillEntry
    {bare : List Char → Prop}
    (hBefore : ∀ text, bare text → BareBefore keyStops text)
    {entry : SpelledEntry}
    (hKey : SpellsString bare entry.key entry.keyText)
    (hReads : item.Reads bound entry.valueText entry.value)
    (entries : List (String × Value)) :
    Fill.ReadsElement (fillEntry item .dynamic) bound
      entry.text (Value.map entries)
      (Value.map
        (insertByKey entry.key entry.value entries)) := by
  intro rest hRest hLength
  have hColon :
      Text.trimStart (':' :: (entry.valueText ++ rest)) =
        ':' :: (entry.valueText ++ rest) :=
    Text.trimStart_cons (by decide) _
  have hStops :
      StopsAt keyStops (':' :: (entry.valueText ++ rest)) := by
    unfold StopsAt
    rw [hColon]
    rintro _ ⟨⟩
    decide
  have hSplit :
      entry.text ++ rest =
        entry.keyText ++
          ':' :: (entry.valueText ++ rest) := by
    unfold SpelledEntry.text
    rw [List.append_assoc]
    rfl
  have hBegins := hKey.begins (by decide) hBefore
  have hShorter :
      (entry.valueText ++ rest).length < bound := by
    rw [hSplit, hBegins.opens.trimStart_append,
      List.length_append, List.length_cons] at hLength
    omega
  rcases hKey.takes (by decide) hBefore hStops with
    ⟨middle, hTakesKey, hMiddle⟩
  rcases hReads .group Value.null rest _ hRest rfl hShorter
    with ⟨after, hTakes, hAfter⟩
  refine ⟨after, ?_, hAfter⟩
  rw [fillEntry_eq, hSplit]
  refine .position fun keyStart => ?_
  apply (Fill.Takes.lift hTakesKey).bind
  apply (Fill.Takes.lift .skipBlanks).bind
  rw [hMiddle, hColon]
  refine .position fun colonStart => ?_
  apply (Fill.Takes.lift .eat).bind
  intro cursor hAhead
  rcases hTakes cursor hAhead with ⟨cursor', hRun, hCursor⟩
  refine ⟨cursor', ?_, hCursor⟩
  show Fill.within (entryPlace entry.key entries)
    (item .group .dynamic) (cursor, Value.null) = _
  exact Fill.run_within_of_ok hRun _

theorem readsElements_entries
    {bare : List Char → Prop}
    (hBefore : ∀ text, bare text → BareBefore keyStops text)
    {spelled : List SpelledEntry}
    (hKeys : ∀ entry ∈ spelled,
      SpellsString bare entry.key entry.keyText)
    (hReads : ∀ entry ∈ spelled,
      item.Reads bound entry.valueText entry.value)
    (entries : List (String × Value)) :
    Fill.ReadsElements (fillEntry item .dynamic) bound
      (spelled.map SpelledEntry.text) (Value.map entries)
      (Value.map
        (insertAll entries
          (spelled.map SpelledEntry.denoted))) := by
  induction spelled generalizing entries with
  | nil => exact .nil _
  | cons entry spelled ih =>
      have hKey := hKeys entry List.mem_cons_self
      have hRest := ih
        (fun other hMember =>
          hKeys other (List.mem_cons_of_mem _ hMember))
        (fun other hMember =>
          hReads other (List.mem_cons_of_mem _ hMember))
        (insertByKey entry.key entry.value entries)
      have hBegins :=
        (hKey.begins (by decide) hBefore).append
          (':' :: entry.valueText)
      exact .cons hBegins.opens
        (readsElement_fillEntry hBefore hKey
          (hReads entry List.mem_cons_self) entries)
        hRest

/- The entries that are denoted are those that are inserted. -/
theorem Denotes.insertAll_eq
    {spelled : List SpelledEntry}
    {entries : List (String × Value)}
    (hEntries : Denotes spelled entries) :
    insertAll [] (spelled.map SpelledEntry.denoted) =
      entries := by
  refine AscendingKeys.ext
    (AscendingKeys.insertAll _ List.Pairwise.nil)
    hEntries.ascending ?_
  intro key
  rw [lookup_insertAll, hEntries.last key, List.lookup_nil,
    Option.or_none]

/- A spelled group of entries is a map. -/
theorem takes_fillMap
    {bare : List Char → Prop}
    (hBefore : ∀ text, bare text → BareBefore keyStops text)
    {spelled : List SpelledEntry}
    {entries : List (String × Value)}
    {blanks : List Char}
    (hBlanks : Text.Blank blanks)
    (hKeys : ∀ entry ∈ spelled,
      SpellsString bare entry.key entry.keyText)
    (hReads : ∀ entry ∈ spelled,
      item.Reads bound entry.valueText entry.value)
    (hEntries : Denotes spelled entries)
    (content : Target.dynamic.Content)
    (rest : List Char)
    (hBound :
      (groupText blanks (spelled.map SpelledEntry.text) ++
        rest).length ≤ bound) :
    Fill.Takes (fillMap item .dynamic)
      (groupText blanks (spelled.map SpelledEntry.text) ++
        rest)
      content () rest (Value.map entries) := by
  have hGroup :=
    Fill.takes_group hBlanks
      (readsElements_entries hBefore hKeys hReads [])
      rest hBound
  rw [hEntries.insertAll_eq] at hGroup
  have hBegin :
      Target.dynamic.beginMap content =
        .ok () (Value.map []) :=
    rfl
  rw [fillMap_eq]
  refine .position fun start => ?_
  apply (Fill.Takes.lift .peek).bind
  exact (Fill.Takes.store hBegin).bind hGroup

------------------------------------------------------------
-- Blanks around Items
------------------------------------------------------------

/- Blanks in front of an item may be skipped twice. -/
theorem reads_of_skipBlanks
    {item : ItemReader}
    {bound : Nat}
    {text : List Char}
    {value : Value}
    (hItem : item.Reads bound text value) :
    ItemReader.Reads
      (fun frame target => do
        Scan.skipBlanks (σ := Cursor)
        item frame target)
      bound text value := by
  intro frame content rest before hRest hBefore hBound
  have hLength := Text.length_trimStart_le before
  rcases hItem frame content rest (Text.trimStart before)
    hRest
    (by rw [Text.trimStart_trimStart, hBefore])
    (by omega) with
    ⟨after, hTakes, hAfter⟩
  exact ⟨after,
    (Fill.Takes.lift .skipBlanks).bind hTakes, hAfter⟩

/- What stops a text stops it with blanks behind it. -/
theorem stopsAt_pad
    {stops back rest : List Char}
    (hBack : Text.Blank back)
    (hRest : StopsAt stops rest) :
    StopsAt stops (back ++ rest) := by
  unfold StopsAt
  rw [Text.trimStart_append_of_blank hBack]
  exact hRest

theorem trimStart_pad
    {front : List Char}
    (hFront : Text.Blank front)
    (text back rest : List Char) :
    Text.trimStart (front ++ text ++ back ++ rest) =
      Text.trimStart (text ++ (back ++ rest)) := by
  rw [List.append_assoc, List.append_assoc,
    Text.trimStart_append_of_blank hFront]

theorem reads_pad
    {item : ItemReader}
    {bound : Nat}
    {front text back : List Char}
    {value : Value}
    (hFront : Text.Blank front)
    (hText : item.Reads bound text value)
    (hBack : Text.Blank back) :
    item.Reads bound (front ++ text ++ back) value := by
  intro frame content rest before hRest hBefore hBound
  rw [trimStart_pad hFront] at hBefore
  rcases hText frame content _ before
    (stopsAt_pad hBack hRest) hBefore hBound with
    ⟨after, hTakes, hAfter⟩
  rw [Text.trimStart_append_of_blank hBack] at hAfter
  exact ⟨after, hTakes, hAfter⟩

------------------------------------------------------------
-- Scalars
------------------------------------------------------------

/- A word ends where a blank or a stop stands. -/
theorem not_isWordChar_of_stopsAt
    {rest : List Char}
    (hRest : StopsAt Scan.delimiters rest)
    {c : Char}
    (hHead : rest.head? = some c) :
    Text.isWordChar c = false := by
  by_cases hBlank : Text.isBlank c = true
  · exact Text.isWordChar_of_isBlank hBlank
  · rw [Bool.not_eq_true] at hBlank
    have hStop : c ∈ Scan.delimiters := by
      cases rest with
      | nil => cases hHead
      | cons d rest =>
          cases hHead
          apply hRest c
          rw [Text.trimStart_cons hBlank]
          rfl
    have hStops :
        ∀ d ∈ Scan.delimiters, Text.isWordChar d = false := by
      decide
    exact hStops c hStop

theorem isDigit_eq_false_of_stopsAt
    {rest : List Char}
    (hRest : StopsAt Scan.delimiters rest)
    {c : Char}
    (hHead : rest.head? = some c) :
    isDigit c = false := by
  have hWord := not_isWordChar_of_stopsAt hRest hHead
  unfold Text.isWordChar Text.isNumeral at hWord
  unfold isDigit
  simp only [Bool.or_eq_false_iff] at hWord
  exact hWord.1.2.1

theorem trimStart_bool
    (value : Bool)
    (rest : List Char) :
    Text.trimStart ((Value.bool value).text.toList ++ rest) =
      (Value.bool value).text.toList ++ rest := by
  cases value <;> exact Text.trimStart_cons (by decide) _

theorem storeBool_text
    (target : Target)
    (value : Bool)
    (start : Nat) :
    storeBool (σ := Cursor) target (Value.bool value).text
        start =
      Fill.store (target.setBool value)
        (Value.bool value).text start := by
  cases value <;> rfl

theorem takes_fillBool
    (value : Bool)
    {rest : List Char}
    (hRest : StopsAt Scan.delimiters rest)
    (content : Target.dynamic.Content) :
    Fill.Takes (fillBool .dynamic)
      ((Value.bool value).text.toList ++ rest) content ()
      rest (Value.bool value) := by
  have hWord :
      Scan.Takes Scan.word
        ((Value.bool value).text.toList ++ rest)
        (Value.bool value).text.toList rest := by
    refine .takeWhile_append ?_ ?_
    · cases value <;> decide
    · intro c hHead
      exact not_isWordChar_of_stopsAt hRest hHead
  rw [fillBool_eq]
  refine .position fun start => ?_
  apply (Fill.Takes.lift hWord).bind
  rw [String.ofList_toList, storeBool_text]
  exact .store rfl

/- The digits of a number are read up to what follows. -/
theorem takes_digits
    (n : Nat)
    {rest : List Char}
    (hRest : StopsAt Scan.delimiters rest) :
    Scan.Takes (Scan.takeWhile isDigit)
      (Nat.toDigits 10 n ++ rest) (Nat.toDigits 10 n)
      rest := by
  refine .takeWhile_append ?_ ?_
  · intro c hMember
    exact Nat.isDigit_of_mem_toDigits (by decide) (by decide)
      hMember
  · intro c hHead
    exact isDigit_eq_false_of_stopsAt hRest hHead

/- What holds of digits holds of the first digit. -/
theorem head_toDigits
    {p : Char → Prop}
    (hDigits : ∀ code ∈ List.range' 48 10,
      p (Char.ofNat code))
    (n : Nat)
    (rest : List Char)
    {c : Char}
    (hHead : (Nat.toDigits 10 n ++ rest).head? = some c) :
    p c := by
  have hMember : c ∈ Nat.toDigits 10 n := by
    cases hList : Nat.toDigits 10 n with
    | nil => exact absurd hList Nat.toDigits_ne_nil
    | cons d digits =>
        rw [hList] at hHead
        cases hHead
        exact List.mem_cons_self
  exact Text.forall_isDigit hDigits
    (Nat.isDigit_of_mem_toDigits (by decide) (by decide)
      hMember)

theorem trimStart_digits
    (n : Nat)
    (rest : List Char) :
    Text.trimStart (Nat.toDigits 10 n ++ rest) =
      Nat.toDigits 10 n ++ rest := by
  cases hList : Nat.toDigits 10 n ++ rest with
  | nil =>
      exact absurd (List.append_eq_nil_iff.mp hList).1
        Nat.toDigits_ne_nil
  | cons c tail =>
      refine Text.trimStart_cons ?_ tail
      refine head_toDigits
        (p := fun c => Text.isBlank c = false) (by decide) n
        rest ?_
      rw [hList]
      rfl

theorem trimStart_repr
    (n : Int)
    (rest : List Char) :
    Text.trimStart (n.repr.toList ++ rest) =
      n.repr.toList ++ rest := by
  rw [Value.toList_repr, List.append_assoc]
  split
  · exact Text.trimStart_cons (by decide) _
  · exact trimStart_digits _ rest

/- The digits after the sign denote the number. -/
theorem decimalValue_toDigits
    (n : Nat) :
    decimalValue (Nat.toDigits 10 n) = n :=
  Nat.ofDigitChars_ten_toDigits

/- A signed word is read back. -/
theorem takes_storeSigned
    (value : Int64)
    (start : Nat)
    (rest : List Char)
    (content : Target.dynamic.Content) :
    Fill.Takes
      (storeSigned .dynamic (value.toInt < 0)
        (Nat.toDigits 10 value.toInt.natAbs) start)
      rest content () rest (Value.int value) := by
  have hValue :
      signedValue (value.toInt < 0)
          (Nat.toDigits 10 value.toInt.natAbs) =
        value.toInt := by
    unfold signedValue
    rw [decimalValue_toDigits]
    split
    · rename_i hNegative
      have hLess := of_decide_eq_true hNegative
      omega
    · rename_i hNegative
      have hLess := of_decide_eq_false
        (Bool.not_eq_true _ ▸ hNegative)
      omega
  unfold storeSigned
  rw [hValue, if_pos (fitsSigned_toInt value),
    Int64.ofInt_toInt]
  exact .store rfl

theorem takes_fillSigned
    (value : Int64)
    {rest : List Char}
    (hRest : StopsAt Scan.delimiters rest)
    (content : Target.dynamic.Content) :
    Fill.Takes (fillSigned .dynamic)
      (value.toInt.repr.toList ++ rest) content () rest
      (Value.int value) := by
  have hDigits :=
    takes_digits value.toInt.natAbs hRest
  have hNonempty :
      (Nat.toDigits 10 value.toInt.natAbs).isEmpty ≠
        true := by
    rw [ne_eq, List.isEmpty_iff]
    exact Nat.toDigits_ne_nil
  have hSign :
      Scan.Takes (Scan.eat '-')
        (value.toInt.repr.toList ++ rest)
        (value.toInt < 0)
        (Nat.toDigits 10 value.toInt.natAbs ++ rest) := by
    rw [Value.toList_repr]
    by_cases hNegative : value.toInt < 0
    · rw [if_pos hNegative, decide_eq_true hNegative]
      exact .eat
    · rw [if_neg hNegative, decide_eq_false hNegative,
        List.nil_append]
      refine .eat_other ?_
      intro hHead
      exact head_toDigits (p := fun c => c ≠ '-')
        (by decide) _ rest hHead rfl
  rw [fillSigned_eq]
  refine .position fun start => ?_
  apply (Fill.Takes.lift hSign).bind
  refine .position fun digitsStart => ?_
  apply (Fill.Takes.lift hDigits).bind
  rw [if_neg hNonempty]
  exact takes_storeSigned value start rest content

/- An unsigned integer that fits a word is read back. -/
theorem takes_fillUnsigned
    (value : UInt64)
    {rest : List Char}
    (hRest : StopsAt Scan.delimiters rest)
    (content : Target.dynamic.Content) :
    Fill.Takes (fillUnsigned .dynamic)
      (Nat.toDigits 10 value.toNat ++ rest) content () rest
      (Value.ofUnsigned value) := by
  have hDigits := takes_digits value.toNat hRest
  have hNonempty :
      (Nat.toDigits 10 value.toNat).isEmpty ≠ true := by
    rw [ne_eq, List.isEmpty_iff]
    exact Nat.toDigits_ne_nil
  have hSign :
      (Nat.toDigits 10 value.toNat ++ rest).head? ≠
        some '-' := by
    intro hHead
    exact head_toDigits (p := fun c => c ≠ '-')
      (by decide) _ rest hHead rfl
  rw [fillUnsigned_eq]
  refine .position fun start => ?_
  apply (Fill.Takes.lift .peek).bind
  rw [if_neg hSign]
  apply (Fill.Takes.lift hDigits).bind
  rw [if_neg hNonempty]
  unfold storeUnsigned
  rw [decimalValue_toDigits,
    if_pos (fitsUnsigned_toNat value), UInt64.ofNat_toNat]
  exact .store rfl

end Literal

end Marginalia
