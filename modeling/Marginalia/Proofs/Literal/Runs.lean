import Marginalia.Proofs.Literal.Whole

/-
  The two spellings of a slice. A group of items is always
  read as the slice of them; a run `a;b;c` is read as it if
  its first item is not itself a group, and otherwise it is
  refused, since the brace of that item is taken for the brace
  of the whole.

  Key definitions include:
    * `Value.IsGroup`
    * `Literal.runText`

  Main statements:
    * `Literal.takes_fillSlice_run`
    * `Literal.onlyTakes_fillSlice_brace`
    * `Descriptor.reads_group_and_run`
-/

namespace Marginalia

namespace Literal

variable {item : ItemReader}
variable {frame : Frame}

------------------------------------------------------------
-- Runs
------------------------------------------------------------

/- Texts one after another, with semicolons between them. -/
def runText
    (texts : List (List Char)) : List Char :=
  [';'].intercalate texts

theorem runText_singleton
    (text : List Char) :
    runText [text] = text :=
  List.intercalate_singleton

theorem runText_cons_cons
    (first next : List Char)
    (texts : List (List Char)) :
    runText (first :: next :: texts) =
      first ++ ';' :: runText (next :: texts) := by
  unfold runText
  rw [List.intercalate_cons_cons, List.append_assoc]
  rfl

theorem exists_runText_cons
    (text : List Char)
    (texts : List (List Char)) :
    ∃ tail, runText (text :: texts) = text ++ tail := by
  cases texts with
  | nil =>
      refine ⟨[], ?_⟩
      rw [runText_singleton, List.append_nil]
  | cons next texts => exact ⟨_, runText_cons_cons _ _ _⟩

/- The items of a run, which may have blanks around them. -/
structure RunItem
    (item : ItemReader)
    (piece : Value × List Char) : Prop where
  begins : Begins piece.2
  reads : ∀ bound, item.Reads bound piece.2 piece.1

/- The item is read up to what stops it in a run. -/
theorem RunItem.takes
    {piece : Value × List Char}
    (hPiece : RunItem item piece)
    {rest before : List Char}
    (hRest : StopsAt Scan.delimiters rest)
    (hBefore :
      Text.trimStart before =
        Text.trimStart (piece.2 ++ rest))
    (items : List Value) :
    ∃ after,
      Fill.Takes (fillItem item .run .dynamic) before
          (Value.slice items) () after
          (Value.slice (items ++ [piece.1])) ∧
        Text.trimStart after = Text.trimStart rest := by
  rcases hPiece.reads (before.length + 1) .run Value.null
    rest before hRest hBefore (Nat.lt_succ_self _) with
    ⟨after, hTakes, hAfter⟩
  exact ⟨after, takes_fillItem hTakes items, hAfter⟩

/- The last item of a run has no semicolon behind it. -/
theorem RunItem.takes_last
    {piece : Value × List Char}
    (hPiece : RunItem item piece)
    (hFrame : frame ≠ .run)
    {rest before : List Char}
    (hRest : StopsAt elementStops rest)
    (hBefore :
      Text.trimStart before =
        Text.trimStart (piece.2 ++ rest))
    (items : List Value) :
    Fill.Takes (sliceRound item frame .dynamic) before
      (Value.slice items) false (Text.trimStart rest)
      (Value.slice (items ++ [piece.1])) := by
  have hElement : StopsAt (itemStops .group) rest :=
    hRest
  rcases hPiece.takes hElement.delimiters hBefore items with
    ⟨after, hTakes, hAfter⟩
  have hOther :
      (Text.trimStart rest).head? ≠ some ';' := by
    intro hHead
    exact absurd (hRest ';' hHead) (by decide)
  apply hTakes.bind
  apply (Fill.Takes.lift .skipBlanks).bind
  rw [hAfter, if_neg hFrame]
  exact .lift (.eat_other hOther)

/- After a semicolon there is another item. -/
theorem RunItem.takes_next
    {piece : Value × List Char}
    (hPiece : RunItem item piece)
    (hFrame : frame ≠ .run)
    {tail before : List Char}
    (hBefore :
      Text.trimStart before =
        Text.trimStart (piece.2 ++ ';' :: tail))
    (items : List Value) :
    Fill.Takes (sliceRound item frame .dynamic) before
      (Value.slice items) true tail
      (Value.slice (items ++ [piece.1])) := by
  have hSemicolon :
      Text.trimStart (';' :: tail) = ';' :: tail :=
    Text.trimStart_cons (by decide) tail
  have hRest : StopsAt Scan.delimiters (';' :: tail) := by
    unfold StopsAt
    rw [hSemicolon]
    rintro _ ⟨⟩
    decide
  rcases hPiece.takes hRest hBefore items with
    ⟨after, hTakes, hAfter⟩
  apply hTakes.bind
  apply (Fill.Takes.lift .skipBlanks).bind
  rw [hAfter, hSemicolon, if_neg hFrame]
  exact .lift .eat

/- The rounds of a run read its items. -/
theorem takes_sliceRounds
    {pieces : List (Value × List Char)}
    (hPieces : ∀ piece ∈ pieces, RunItem item piece)
    (hNonempty : pieces ≠ [])
    (hFrame : frame ≠ .run)
    {rest : List Char}
    (hRest : StopsAt elementStops rest)
    (items : List Value) :
    ∀ before count,
      Text.trimStart before =
          Text.trimStart
            (runText (pieces.map Prod.snd) ++ rest) →
        before.length ≤ count →
          Fill.Takes
            (Fill.rounds (sliceRound item frame .dynamic)
              (count + 1))
            before (Value.slice items) ()
            (Text.trimStart rest)
            (Value.slice (items ++ pieces.map Prod.fst)) := by
  induction pieces generalizing items with
  | nil => exact absurd rfl hNonempty
  | cons piece pieces ih =>
      intro before count hBefore hCount
      have hPiece := hPieces piece List.mem_cons_self
      cases pieces with
      | nil =>
          rw [List.map_singleton, runText_singleton]
            at hBefore
          exact .done
            (hPiece.takes_last hFrame hRest hBefore items)
      | cons next pieces =>
          have hSplit :
              runText ((piece :: next :: pieces).map
                  Prod.snd) ++ rest =
                piece.2 ++ ';' ::
                  (runText ((next :: pieces).map Prod.snd) ++
                    rest) := by
            rw [List.map_cons, List.map_cons,
              runText_cons_cons, List.append_assoc]
            rfl
          rw [hSplit] at hBefore
          have hShorter :
              (runText ((next :: pieces).map Prod.snd) ++
                rest).length < before.length := by
            have hTrim := Text.length_trimStart_le before
            rw [hBefore, hPiece.begins.opens.trimStart_append,
              List.length_append, List.length_cons] at hTrim
            omega
          have hLater := ih
            (fun other hMember =>
              hPieces other (List.mem_cons_of_mem _ hMember))
            (List.cons_ne_nil _ _) (items ++ [piece.1])
          rw [List.append_assoc] at hLater
          cases count with
          | zero => omega
          | succ count =>
              refine .again
                (hPiece.takes_next hFrame hBefore items) ?_
              exact hLater _ count rfl (by omega)

/-
  A run of items is a slice, unless its first item has a brace
  in front.
-/
theorem takes_fillSlice_run
    {first : Value × List Char}
    {others : List (Value × List Char)}
    (hFirst : RunItem item first)
    (hOthers : ∀ piece ∈ others, RunItem item piece)
    (hBrace : (Text.trimStart first.2).head? ≠ some '{')
    (hFrame : frame ≠ .run)
    {rest : List Char}
    (hRest : StopsAt elementStops rest)
    (content : Target.dynamic.Content) :
    Fill.Takes (fillSlice item frame .dynamic)
      (Text.trimStart
        (runText ((first :: others).map Prod.snd) ++ rest))
      content () (Text.trimStart rest)
      (Value.slice ((first :: others).map Prod.fst)) := by
  have hRounds :=
    takes_sliceRounds (List.forall_mem_cons.mpr
      ⟨hFirst, hOthers⟩) (List.cons_ne_nil _ _) hFrame hRest
      [] _ _ (Text.trimStart_trimStart _) (Nat.le_refl _)
  have hBegin :
      Target.dynamic.beginSlice content =
        .ok () (Value.slice []) :=
    rfl
  have hHead :
      ∃ c,
        (Text.trimStart
          (runText ((first :: others).map Prod.snd) ++
            rest)).head? = some c ∧
          c ∉ Scan.delimiters ∧ c ≠ '{' := by
    rcases exists_runText_cons first.2 (others.map Prod.snd)
      with ⟨tail, hTail⟩
    rcases hFirst.begins with ⟨c, own, hTrim, hDelimiter⟩
    rw [hTrim] at hBrace
    refine ⟨c, ?_, hDelimiter, fun hEq => ?_⟩
    · rw [List.map_cons, hTail, List.append_assoc,
        hFirst.begins.opens.trimStart_append, hTrim]
      rfl
    · exact hBrace (congrArg some hEq)
  rw [fillSlice_eq]
  refine .position fun start => ?_
  apply (Fill.Takes.store hBegin).bind
  apply (Fill.Takes.lift .peek).bind
  rcases hHead with ⟨c, hHead, hDelimiter, hOther⟩
  rw [hHead]
  split
  · rename_i hEq
    exact absurd (Option.some.inj hEq) hOther
  · rename_i hEq
    cases hEq
  case h_6 => exact .loopWhile hRounds
  all_goals
    rename_i hEq
    cases hEq
    exact absurd (by decide) hDelimiter

------------------------------------------------------------
-- Braces in Front
------------------------------------------------------------

/- The new place in a value is one for a value. -/
theorem onlyTakes_fillItem_dynamic
    {before : List Char}
    {post : Unit → List Char → Prop}
    (hItem :
      OnlyTakes Prod.fst (item frame .dynamic) before post) :
    OnlyTakes Prod.fst (fillItem item frame .dynamic) before
      post := by
  rintro ⟨cursor, content⟩ hAhead
  have hRun :=
    run_fillItem item frame .dynamic cursor content
  rw [hRun]
  rcases nextItem_dynamic content with
    ⟨items, hNext⟩ | ⟨destination, offer, hNext⟩
  · rw [hNext]
    exact Fill.ends_within.mpr
      (hItem (cursor, Value.null) hAhead)
  · rw [hNext]
    trivial

/-
  At a brace a slice ends with the group that the brace opens,
  if it is read at all.
-/
theorem onlyTakes_fillSlice_brace
    {texts : List (List Char)}
    (hTexts : ∀ text ∈ texts,
      Opens text ∧
        Fill.OnlyReads (item .group .dynamic) text True)
    (frame : Frame)
    (rest : List Char) :
    OnlyTakes Prod.fst (fillSlice item frame .dynamic)
      (groupText [] texts ++ rest)
      fun _ after => after = rest := by
  have hBlanks : Text.Blank [] := nofun
  have hOpen :
      (groupText [] texts ++ rest).head? = some '{' :=
    rfl
  have hGroup :=
    Fill.onlyTakes_group hBlanks
      (fun text hMember =>
        ⟨(hTexts text hMember).1,
          fun rest hRest => onlyTakes_fillItem_dynamic
            ((hTexts text hMember).2 rest hRest)⟩)
      rest
  refine (onlyTakes_fillSlice_group hOpen hGroup).imp ?_
  intro _ _ hAfter
  exact hAfter.2

/- An item that is read for certain may also be in a group. -/
theorem RunItem.onlyReads
    {piece : Value × List Char}
    (hPiece : RunItem item piece) :
    Fill.OnlyReads (item .group .dynamic) piece.2 True := by
  intro rest hRest
  refine .of_takesFill fun content => ?_
  rcases hPiece.reads _ .group content rest _ hRest
    (Text.trimStart_trimStart _) (Nat.lt_succ_self _) with
    ⟨after, hTakes, hAfter⟩
  exact ⟨(), after, piece.1, hTakes, trivial, hAfter⟩

/- A slice as an item may have blanks in front. -/
theorem onlyReads_fill_slice
    {inner : Descriptor}
    {text : List Char}
    {holds : Prop}
    (hSlice :
      Fill.OnlyReads (fillSlice inner.fill .group .dynamic)
        text holds) :
    Fill.OnlyReads
      ((Descriptor.nested .slice inner).fill .group .dynamic)
      text holds := by
  intro rest hRest
  rw [Descriptor.fill_eq]
  refine .takesFill .skipBlanks ?_
  rw [Text.trimStart_trimStart]
  exact hSlice rest hRest

/- Where a map is asked for, nothing but a brace will do. -/
theorem onlyReads_fill_map
    {inner : Descriptor}
    {text : List Char}
    {c : Char}
    (hHead : text.head? = some c)
    (hVisible : Text.isBlank c = false)
    (hBrace : c ≠ '{')
    (holds : Prop) :
    Fill.OnlyReads
      ((Descriptor.nested .map inner).fill .group .dynamic)
      text holds := by
  intro rest _
  have hAhead : (text ++ rest).head? = some c := by
    rw [List.head?_append, hHead]
    rfl
  have hOther : (text ++ rest).head? ≠ some '{' := by
    rw [hAhead]
    exact fun hEq => hBrace (Option.some.inj hEq)
  rw [Descriptor.fill_eq]
  refine .takesFill .skipBlanks ?_
  rw [Text.trimStart_trimStart,
    Text.trimStart_of_head hAhead hVisible]
  dsimp only
  rw [fillMap_eq]
  refine .positionFill fun start => .takesFill .peek ?_
  rw [if_neg hOther]
  exact .lift (.unexpected _ _)

/- Something else than a comma or a brace ends a group. -/
theorem onlyTakes_closing_refused
    {δ : Type}
    {before tail : List Char}
    {c : Char}
    (hBefore : Text.trimStart before = c :: tail)
    (hStop : c ∉ elementStops)
    (start : Nat) :
    OnlyTakes Prod.fst (Fill.closing start : Fill δ Bool)
      before fun _ _ => False := by
  refine .takesFill .skipBlanks (.takesFill .peek ?_)
  rw [hBefore]
  dsimp only [List.head?_cons]
  split
  · rename_i hEq
    cases hEq
    exact absurd (by decide) hStop
  · rename_i hEq
    cases hEq
    exact absurd (by decide) hStop
  · exact .throw _
  · exact .positionFill fun place =>
      .lift (.unexpected _ place)

/- A group is refused if its first element ends too early. -/
theorem onlyTakes_group_refused
    {δ : Type}
    {element : Fill δ Unit}
    {before : List Char}
    {c : Char}
    (hHead : before.head? = some c)
    (hVisible : Text.isBlank c = false)
    (hOther : c ≠ '}')
    (hElement :
      OnlyTakes Prod.fst element before fun _ after =>
        ∃ d tail,
          Text.trimStart after = d :: tail ∧
            d ∉ elementStops) :
    OnlyTakes Prod.fst (Fill.group element)
      ('{' :: before) fun _ _ => False := by
  have hTrim := Text.trimStart_of_head hHead hVisible
  have hNoBrace : before.head? ≠ some '}' := by
    rw [hHead]
    exact fun hEq => hOther (Option.some.inj hEq)
  rw [Fill.group_eq]
  refine .positionFill fun start => ?_
  refine .takesFill .skip (.takesFill .skipBlanks ?_)
  rw [hTrim]
  refine .takesFill (.eat_other hNoBrace) ?_
  refine .loopWhile (fun text => text = before) ?_ rfl
  rintro _ rfl
  refine .takesFill .skipBlanks (.takesFill .peek ?_)
  rw [hTrim, hHead]
  refine .bind hElement ?_
  rintro _ after ⟨d, tail, hAfter, hStop⟩
  exact (onlyTakes_closing_refused hAfter hStop start).imp
    fun _ _ => False.elim

end Literal

namespace Value

open Literal

variable {item : Descriptor}
variable {value : Value}

/- The value is written as a group. -/
def IsGroup : Value → Prop
  | slice _ => True
  | map _ => True
  | _ => False

theorem head_text_of_isGroup
    (hValue : value.IsGroup) :
    value.text.toList.head? = some '{' := by
  cases value with
  | slice items =>
      rw [toList_text_slice]
      rfl
  | map entries =>
      rw [toList_text_map]
      rfl
  | _ => exact hValue.elim

theorem exists_head_of_bare
    {text : List Char}
    (hText : BareBefore Scan.delimiters text)
    (hBrace : '{' ∉ text) :
    ∃ c,
      text.head? = some c ∧ Text.isBlank c = false ∧
        c ≠ '{' := by
  have hTrim := hText.trimStart []
  rw [List.append_nil] at hTrim
  cases hList : text with
  | nil => exact absurd hList hText.nonempty
  | cons c tail =>
      rw [hList] at hTrim hBrace
      refine ⟨c, rfl, Text.isBlank_head_trimStart hTrim, ?_⟩
      rintro rfl
      exact hBrace List.mem_cons_self

/- Other values begin with something else than a brace. -/
theorem exists_head_text
    (hNull : value ≠ .null)
    (hValue : ¬ value.IsGroup) :
    ∃ c,
      value.text.toList.head? = some c ∧
        Text.isBlank c = false ∧ c ≠ '{' := by
  have hInteger :
      ∀ n : Int, '{' ∉ n.repr.toList := by
    intro n hMember
    rcases mem_toList_repr hMember with hSign | hDigit
    · cases hSign
    · cases hDigit
  cases value with
  | null => exact absurd rfl hNull
  | bool value =>
      refine exists_head_of_bare (bareBefore_of_bool value) ?_
      cases value <;> decide
  | int value =>
      rw [text_int]
      exact exists_head_of_bare (bareBefore_of_int _)
        (hInteger _)
  | uint value =>
      rw [text_uint]
      exact exists_head_of_bare
        (bareBefore_of_int value.toNat)
        (hInteger value.toNat)
  | string value =>
      have hHead := head_quoted value []
      rw [List.append_nil] at hHead
      exact ⟨'"', hHead, by decide, by decide⟩
  | slice items => exact absurd trivial hValue
  | map entries => exact absurd trivial hValue

/- The written form of a value may be an item of a run. -/
theorem Fits.runItem
    (hFits : Fits item value)
    (hRawFree : item.RawFree) :
    RunItem item.fill (value, value.text.toList) :=
  have hText := hFits.spells_text hRawFree
  ⟨hText.begins, hText.reads⟩

theorem Fits.trimStart_head_ne
    (hFits : Fits item value)
    (hValue : ¬ value.IsGroup) :
    (Text.trimStart value.text.toList).head? ≠ some '{' := by
  rcases exists_head_text hFits.ne_null hValue with
    ⟨c, hHead, hVisible, hOther⟩
  rw [Text.trimStart_of_head hHead hVisible, hHead]
  exact fun hEq => hOther (Option.some.inj hEq)

/-
  In a group, where a slice is asked for, a value that is not
  one is read as a slice of its own.
-/
theorem Fits.onlyReads_of_not_isGroup
    (hFits : Fits item value)
    (hRawFree : item.RawFree)
    (hValue : ¬ value.IsGroup) :
    Fill.OnlyReads (fillSlice item.fill .group .dynamic)
      value.text.toList True := by
  intro rest hRest
  refine .of_takesFill fun content => ?_
  have hFrame : Frame.group ≠ .run := nofun
  have hTakes :=
    takes_fillSlice_run (hFits.runItem hRawFree)
      (List.forall_mem_nil _) (hFits.trimStart_head_ne hValue)
      hFrame hRest content
  rw [List.map_singleton, runText_singleton] at hTakes
  exact ⟨(), _, _, hTakes, trivial,
    Text.trimStart_trimStart _⟩

/- A value that is a group ends where its group does. -/
theorem onlyReads_of_isGroup
    {reader : ItemReader}
    (hValue : value.IsGroup)
    (hBrace : ∀ frame rest,
      OnlyTakes Prod.fst (fillSlice reader frame .dynamic)
        (value.text.toList ++ rest)
        fun _ after => after = rest) :
    Fill.OnlyReads (fillSlice reader .group .dynamic)
      value.text.toList True := by
  intro rest _
  have hHead :
      (value.text.toList ++ rest).head? = some '{' := by
    rw [List.head?_append, head_text_of_isGroup hValue]
    rfl
  rw [Text.trimStart_of_head hHead (by decide)]
  refine (hBrace .group rest).imp ?_
  rintro _ _ rfl
  exact ⟨trivial, rfl⟩

/- A key is read as an item, up to its colon. -/
theorem takes_fill_any_key
    (key : String)
    (rest : List Char)
    (content : Target.dynamic.Content) :
    ∃ after,
      Fill.Takes
          ((Descriptor.plain .any).fill .group .dynamic)
          ((Text.quoted key).toList ++ ':' :: rest) content
          () after (Value.string key) ∧
        Text.trimStart after = ':' :: rest := by
  have hColon :
      Text.trimStart (':' :: rest) = ':' :: rest :=
    Text.trimStart_cons (by decide) rest
  have hHead := head_quoted key (':' :: rest)
  have hElement :
      Scan.Takes element
        ((Text.quoted key).toList ++ ':' :: rest)
        (.string key) (':' :: rest) :=
    .get fun cursor _ =>
      takes_inferElement_quoted hHead (takes_quoted key _) _
  have hOther :
      Frame.group ≠ .run →
        (Text.trimStart (':' :: rest)).head? ≠ some ';' := by
    rw [hColon]
    rintro _ ⟨⟩
  rcases takes_inferWith_of_head hElement rfl hOther with
    ⟨after, hInfer, hAfter⟩
  refine ⟨after, ?_, by rw [hAfter, hColon]⟩
  rw [Descriptor.fill_eq]
  apply (Fill.Takes.lift .skipBlanks).bind
  rw [Text.trimStart_of_head hHead (by decide)]
  refine .position fun start => ?_
  exact (Fill.Takes.lift hInfer).bind (.store rfl)

/- Where a slice is asked for, a map is refused at its colon. -/
theorem onlyTakes_fillSlice_any_map
    {entries : List (String × Value)}
    (hNonempty : entries ≠ [])
    (frame : Frame)
    (rest : List Char) :
    OnlyTakes Prod.fst
      (fillSlice (Descriptor.plain .any).fill frame .dynamic)
      ((Value.map entries).text.toList ++ rest)
      fun _ after => after = rest := by
  cases entries with
  | nil => exact absurd rfl hNonempty
  | cons entry others =>
      rcases exists_elementsText_cons rest
        (writtenEntry entry).text
        ((others.map writtenEntry).map SpelledEntry.text) with
        ⟨tail, hTail⟩
      have hText :
          (Value.map (entry :: others)).text.toList ++ rest =
            '{' :: ((Text.quoted entry.1).toList ++
              ':' :: (entry.2.text.toList ++ tail)) := by
        rw [toList_text_map, groupText_append,
          List.nil_append, List.map_cons, List.map_cons,
          hTail, text_writtenEntry, List.append_assoc,
          List.cons_append]
      have hElement :
          OnlyTakes Prod.fst
            (fillItem (Descriptor.plain .any).fill .group
              .dynamic)
            ((Text.quoted entry.1).toList ++
              ':' :: (entry.2.text.toList ++ tail))
            fun _ after =>
              ∃ d tail,
                Text.trimStart after = d :: tail ∧
                  d ∉ elementStops := by
        refine onlyTakes_fillItem_dynamic ?_
        refine .of_takesFill fun content => ?_
        rcases takes_fill_any_key entry.1
          (entry.2.text.toList ++ tail) content with
          ⟨after, hTakes, hAfter⟩
        exact ⟨(), after, _, hTakes, ':', _, hAfter,
          by decide⟩
      have hGroup :=
        onlyTakes_group_refused
          (head_quoted entry.1 _) (by decide) (by decide)
          hElement
      rw [hText]
      exact (onlyTakes_fillSlice_group rfl hGroup).imp
        fun _ _ => False.elim

/- A written slice ends at its own closing brace. -/
theorem onlyTakes_fillSlice_text_slice
    {reader : ItemReader}
    {items : List Value}
    (hItems : ∀ value ∈ items,
      Opens value.text.toList ∧
        Fill.OnlyReads (reader .group .dynamic)
          value.text.toList True)
    (frame : Frame)
    (rest : List Char) :
    OnlyTakes Prod.fst (fillSlice reader frame .dynamic)
      ((Value.slice items).text.toList ++ rest)
      fun _ after => after = rest := by
  rw [toList_text_slice]
  refine onlyTakes_fillSlice_brace ?_ frame rest
  intro text hMember
  rcases List.mem_map.mp hMember with ⟨piece, hPiece, rfl⟩
  rcases List.mem_map.mp hPiece with ⟨value, hOwn, rfl⟩
  exact hItems value hOwn

/-
  Where a slice is asked for, a value that is a group is read
  at most up to its closing brace, as if it were the slice.
-/
theorem Fits.onlyTakes_isGroup
    (hFits : Fits item value)
    (hRawFree : item.RawFree)
    (hValue : value.IsGroup)
    (frame : Frame)
    (rest : List Char) :
    OnlyTakes Prod.fst (fillSlice item.fill frame .dynamic)
      (value.text.toList ++ rest)
      fun _ after => after = rest := by
  induction hFits generalizing frame rest with
  | bool => exact hValue.elim
  | signed => exact hValue.elim
  | unsigned => exact hValue.elim
  | unsignedBeyond => exact hValue.elim
  | string => exact hValue.elim
  | raw => exact hValue.elim
  | any hInferable =>
      cases hInferable with
      | bool => exact hValue.elim
      | int => exact hValue.elim
      | string => exact hValue.elim
      | @slice items hItems =>
          refine onlyTakes_fillSlice_text_slice ?_ frame rest
          intro value hOwn
          have hItem :=
            (Fits.any (hItems value hOwn)).runItem hRawFree
          exact ⟨hItem.begins.opens, hItem.onlyReads⟩
      | @map entries hAscending hNonempty hEntries =>
          exact onlyTakes_fillSlice_any_map hNonempty frame
            rest
  | @slice inner items hItems ih =>
      refine onlyTakes_fillSlice_text_slice ?_ frame rest
      intro value hOwn
      have hFits := hItems value hOwn
      refine ⟨(hFits.runItem hRawFree.2).begins.opens,
        onlyReads_fill_slice ?_⟩
      by_cases hInner : value.IsGroup
      · exact onlyReads_of_isGroup hInner
          (ih value hOwn hRawFree.2 hInner)
      · exact hFits.onlyReads_of_not_isGroup hRawFree.2
          hInner
  | @map inner entries hAscending hEntries ih =>
      rw [toList_text_map]
      refine onlyTakes_fillSlice_brace ?_ frame rest
      intro text hMember
      rcases List.mem_map.mp hMember with
        ⟨spelled, hSpelled, rfl⟩
      rcases List.mem_map.mp hSpelled with
        ⟨entry, hOwn, rfl⟩
      have hHead :
          (writtenEntry entry).text.head? = some '"' := by
        rw [text_writtenEntry, head_quoted]
      exact ⟨opens_of_head hHead (by decide) (by decide),
        onlyReads_fill_map hHead (by decide) (by decide)
          True⟩

end Value

namespace Descriptor

open Literal

variable {item : Descriptor}
variable {first : Value}
variable {others : List Value}

------------------------------------------------------------
-- Two Spellings
------------------------------------------------------------

/- Values one after another, with semicolons between them. -/
theorem toList_run
    (values : List Value) :
    (String.intercalate ";" (values.map Value.text)).toList =
      runText ((Value.writtenItems values).map Prod.snd) := by
  unfold runText Value.writtenItems
  rw [String.toList_intercalate, List.map_map, List.map_map]
  rfl

/- A run is read if its first item is not a group. -/
theorem reads_run
    (hRawFree : item.RawFree)
    (hFits : ∀ value ∈ first :: others,
      Value.Fits item value)
    (hFirst : ¬ first.IsGroup) :
    (nested .slice item).Reads
      (String.intercalate ";"
        ((first :: others).map Value.text))
      (.slice (first :: others)) := by
  have hItems :
      ∀ piece ∈ Value.writtenItems others,
        RunItem item.fill piece := by
    intro piece hPiece
    rcases List.mem_map.mp hPiece with ⟨value, hOwn, rfl⟩
    exact (hFits value
      (List.mem_cons_of_mem _ hOwn)).runItem hRawFree
  have hOwn := hFits first List.mem_cons_self
  have hFrame : Frame.whole ≠ .run := nofun
  have hEnd : StopsAt elementStops [] := nofun
  have hSlice :=
    takes_fillSlice_run (hOwn.runItem hRawFree) hItems
      (hOwn.trimStart_head_ne hFirst) hFrame hEnd Value.null
  have hValues :
      ((first, first.text.toList) ::
          Value.writtenItems others).map Prod.fst =
        first :: others :=
    Value.map_fst_writtenItems (first :: others)
  rw [List.append_nil, hValues] at hSlice
  have hTakes :
      Fill.Takes
        ((nested .slice item).fill .whole .dynamic)
        (String.intercalate ";"
          ((first :: others).map Value.text)).toList
        Value.null () [] (Value.slice (first :: others)) := by
    rw [fill_eq, toList_run]
    exact (Fill.Takes.lift .skipBlanks).bind hSlice
  exact reads_of_takes hTakes nofun

/- A run is refused if its first item is a group. -/
theorem readValue_run_isGroup
    (hRawFree : item.RawFree)
    (hMany : others ≠ [])
    (hFits : Value.Fits item first)
    (hFirst : first.IsGroup) :
    ∃ error,
      ((nested .slice item).readValue
          (String.intercalate ";"
            ((first :: others).map Value.text))).result =
        .error error := by
  apply read_of_onlyTakes
  cases others with
  | nil => exact absurd rfl hMany
  | cons next others =>
      have hSplit :
          runText ((Value.writtenItems
              (first :: next :: others)).map Prod.snd) =
            first.text.toList ++ ';' ::
              runText ((Value.writtenItems
                (next :: others)).map Prod.snd) :=
        runText_cons_cons _ _ _
      have hHead :
          (first.text.toList ++ ';' ::
            runText ((Value.writtenItems
              (next :: others)).map Prod.snd)).head? =
              some '{' := by
        rw [List.head?_append,
          Value.head_text_of_isGroup hFirst]
        rfl
      rw [toList_run, hSplit, fill_eq]
      refine .takesFill .skipBlanks ?_
      rw [Text.trimStart_of_head hHead (by decide)]
      refine (hFits.onlyTakes_isGroup hRawFree hFirst .whole
        _).imp ?_
      rintro _ _ rfl hBlank
      exact absurd (hBlank ';' List.mem_cons_self) (by decide)

/-
  The two spellings of a slice of two or more values. The
  group is always read as the slice. The run is read as it if
  the first value is not written as a group, and is refused
  otherwise.
-/
theorem reads_group_and_run
    (hRawFree : item.RawFree)
    (hMany : others ≠ [])
    (hFits : ∀ value ∈ first :: others,
      Value.Fits item value) :
    (nested .slice item).Reads
        ("\x7b" ++ String.intercalate ","
          ((first :: others).map Value.text) ++ "\x7d")
        (.slice (first :: others)) ∧
      (¬ first.IsGroup →
        (nested .slice item).Reads
          (String.intercalate ";"
            ((first :: others).map Value.text))
          (.slice (first :: others))) ∧
      (first.IsGroup →
        ∃ error,
          ((nested .slice item).readValue
              (String.intercalate ";"
                ((first :: others).map Value.text))).result =
            .error error) := by
  have hSlice :
      Value.Fits (nested .slice item)
        (.slice (first :: others)) :=
    .slice hFits
  have hText :
      (Value.slice (first :: others)).text =
        "\x7b" ++ String.intercalate ","
          ((first :: others).map Value.text) ++ "\x7d" := by
    rw [Value.text, Value.itemTexts_eq]
    rfl
  rw [← hText]
  refine ⟨?_, reads_run hRawFree hFits,
    readValue_run_isGroup hRawFree hMany
      (hFits first List.mem_cons_self)⟩
  exact reads_of_spells
    (hSlice.spells_text ⟨by decide, hRawFree⟩)

/- A group that is not the first item keeps its braces. -/
theorem reads_group_and_run_later_group :
    (nested .slice (.plain .any)).Reads
        "\x7btrue,\x7bfalse\x7d\x7d"
        (.slice [.bool true, .slice [.bool false]]) ∧
      (nested .slice (.plain .any)).Reads
        "true;\x7bfalse\x7d"
        (.slice [.bool true, .slice [.bool false]]) := by
  have hInner : (Value.slice [.bool false]).Inferable := by
    apply Value.Inferable.slice
    intro value hValue
    rw [List.mem_singleton.mp hValue]
    exact .bool false
  have hFits :
      ∀ value ∈ [Value.bool true, .slice [.bool false]],
        Value.Fits (.plain .any) value := by
    intro value hValue
    rcases List.mem_pair.mp hValue with rfl | rfl
    · exact .any (.bool true)
    · exact .any hInner
  have hRawFree : (plain .any).RawFree := by
    decide
  rcases reads_group_and_run hRawFree
    (List.cons_ne_nil _ []) hFits with
    ⟨hGroup, hRun, _⟩
  exact ⟨hGroup, hRun nofun⟩

/- Two groups fit, and the run of them is refused. -/
theorem readValue_run_of_groups :
    (∀ value ∈
        [Value.slice [.bool true], .slice [.bool false]],
      Value.Fits (nested .slice (.plain .bool)) value) ∧
      String.intercalate ";"
        ([Value.slice [.bool true],
          .slice [.bool false]].map Value.text) =
        "\x7btrue\x7d;\x7bfalse\x7d" ∧
      ((nested .slice (nested .slice (.plain .bool))).readValue
          "\x7btrue\x7d;\x7bfalse\x7d").result =
        .error (.syntaxError .endOfInput ";" 6) := by
  have hFits :
      ∀ flag : Bool,
        Value.Fits (nested .slice (.plain .bool))
          (.slice [.bool flag]) := by
    intro flag
    apply Value.Fits.slice
    intro value hValue
    rw [List.mem_singleton.mp hValue]
    exact .bool flag
  refine ⟨?_, rfl, rfl⟩
  intro value hValue
  rcases List.mem_pair.mp hValue with rfl | rfl
  · exact hFits true
  · exact hFits false

end Descriptor

end Marginalia
