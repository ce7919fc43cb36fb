import Marginalia.Proofs.Literal.Spelling

/-
  The probe for a colon finds out whether the spelling of a
  group is that of a map or that of a slice, whatever follows
  the group.

  Key definitions include:
    * `Literal.elementsText`
    * `Literal.PassedAt`

  Main statements:
    * `Literal.probe_items`
    * `Literal.probe_entries`
    * `Value.SpellsInferred.passed`
    * `Value.probe_slice`
    * `Value.probe_map`
-/

namespace Marginalia

open Cursor (probe)

namespace Literal

------------------------------------------------------------
-- Texts of Groups
------------------------------------------------------------

/-
  What is ahead after the opening of a group: texts, commas
  between them, the closing brace, and the rest.
-/
def elementsText
    (rest : List Char) : List (List Char) → List Char
  | [] => '}' :: rest
  | [text] => text ++ '}' :: rest
  | text :: texts => text ++ ',' :: elementsText rest texts

theorem groupText_append
    (blanks rest : List Char)
    (texts : List (List Char)) :
    groupText blanks texts ++ rest =
      '{' :: (blanks ++ elementsText rest texts) := by
  have hElements :
      [','].intercalate texts ++ '}' :: rest =
        elementsText rest texts := by
    induction texts with
    | nil => rfl
    | cons text texts ih =>
        cases texts with
        | nil =>
            rw [List.intercalate_singleton]
            rfl
        | cons next texts =>
            rw [List.intercalate_cons_cons,
              List.append_assoc, List.append_assoc, ih]
            rfl
  unfold groupText
  rw [← hElements]
  simp

------------------------------------------------------------
-- Texts that are Passed
------------------------------------------------------------

/- The probe passes the text at the depth. -/
def PassedAt
    (depth : Nat)
    (text : List Char) : Prop :=
  ∀ rest,
    probe ':' .plain depth (text ++ rest) =
      probe ':' .plain depth rest

variable {depth : Nat}

theorem PassedAt.append
    {front back : List Char}
    (hFront : PassedAt depth front)
    (hBack : PassedAt depth back) :
    PassedAt depth (front ++ back) := by
  intro rest
  rw [List.append_assoc, hFront, hBack]

theorem Unprobed.passed
    {text : List Char}
    (hText : Unprobed text) :
    PassedAt depth text := by
  intro rest
  refine Cursor.probe_append_of_ordinary ?_ ?_
  · intro c hMember
    exact (hText c hMember).1
  · intro hMember
    exact absurd rfl (hText ':' hMember).2

theorem passed_of_blank
    {text : List Char}
    (hText : Text.Blank text) :
    PassedAt depth text := by
  refine Unprobed.passed fun c hMember => ?_
  refine ⟨Text.ordinary_of_isBlank (hText c hMember), ?_⟩
  exact Text.ne_of_isBlank (hText c hMember) (by decide)

/- In quotes, only backslashes and quotes are looked at. -/
theorem probe_quoted_of_not_mem
    {text : List Char}
    (hBackslash : '\\' ∉ text)
    (hQuote : '"' ∉ text)
    (rest : List Char) :
    probe ':' .quoted depth (text ++ rest) =
      probe ':' .quoted depth rest := by
  induction text with
  | nil => rfl
  | cons c text ih =>
      rw [List.mem_cons, not_or] at hBackslash hQuote
      rw [List.cons_append, probe,
        if_neg (Ne.symm hBackslash.1),
        if_neg (Ne.symm hQuote.1), ih hBackslash.2 hQuote.2]

/- There are but digits in the braces of an escape. -/
theorem not_mem_bracedDigits
    {c : Char}
    (hDigit : Text.isHexDigit c = false)
    (hBraces : c ∉ ['{', '}'])
    (n : Nat) :
    c ∉ '{' :: (Nat.toDigits 16 n ++ ['}']) := by
  rw [List.mem_cons, not_or, List.mem_singleton] at hBraces
  intro hMember
  rcases List.mem_cons.mp hMember with hOpen | hMember
  · exact hBraces.1 hOpen
  · rcases List.mem_append.mp hMember with hOwn | hClose
    · rw [Text.isHexDigit_of_mem_toDigits hOwn] at hDigit
      cases hDigit
    · exact hBraces.2 (List.mem_singleton.mp hClose)

/- Inside of quotes an escaped character is passed. -/
theorem probe_escape
    (c : Char)
    (rest : List Char) :
    probe ':' .quoted depth (Text.escape c ++ rest) =
      probe ':' .quoted depth rest := by
  unfold Text.escape
  split_ifs with h0 ht hr hn hq hb hHidden
  · rfl
  · rfl
  · rfl
  · rfl
  · rfl
  · rfl
  · exact probe_quoted_of_not_mem
      (not_mem_bracedDigits (by decide) (by decide) c.toNat)
      (not_mem_bracedDigits (by decide) (by decide) c.toNat)
      rest
  · have hBackslash : '\\' ∉ [c] := by
      rw [List.mem_singleton]
      exact Ne.symm hb
    have hQuote : '"' ∉ [c] := by
      rw [List.mem_singleton]
      exact Ne.symm hq
    exact probe_quoted_of_not_mem hBackslash hQuote rest

theorem probe_quoted
    (text rest : List Char) :
    probe ':' .quoted depth
        (text.flatMap Text.escape ++ '"' :: rest) =
      probe ':' .plain depth rest := by
  induction text with
  | nil => rfl
  | cons c text ih =>
      rw [List.flatMap_cons, List.append_assoc,
        probe_escape, ih]

theorem probe_backtick
    {text : List Char}
    (hText : '`' ∉ text)
    (rest : List Char) :
    probe ':' .backtick depth (text ++ '`' :: rest) =
      probe ':' .plain depth rest := by
  induction text with
  | nil => rfl
  | cons c text ih =>
      rw [List.mem_cons, not_or] at hText
      rw [List.cons_append, probe,
        if_neg (Ne.symm hText.1), ih hText.2]

/- All spellings of strings in probed groups are passed. -/
theorem SpellsString.passed
    {bare : List Char → Prop}
    (hBare : ∀ text, bare text → Unprobed text)
    {value : String}
    {text : List Char}
    (hText : SpellsString bare value text) :
    PassedAt depth text := by
  induction hText with
  | quoted =>
      intro rest
      rw [Text.toList_quoted, List.cons_append,
        List.append_assoc, probe, if_pos rfl]
      exact probe_quoted _ rest
  | backtick hValue =>
      intro rest
      rw [List.cons_append, List.append_assoc, probe,
        if_neg (by decide), if_pos rfl]
      exact probe_backtick hValue rest
  | bare hValue => exact (hBare _ hValue).passed
  | pad hFront _ hBack ih =>
      exact ((passed_of_blank hFront).append ih).append
        (passed_of_blank hBack)

/-
  The probe passes the elements of a group, and the commas
  between them.
-/
theorem probe_elementsText
    {texts : List (List Char)}
    (hTexts : ∀ text ∈ texts, PassedAt depth text)
    (rest : List Char) :
    probe ':' .plain depth (elementsText rest texts) =
      probe ':' .plain depth ('}' :: rest) := by
  induction texts with
  | nil => rfl
  | cons text texts ih =>
      have hText := hTexts text List.mem_cons_self
      have hRest := ih fun other hMember =>
        hTexts other (List.mem_cons_of_mem _ hMember)
      cases texts with
      | nil => exact hText _
      | cons next texts =>
          have hSplit :
              elementsText rest (text :: next :: texts) =
                text ++ ',' ::
                  elementsText rest (next :: texts) :=
            rfl
          rw [hSplit, hText, Cursor.probe_cons_of_ordinary,
            hRest]
          · decide
          · intro hComma
            exact absurd hComma (by decide)

/- A group inside of another one is passed. -/
theorem passed_groupText
    {blanks : List Char}
    {texts : List (List Char)}
    (hBlanks : Text.Blank blanks)
    (hTexts : ∀ text ∈ texts, PassedAt (depth + 1) text)
    (hDepth : 1 ≤ depth) :
    PassedAt depth (groupText blanks texts) := by
  intro rest
  rw [groupText_append, Cursor.probe_open,
    passed_of_blank hBlanks, probe_elementsText hTexts,
    probe]
  have hInner : ¬ depth + 1 ≤ 1 := by
    omega
  simp [hInner]

/- A group of passed items is passed inside of another one. -/
theorem passed_items
    {blanks : List Char}
    {items : List (Value × List Char)}
    (hBlanks : Text.Blank blanks)
    (hItems : ∀ item ∈ items, PassedAt (depth + 1) item.2)
    (hDepth : 1 ≤ depth) :
    PassedAt depth
      (groupText blanks (items.map Prod.snd)) :=
  passed_groupText hBlanks (List.forall_mem_map.mpr hItems)
    hDepth

/- It has no colon at its own top level. -/
theorem probe_items
    {blanks : List Char}
    {items : List (Value × List Char)}
    (hBlanks : Text.Blank blanks)
    (hItems : ∀ item ∈ items, PassedAt 1 item.2)
    (rest : List Char) :
    probe ':' .plain 0
        (groupText blanks (items.map Prod.snd) ++ rest) =
      false := by
  rw [groupText_append, Cursor.probe_open,
    passed_of_blank hBlanks,
    probe_elementsText (List.forall_mem_map.mpr hItems)]
  rfl

/- Inside of a group an entry is passed as a whole. -/
theorem passed_entry
    {entry : SpelledEntry}
    (hKey : PassedAt depth entry.keyText)
    (hValue : PassedAt depth entry.valueText)
    (hDepth : depth ≠ 1) :
    PassedAt depth entry.text := by
  apply hKey.append
  intro rest
  rw [List.cons_append, Cursor.probe_cons_of_ordinary,
    hValue]
  · decide
  · exact fun _ => hDepth

/- A group of passed entries is passed inside of another. -/
theorem passed_entries
    {spelled : List SpelledEntry}
    (hKeys : ∀ entry ∈ spelled,
      PassedAt (depth + 1) entry.keyText)
    (hValues : ∀ entry ∈ spelled,
      PassedAt (depth + 1) entry.valueText)
    (hDepth : 1 ≤ depth) :
    PassedAt depth
      (groupText [] (spelled.map SpelledEntry.text)) := by
  refine passed_groupText nofun ?_ hDepth
  rw [List.forall_mem_map]
  intro entry hEntry
  exact passed_entry (hKeys entry hEntry)
    (hValues entry hEntry) (by omega)

/- At its own top level there is one after its first key. -/
theorem probe_entries
    {spelled : List SpelledEntry}
    (hNonempty : spelled ≠ [])
    (hKeys : ∀ entry ∈ spelled, PassedAt 1 entry.keyText)
    (rest : List Char) :
    probe ':' .plain 0
        (groupText [] (spelled.map SpelledEntry.text) ++
          rest) =
      true := by
  cases spelled with
  | nil => exact absurd rfl hNonempty
  | cons entry others =>
      have hSplit :
          ∃ tail,
            elementsText rest
                ((entry :: others).map SpelledEntry.text) =
              entry.keyText ++ ':' :: tail := by
        cases others with
        | nil =>
            refine ⟨entry.valueText ++ '}' :: rest, ?_⟩
            rw [List.map_cons, List.map_nil, elementsText,
              SpelledEntry.text, List.append_assoc]
            rfl
        | cons next others =>
            refine ⟨entry.valueText ++ ',' ::
              elementsText rest
                ((next :: others).map SpelledEntry.text), ?_⟩
            rw [List.map_cons, List.map_cons, elementsText,
              SpelledEntry.text, List.append_assoc]
            · rfl
            · exact List.cons_ne_nil _ _
      rcases hSplit with ⟨tail, hTail⟩
      rw [groupText_append, Cursor.probe_open,
        List.nil_append, hTail,
        hKeys entry List.mem_cons_self]
      rfl

end Literal

namespace Value

open Literal

theorem unprobed_of_bool
    (value : Bool) :
    Unprobed (Value.bool value).text.toList := by
  cases value <;> decide

theorem unprobed_of_int
    (value : Int64) :
    Unprobed (Value.int value).text.toList := by
  intro c hMember
  rcases mem_toList_repr hMember with rfl | hDigit
  · decide
  · refine Text.forall_isDigit
      (p := fun c => Text.Ordinary c ∧ c ≠ ':') ?_ hDigit
    decide

/- What is spelled in a probed group is passed there. -/
theorem SpellsInferred.passed
    {value : Value}
    {text : List Char}
    (hText : SpellsInferred true value text)
    {depth : Nat}
    (hDepth : 1 ≤ depth) :
    PassedAt depth text := by
  generalize hGroup : true = inGroup at hText
  induction hText generalizing depth with
  | bool _ value => exact (unprobed_of_bool value).passed
  | int _ value => exact (unprobed_of_int value).passed
  | string hText =>
      subst hGroup
      exact hText.passed fun _ hBare => hBare.unprobed rfl
  | slice hBlanks _ ih =>
      refine passed_items hBlanks ?_ hDepth
      intro item hItem
      exact ih item hItem (by omega) rfl
  | map _ hKeys _ _ ih =>
      refine passed_entries ?_ ?_ hDepth
      · intro entry hEntry
        exact (hKeys entry hEntry).passed
          fun _ hBare => hBare.unprobed
      · intro entry hEntry
        exact ih entry hEntry (by omega) rfl
  | pad hFront _ hBack ih =>
      exact ((passed_of_blank hFront).append
        (ih hDepth hGroup)).append (passed_of_blank hBack)

/- The spelling of a slice has no colon at its top level. -/
theorem probe_slice
    {blanks : List Char}
    {items : List (Value × List Char)}
    (hBlanks : Text.Blank blanks)
    (hItems : ∀ item ∈ items,
      SpellsInferred true item.1 item.2)
    (rest : List Char) :
    probe ':' .plain 0
        (groupText blanks (items.map Prod.snd) ++ rest) =
      false := by
  refine probe_items hBlanks ?_ rest
  intro item hItem
  exact (hItems item hItem).passed (Nat.le_refl _)

/- The spelling of a map has one after its first key. -/
theorem probe_map
    {spelled : List SpelledEntry}
    (hNonempty : spelled ≠ [])
    (hKeys : ∀ entry ∈ spelled,
      SpellsString BareInferredKey entry.key
        entry.keyText)
    (rest : List Char) :
    probe ':' .plain 0
        (groupText [] (spelled.map SpelledEntry.text) ++
          rest) =
      true := by
  refine probe_entries hNonempty ?_ rest
  intro entry hEntry
  exact (hKeys entry hEntry).passed
    fun _ hBare => hBare.unprobed

end Value

end Marginalia
