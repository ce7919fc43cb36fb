import Marginalia.Proofs.Literal.Probed

/-
  A group that is written with care, but not for any grammar:
  blanks stand around what it consists of, and strings without
  quotes have no character that could mean something. The
  probe for a colon tells maps of this kind from slices.

  Key definitions include:
    * `Literal.marks`
    * `Literal.BareWord`
    * `Value.WellSpelled`

  Main statements:
    * `Value.WellSpelled.passed`
    * `Value.Inferable.hasTopLevel_text`
    * `Value.hasTopLevel_of_wellSpelled`
-/

namespace Marginalia

open Cursor (probe)

namespace Literal

------------------------------------------------------------
-- Words
------------------------------------------------------------

/- The characters that can mean something in a group. -/
def marks : List Char :=
  ['"', '`', '{', '}', '[', ']', ':', ',', ';']

/- A text without marks that has no blanks at its ends. -/
structure BareWord
    (text : List Char) : Prop where
  nonempty : text ≠ []
  trimmed : Text.trim text = text
  noMark : ∀ c ∈ text, c ∉ marks

instance
    (text : List Char) :
    Decidable (BareWord text) :=
  decidable_of_iff
    (text ≠ [] ∧ Text.trim text = text ∧
      ∀ c ∈ text, c ∉ marks)
    ⟨fun h => ⟨h.1, h.2.1, h.2.2⟩,
      fun h => ⟨h.nonempty, h.trimmed, h.noMark⟩⟩

theorem BareWord.unprobed
    {text : List Char}
    (hText : BareWord text) :
    Unprobed text := by
  intro c hMember
  have hMark := hText.noMark c hMember
  unfold Text.Ordinary
  simp only [marks, List.mem_cons, List.not_mem_nil,
    or_false, not_or] at hMark ⊢
  tauto

end Literal

namespace Value

open Literal

------------------------------------------------------------
-- Well Spelled Values
------------------------------------------------------------

/-
  The value as it is written, but with blanks at the ends, at
  commas, colons and braces, and with strings and keys that
  are quoted in one of two ways or are words.
-/
inductive WellSpelled : Value → List Char → Prop
  | bool (value : Bool) :
      WellSpelled (.bool value) (Value.bool value).text.toList
  | int (value : Int64) :
      WellSpelled (.int value) (Value.int value).text.toList
  | string
      {value : String}
      {text : List Char}
      (hText : SpellsString BareWord value text) :
      WellSpelled (.string value) text
  | slice
      {blanks : List Char}
      {items : List (Value × List Char)}
      (hBlanks : Text.Blank blanks)
      (hItems : ∀ item ∈ items,
        WellSpelled item.1 item.2) :
      WellSpelled (.slice (items.map Prod.fst))
        (groupText blanks (items.map Prod.snd))
  | map
      {spelled : List SpelledEntry}
      (hNonempty : spelled ≠ [])
      (hKeys : ∀ entry ∈ spelled,
        SpellsString BareWord entry.key entry.keyText)
      (hValues : ∀ entry ∈ spelled,
        WellSpelled entry.value entry.valueText) :
      WellSpelled (.map (spelled.map SpelledEntry.denoted))
        (groupText [] (spelled.map SpelledEntry.text))
  | pad
      {value : Value}
      {front text back : List Char}
      (hFront : Text.Blank front)
      (hText : WellSpelled value text)
      (hBack : Text.Blank back) :
      WellSpelled value (front ++ text ++ back)

/- The written form itself is well spelled. -/
theorem Inferable.wellSpelled_text
    {value : Value}
    (hValue : value.Inferable) :
    WellSpelled value value.text.toList := by
  induction hValue with
  | bool value => exact .bool value
  | int value => exact .int value
  | string value => exact .string (.quoted value)
  | @slice items _ ih =>
      have hSlice :
          WellSpelled
            (.slice ((writtenItems items).map Prod.fst))
            (groupText []
              ((writtenItems items).map Prod.snd)) := by
        refine .slice nofun ?_
        intro item hItem
        rcases List.mem_map.mp hItem with
          ⟨value, hMember, rfl⟩
        exact ih value hMember
      rw [map_fst_writtenItems, ← toList_text_slice]
        at hSlice
      exact hSlice
  | @map entries _ hNonempty _ ih =>
      have hMap :
          WellSpelled
            (.map ((entries.map writtenEntry).map
              SpelledEntry.denoted))
            (groupText [] ((entries.map writtenEntry).map
              SpelledEntry.text)) := by
        refine .map ?_ spellsString_of_written ?_
        · rw [ne_eq, List.map_eq_nil_iff]
          exact hNonempty
        · intro entry hEntry
          rcases List.mem_map.mp hEntry with
            ⟨written, hMember, rfl⟩
          exact ih written hMember
      rw [map_denoted_writtenEntry, ← toList_text_map]
        at hMap
      exact hMap

/- What is well spelled is passed inside of a group. -/
theorem WellSpelled.passed
    {value : Value}
    {text : List Char}
    (hText : WellSpelled value text)
    {depth : Nat}
    (hDepth : 1 ≤ depth) :
    PassedAt depth text := by
  induction hText generalizing depth with
  | bool value => exact (unprobed_of_bool value).passed
  | int value => exact (unprobed_of_int value).passed
  | string hText =>
      exact hText.passed fun _ hBare => hBare.unprobed
  | slice hBlanks _ ih =>
      refine passed_items hBlanks ?_ hDepth
      intro item hItem
      exact ih item hItem (by omega)
  | map _ hKeys _ ih =>
      refine passed_entries ?_ ?_ hDepth
      · intro entry hEntry
        exact (hKeys entry hEntry).passed
          fun _ hBare => hBare.unprobed
      · intro entry hEntry
        exact ih entry hEntry (by omega)
  | pad hFront _ hBack ih =>
      exact ((passed_of_blank hFront).append
        (ih hDepth)).append (passed_of_blank hBack)

------------------------------------------------------------
-- The Probe
------------------------------------------------------------

/-
  Whatever follows, the probe finds a colon in maps and none
  in slices. Blanks before the brace do not matter.
-/
theorem WellSpelled.probe_group
    {value : Value}
    {text : List Char}
    (hText : WellSpelled value text)
    (rest : List Char) :
    (∀ items, value = .slice items →
      probe ':' .plain 0 (text ++ rest) = false) ∧
    ∀ entries, value = .map entries →
      probe ':' .plain 0 (text ++ rest) = true := by
  induction hText generalizing rest with
  | bool => exact ⟨nofun, nofun⟩
  | int => exact ⟨nofun, nofun⟩
  | string => exact ⟨nofun, nofun⟩
  | slice hBlanks hItems _ =>
      refine ⟨fun _ _ => ?_, nofun⟩
      refine probe_items hBlanks ?_ rest
      intro item hItem
      exact (hItems item hItem).passed (Nat.le_refl _)
  | map hNonempty hKeys _ _ =>
      refine ⟨nofun, fun _ _ => ?_⟩
      refine probe_entries hNonempty ?_ rest
      intro entry hEntry
      exact (hKeys entry hEntry).passed
        fun _ hBare => hBare.unprobed
  | @pad _ front text back hFront _ _ ih =>
      rw [List.append_assoc, List.append_assoc,
        passed_of_blank hFront]
      exact ih (back ++ rest)

theorem hasTopLevel_ofText
    (target : Char)
    (text : String) :
    (Cursor.ofText text).hasTopLevel target =
      probe target .plain 0 text.toList :=
  rfl

/-
  The probe tells the written form of a map from that of a
  slice, whatever follows.
-/
theorem Inferable.hasTopLevel_text
    {value : Value}
    (hValue : value.Inferable)
    (rest : String) :
    (∀ items, value = .slice items →
      (Cursor.ofText (value.text ++ rest)).hasTopLevel ':' =
        false) ∧
    ∀ entries, value = .map entries →
      (Cursor.ofText (value.text ++ rest)).hasTopLevel ':' =
        true := by
  rw [hasTopLevel_ofText, String.toList_append]
  exact hValue.wellSpelled_text.probe_group rest.toList

/- The probe of a text that begins with a well spelled group. -/
theorem hasTopLevel_of_wellSpelled
    {value : Value}
    {group : String}
    (hGroup : WellSpelled value group.toList)
    (rest : String) :
    (∀ items, value = .slice items →
      (Cursor.ofText (group ++ rest)).hasTopLevel ':' =
        false) ∧
    ∀ entries, value = .map entries →
      (Cursor.ofText (group ++ rest)).hasTopLevel ':' =
        true := by
  rw [hasTopLevel_ofText, String.toList_append]
  exact hGroup.probe_group rest.toList

/- A map, and a slice that has it as an item. -/
theorem hasTopLevel_of_nested_map :
    (Cursor.ofText
        ("\x7ba b :`k:v`\x7d" ++ "\x7d,")).hasTopLevel ':' =
      true ∧
    (Cursor.ofText
        ("\x7b \x7ba b :`k:v`\x7d,\"x:y\"\x7d" ++
          ":1")).hasTopLevel ':' =
      false := by
  have hKey :
      SpellsString BareWord "a b"
        ([] ++ "a b".toList ++ [' ']) :=
    .pad nofun (.bare (by decide)) (by decide)
  have hInner :
      WellSpelled (.string "k:v") "`k:v`".toList :=
    .string (.backtick (by decide))
  have hLast :
      WellSpelled (.string "x:y") "\"x:y\"".toList :=
    .string (.quoted "x:y")
  let entry : SpelledEntry :=
    ⟨"a b", "a b ".toList, .string "k:v", "`k:v`".toList⟩
  have hMap :
      WellSpelled (.map [("a b", .string "k:v")])
        "\x7ba b :`k:v`\x7d".toList := by
    apply WellSpelled.map (List.cons_ne_nil entry [])
    · rw [List.forall_mem_singleton]
      exact hKey
    · rw [List.forall_mem_singleton]
      exact hInner
  have hItems :
      ∀ item ∈
          [(Value.map [("a b", .string "k:v")],
              "\x7ba b :`k:v`\x7d".toList),
            (Value.string "x:y", "\"x:y\"".toList)],
        WellSpelled item.1 item.2 := by
    rw [List.forall_mem_cons, List.forall_mem_singleton]
    exact ⟨hMap, hLast⟩
  have hBlank : Text.Blank [' '] := by
    decide
  have hSlice := WellSpelled.slice hBlank hItems
  exact ⟨(hasTopLevel_of_wellSpelled hMap _).2 _ rfl,
    (hasTopLevel_of_wellSpelled hSlice _).1 _ rfl⟩

end Value

end Marginalia
