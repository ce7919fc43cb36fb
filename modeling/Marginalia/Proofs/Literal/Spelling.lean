import Marginalia.Literal.Grammar
import Marginalia.Proofs.Entries
import Marginalia.Proofs.Literal.Fitting
import Marginalia.Proofs.Probe

/-
  The spellings of values: texts that differ from the written
  form of a value in blanks, in the quotes of strings, and in
  the order and repetition of entries.

  Key definitions include:
    * `Literal.BareBefore`
    * `Literal.SpellsString`
    * `Value.SpellsInferred`
    * `Value.Spells`

  Main statements:
    * `Value.Fits.spells_text`
-/

namespace Marginalia

------------------------------------------------------------
-- Strings
------------------------------------------------------------

namespace Text

theorem toList_quoted
    (value : String) :
    (quoted value).toList =
      '"' :: (value.toList.flatMap escape ++ ['"']) := by
  unfold quoted
  rw [String.toList_ofList]
  rfl

end Text

namespace Literal

/-
  A text that may stand for itself before the given stops: it
  has no blanks at its ends and does not begin like a quoted
  one.
-/
structure BareBefore
    (stops text : List Char) : Prop where
  nonempty : text ≠ []
  trimmed : Text.trim text = text
  noStop : ∀ c ∈ text, c ∉ stops
  noQuote : text.head? ≠ some '"'
  noBacktick : text.head? ≠ some '`'

/- Digits with an optional minus sign. -/
def IntegerLike
    (text : List Char) : Prop :=
  ∃ digits,
    digits ≠ [] ∧
      (∀ c ∈ digits, c.isDigit = true) ∧
        (text = digits ∨ text = '-' :: digits)

/- Nothing in the text means anything to a probe. -/
def Unprobed
    (text : List Char) : Prop :=
  ∀ c ∈ text, Text.Ordinary c ∧ c ≠ ':'

/-
  A text that may stand for itself where its form decides
  what it is. In a group the text is also probed.
-/
structure BareInferred
    (inGroup : Bool)
    (text : List Char) : Prop
    extends BareBefore Scan.delimiters text where
  noBrace : text.head? ≠ some '{'
  notTrue : text ≠ "true".toList
  notFalse : text ≠ "false".toList
  notInteger : ¬ IntegerLike text
  unprobed : inGroup = true → Unprobed text

instance
    (text : List Char) :
    Decidable (Unprobed text) := by
  unfold Unprobed
  infer_instance

/- A key that may stand for itself in a group that is probed. -/
structure BareInferredKey
    (text : List Char) : Prop
    extends BareBefore keyStops text where
  unprobed : Unprobed text

/-
  The spellings of a string, given which texts may stand for
  themselves.
-/
inductive SpellsString
    (bare : List Char → Prop) :
    String → List Char → Prop
  | quoted (value : String) :
      SpellsString bare value (Text.quoted value).toList
  | backtick
      {value : String}
      (hValue : '`' ∉ value.toList) :
      SpellsString bare value
        ('`' :: (value.toList ++ ['`']))
  | bare
      {value : String}
      (hValue : bare value.toList) :
      SpellsString bare value value.toList
  | pad
      {value : String}
      {front text back : List Char}
      (hFront : Text.Blank front)
      (hText : SpellsString bare value text)
      (hBack : Text.Blank back) :
      SpellsString bare value (front ++ text ++ back)

------------------------------------------------------------
-- Groups
------------------------------------------------------------

/- A group of the given texts, which has blanks if empty. -/
def groupText
    (blanks : List Char)
    (texts : List (List Char)) : List Char :=
  '{' :: (blanks ++ [','].intercalate texts ++ ['}'])

/- An entry of a map as it is spelled. -/
structure SpelledEntry where
  key : String
  keyText : List Char
  value : Value
  valueText : List Char

namespace SpelledEntry

def text
    (entry : SpelledEntry) : List Char :=
  entry.keyText ++ ':' :: entry.valueText

def denoted
    (entry : SpelledEntry) : String × Value :=
  (entry.key, entry.value)

end SpelledEntry

/- The last spelled entry of each key is the one that counts. -/
structure Denotes
    (spelled : List SpelledEntry)
    (entries : List (String × Value)) : Prop where
  ascending : AscendingKeys entries
  last : ∀ key,
    entries.lookup key =
      (spelled.map SpelledEntry.denoted).reverse.lookup key

end Literal

------------------------------------------------------------
-- Values
------------------------------------------------------------

namespace Value

open Literal

/- The spellings of a value whose form is found out. -/
inductive SpellsInferred :
    Bool → Value → List Char → Prop
  | bool (inGroup value : Bool) :
      SpellsInferred inGroup (.bool value)
        (Value.bool value).text.toList
  | int (inGroup : Bool) (value : Int64) :
      SpellsInferred inGroup (.int value)
        (Value.int value).text.toList
  | string
      {inGroup : Bool}
      {value : String}
      {text : List Char}
      (hText :
        SpellsString (BareInferred inGroup) value text) :
      SpellsInferred inGroup (.string value) text
  | slice
      {inGroup : Bool}
      {blanks : List Char}
      {items : List (Value × List Char)}
      (hBlanks : Text.Blank blanks)
      (hItems : ∀ item ∈ items,
        SpellsInferred true item.1 item.2) :
      SpellsInferred inGroup (.slice (items.map Prod.fst))
        (groupText blanks (items.map Prod.snd))
  | map
      {inGroup : Bool}
      {spelled : List SpelledEntry}
      {entries : List (String × Value)}
      (hNonempty : spelled ≠ [])
      (hKeys : ∀ entry ∈ spelled,
        SpellsString BareInferredKey entry.key
          entry.keyText)
      (hValues : ∀ entry ∈ spelled,
        SpellsInferred true entry.value entry.valueText)
      (hEntries : Denotes spelled entries) :
      SpellsInferred inGroup (.map entries)
        (groupText [] (spelled.map SpelledEntry.text))
  | pad
      {inGroup : Bool}
      {value : Value}
      {front text back : List Char}
      (hFront : Text.Blank front)
      (hText : SpellsInferred inGroup value text)
      (hBack : Text.Blank back) :
      SpellsInferred inGroup value (front ++ text ++ back)

/- The spellings of a value that fits a descriptor. -/
inductive Spells :
    Descriptor → Value → List Char → Prop
  | bool (value : Bool) :
      Spells (.plain .bool) (.bool value)
        (Value.bool value).text.toList
  | signed (value : Int64) :
      Spells (.plain .signed) (.int value)
        (Value.int value).text.toList
  | unsigned
      {value : Int64}
      (hValue : 0 ≤ value.toInt) :
      Spells (.plain .unsigned) (.int value)
        (Value.int value).text.toList
  | unsignedBeyond
      {value : UInt64}
      (hValue : Int64.maxValue.toInt < value.toNat) :
      Spells (.plain .unsigned) (.uint value)
        (Value.uint value).text.toList
  | string
      {value : String}
      {text : List Char}
      (hText :
        SpellsString (BareBefore Scan.delimiters) value
          text) :
      Spells (.plain .string) (.string value) text
  | any
      {value : Value}
      {text : List Char}
      (hText : SpellsInferred false value text) :
      Spells (.plain .any) value text
  | slice
      {item : Descriptor}
      {blanks : List Char}
      {items : List (Value × List Char)}
      (hBlanks : Text.Blank blanks)
      (hItems : ∀ piece ∈ items,
        Spells item piece.1 piece.2) :
      Spells (.nested .slice item)
        (.slice (items.map Prod.fst))
        (groupText blanks (items.map Prod.snd))
  | map
      {item : Descriptor}
      {blanks : List Char}
      {spelled : List SpelledEntry}
      {entries : List (String × Value)}
      (hBlanks : Text.Blank blanks)
      (hKeys : ∀ entry ∈ spelled,
        SpellsString (BareBefore keyStops) entry.key
          entry.keyText)
      (hValues : ∀ entry ∈ spelled,
        Spells item entry.value entry.valueText)
      (hEntries : Denotes spelled entries) :
      Spells (.nested .map item) (.map entries)
        (groupText blanks (spelled.map SpelledEntry.text))
  | pad
      {descriptor : Descriptor}
      {value : Value}
      {front text back : List Char}
      (hFront : Text.Blank front)
      (hText : Spells descriptor value text)
      (hBack : Text.Blank back) :
      Spells descriptor value (front ++ text ++ back)

------------------------------------------------------------
-- The Written Form
------------------------------------------------------------

/- The written form of an integer. -/
theorem toList_repr
    (n : Int) :
    n.repr.toList =
      (if n < 0 then ['-'] else []) ++
        Nat.toDigits 10 n.natAbs := by
  cases n with
  | ofNat n =>
      have hSign : ¬ Int.ofNat n < 0 :=
        Int.not_lt.mpr (Int.natCast_nonneg n)
      rw [if_neg hSign]
      exact Nat.toList_repr
  | negSucc n =>
      rw [if_pos (Int.negSucc_lt_zero n)]
      show ("-" ++ Nat.repr (n + 1)).toList = _
      rw [String.toList_append, Nat.toList_repr]
      rfl

/- It has no other characters than a sign and digits. -/
theorem mem_toList_repr
    {n : Int}
    {c : Char}
    (hMember : c ∈ n.repr.toList) :
    c = '-' ∨ c.isDigit = true := by
  rw [toList_repr] at hMember
  rcases List.mem_append.mp hMember with hSign | hDigit
  · split at hSign
    · exact Or.inl (List.mem_singleton.mp hSign)
    · cases hSign
  · exact Or.inr
      (Nat.isDigit_of_mem_toDigits (by decide) (by decide)
        hDigit)

theorem itemTexts_eq
    (items : List Value) :
    itemTexts items = items.map text := by
  induction items with
  | nil => rfl
  | cons item rest ih =>
      rw [itemTexts, ih]
      rfl

theorem entryTexts_eq
    (entries : List (String × Value)) :
    entryTexts entries =
      entries.map fun entry =>
        Text.quoted entry.1 ++ ":" ++ entry.2.text := by
  induction entries with
  | nil => rfl
  | cons entry rest ih =>
      rw [entryTexts, ih]
      rfl

/- Texts in braces, with commas between them. -/
theorem toList_braced
    (texts : List String) :
    ("\x7b" ++ commaSeparated texts ++ "\x7d").toList =
      groupText [] (texts.map String.toList) := by
  unfold commaSeparated groupText
  rw [String.toList_append, String.toList_append,
    String.toList_intercalate]
  rfl

/- An entry as it is written. -/
def writtenEntry
    (entry : String × Value) : SpelledEntry where
  key := entry.1
  keyText := (Text.quoted entry.1).toList
  value := entry.2
  valueText := entry.2.text.toList

theorem text_writtenEntry
    (entry : String × Value) :
    (writtenEntry entry).text =
      (Text.quoted entry.1).toList ++
        ':' :: entry.2.text.toList := by
  dsimp only [SpelledEntry.text, writtenEntry]

/- The keys of written entries are quoted. -/
theorem spellsString_of_written
    {bare : List Char → Prop}
    {entries : List (String × Value)} :
    ∀ entry ∈ entries.map writtenEntry,
      SpellsString bare entry.key entry.keyText := by
  intro entry hEntry
  rcases List.mem_map.mp hEntry with ⟨written, _, rfl⟩
  exact .quoted written.1

/- Items as they are written. -/
def writtenItems
    (items : List Value) : List (Value × List Char) :=
  items.map fun item => (item, item.text.toList)

theorem map_fst_writtenItems
    (items : List Value) :
    (writtenItems items).map Prod.fst = items := by
  unfold writtenItems
  rw [List.map_map]
  exact List.map_id _

theorem toList_text_slice
    (items : List Value) :
    (Value.slice items).text.toList =
      groupText [] ((writtenItems items).map Prod.snd) := by
  unfold writtenItems
  rw [text, toList_braced, itemTexts_eq, List.map_map,
    List.map_map]
  rfl

theorem toList_text_map
    (entries : List (String × Value)) :
    (Value.map entries).text.toList =
      groupText []
        ((entries.map writtenEntry).map
          SpelledEntry.text) := by
  have hText :
      (String.toList ∘ fun entry : String × Value =>
        Text.quoted entry.1 ++ ":" ++ entry.2.text) =
          SpelledEntry.text ∘ writtenEntry := by
    funext entry
    simp [SpelledEntry.text, writtenEntry]
  rw [text, toList_braced, entryTexts_eq, List.map_map,
    List.map_map, hText]

theorem map_denoted_writtenEntry
    (entries : List (String × Value)) :
    (entries.map writtenEntry).map SpelledEntry.denoted =
      entries := by
  rw [List.map_map]
  exact List.map_id _

/- The written entries are those of the map. -/
theorem denotes_writtenEntry
    {entries : List (String × Value)}
    (hEntries : AscendingKeys entries) :
    Denotes (entries.map writtenEntry) entries := by
  refine ⟨hEntries, ?_⟩
  intro key
  rw [map_denoted_writtenEntry, hEntries.lookup_reverse]

/- The written form of a value is one of its spellings. -/
theorem Inferable.spells_text
    {value : Value}
    (hValue : value.Inferable)
    (inGroup : Bool) :
    SpellsInferred inGroup value value.text.toList := by
  induction hValue generalizing inGroup with
  | bool value => exact .bool inGroup value
  | int value => exact .int inGroup value
  | string value => exact .string (.quoted value)
  | @slice items _ ih =>
      have hSlice :
          SpellsInferred inGroup
            (.slice ((writtenItems items).map Prod.fst))
            (groupText []
              ((writtenItems items).map Prod.snd)) := by
        refine .slice nofun ?_
        intro item hItem
        rcases List.mem_map.mp hItem with
          ⟨value, hMember, rfl⟩
        exact ih value hMember true
      rw [map_fst_writtenItems, ← toList_text_slice]
        at hSlice
      exact hSlice
  | @map entries hAscending hNonempty _ ih =>
      rw [toList_text_map]
      refine .map ?_ spellsString_of_written ?_
        (denotes_writtenEntry hAscending)
      · rw [ne_eq, List.map_eq_nil_iff]
        exact hNonempty
      · intro entry hEntry
        rcases List.mem_map.mp hEntry with
          ⟨written, hMember, rfl⟩
        exact ih written hMember true

theorem Fits.spells_text
    {descriptor : Descriptor}
    {value : Value}
    (hValue : Fits descriptor value)
    (hRawFree : descriptor.RawFree) :
    Spells descriptor value value.text.toList := by
  induction hValue with
  | bool value => exact .bool value
  | signed value => exact .signed value
  | unsigned hValue => exact .unsigned hValue
  | unsignedBeyond hValue => exact .unsignedBeyond hValue
  | string value => exact .string (.quoted value)
  | raw value => exact absurd rfl hRawFree
  | any hValue => exact .any (hValue.spells_text false)
  | @slice item items _ ih =>
      have hSlice :
          Spells (.nested .slice item)
            (.slice ((writtenItems items).map Prod.fst))
            (groupText []
              ((writtenItems items).map Prod.snd)) := by
        refine .slice nofun ?_
        intro piece hPiece
        rcases List.mem_map.mp hPiece with
          ⟨value, hMember, rfl⟩
        exact ih value hMember hRawFree.2
      rw [map_fst_writtenItems, ← toList_text_slice]
        at hSlice
      exact hSlice
  | @map item entries hAscending _ ih =>
      rw [toList_text_map]
      refine .map nofun spellsString_of_written ?_
        (denotes_writtenEntry hAscending)
      intro entry hEntry
      rcases List.mem_map.mp hEntry with
        ⟨written, hMember, rfl⟩
      exact ih written hMember hRawFree.2

end Value

end Marginalia
