import Marginalia.Proofs.Literal.Balanced

/-
  Groups of raw items: every item that is balanced text is
  passed through as it is, without the blanks around it, if
  the quoted parts of all of them are strings; if one of these
  is not, the group is refused.

  Key definitions include:
    * `Literal.CollectsRaw`

  Main statements:
    * `Descriptor.reads_rawItems`
-/

namespace Marginalia

namespace Literal

variable {text rest : List Char}

------------------------------------------------------------
-- Items
------------------------------------------------------------

/- The bytes of raw text. -/
def rawBytes
    (raw : String) : List UInt8 :=
  raw.toUTF8.data.toList

/- The raw text of an item that has blanks around it. -/
def rawOf
    (text : List Char) : String :=
  String.ofList (Text.trim text)

/-
  An item of balanced text: without the blanks around it, it
  is not empty.
-/
structure RawItem
    (body : List Char → Prop)
    (text : List Char) : Prop where
  nonempty : Text.trim text ≠ []
  balanced : Balanced body false (Text.trim text)

/- Balanced text does not begin with a closing brace. -/
theorem Balanced.head_ne
    {body : List Char → Prop}
    {commas : Bool}
    {c : Char}
    (hText : Balanced body commas (c :: rest)) :
    c ≠ '}' := by
  cases hText with
  | plain hOrdinary =>
      rintro rfl
      exact hOrdinary (by decide)
  | quoted => decide
  | backtick => decide
  | bracketed hPair =>
      rcases List.mem_pair.mp hPair with hPair | hPair
      · cases hPair
        decide
      · cases hPair
        decide

/- In front of an item there is nothing but blanks. -/
theorem RawItem.exists_trimStart
    {body : List Char → Prop}
    (hText : RawItem body text) :
    ∃ back,
      Text.Blank back ∧
        ∀ rest,
          Text.trimStart (text ++ rest) =
            Text.trim text ++ (back ++ rest) := by
  rcases Text.exists_trimEnd_append_blank
    (Text.trimStart text) with ⟨back, hBack, hSplit⟩
  refine ⟨back, hBack, fun rest => ?_⟩
  have hStart : Text.trimStart text ≠ [] := by
    intro hEmpty
    apply hText.nonempty
    unfold Text.trim
    rw [hEmpty]
    rfl
  rw [Text.trimStart_append_of_ne_nil hStart, hSplit,
    List.append_assoc]
  rfl

theorem RawItem.opens
    {body : List Char → Prop}
    (hText : RawItem body text) :
    Opens text := by
  rcases hText.exists_trimStart with ⟨back, _, hSplit⟩
  have hStart := hSplit []
  rw [List.append_nil] at hStart
  have hBalanced := hText.balanced
  cases hTrim : Text.trim text with
  | nil => exact absurd hTrim hText.nonempty
  | cons c inner =>
      rw [hTrim] at hStart hBalanced
      exact ⟨c, _, hStart, hBalanced.head_ne⟩

/- A raw item is read in a group. -/
theorem fill_raw
    (target : Target) :
    (Descriptor.plain .raw).fill (σ := Cursor) .group target = (do
      Scan.skipBlanks (σ := Cursor)
      let start ← Scan.position (σ := Cursor)
      let raw ← balanced (σ := Cursor) (rawStops .group)
      Fill.store (target.setRaw (rawBytes raw)) raw start) :=
  rfl

theorem RawItem.readsElement
    {target : Target}
    {content content' : target.Content}
    (hText : RawItem SpelledBody text)
    (hStore :
      target.setRaw (rawBytes (rawOf text)) content =
        .ok () content')
    (bound : Nat) :
    Fill.ReadsElement
      ((Descriptor.plain .raw).fill .group target) bound text
      content content' := by
  intro rest hRest _
  rcases hText.exists_trimStart with ⟨back, hBack, hSplit⟩
  have hEnds :=
    Text.ends_of_trimmed hText.nonempty (Text.trim_trim text)
  have hTakes :=
    hText.balanced.takes hEnds (stopsAt_pad hBack hRest)
  rw [← hSplit, Text.trimStart_append_of_blank hBack]
    at hTakes
  refine ⟨Text.trimStart rest, ?_,
    Text.trimStart_trimStart rest⟩
  rw [fill_raw]
  apply (Fill.Takes.lift .skipBlanks).bind
  rw [Text.trimStart_trimStart]
  refine .position fun start => ?_
  exact (Fill.Takes.lift hTakes).bind (.store hStore)

/- The quoted parts of an item that is read are strings. -/
theorem RawItem.onlyReads
    (hText : RawItem Protected text)
    (target : Target) :
    Fill.OnlyReads
      ((Descriptor.plain .raw).fill .group target) text
      (RawItem SpelledBody text) := by
  intro rest hRest
  rcases hText.exists_trimStart with ⟨back, hBack, hSplit⟩
  have hTakes :=
    hText.balanced.onlyTakes (stopsAt_pad hBack hRest)
  rw [← hSplit, Text.trimStart_append_of_blank hBack]
    at hTakes
  rw [fill_raw]
  refine .takesFill .skipBlanks ?_
  rw [Text.trimStart_trimStart]
  refine .positionFill fun start => ?_
  refine .read hTakes ?_
  rintro raw _ ⟨hSpelled, rfl⟩
  exact .store fun _ =>
    ⟨⟨hText.nonempty, hSpelled⟩, Text.trimStart_trimStart _⟩

------------------------------------------------------------
-- Destinations
------------------------------------------------------------

/-
  A destination that takes raw items one after another, given
  what it holds after some of them.
-/
structure CollectsRaw
    (target : Target)
    (holds : List String → target.Content → Prop) : Prop where
  begins : ∀ content,
    ∃ begun,
      target.beginSlice content = .ok () begun ∧
        holds [] begun
  takes : ∀ {raws content},
    holds raws content →
      ∀ raw,
        ∃ (child : Child target) (pushed : target.Content)
            (content' : child.inner.Content),
          target.pushItem content = .ok child pushed ∧
            child.inner.setRaw (rawBytes raw)
                child.inner.fresh =
              .ok () content' ∧
            holds (raws ++ [raw]) (child.put content')

/- A value holds them as strings. -/
theorem collectsRaw_dynamic :
    CollectsRaw .dynamic fun raws value =>
      value = Value.slice (raws.map Value.string) := by
  constructor
  · intro content
    exact ⟨Value.slice [], rfl, rfl⟩
  · rintro raws _ rfl raw
    refine ⟨itemPlace _, _, Value.string raw, rfl, ?_, ?_⟩
    · show EStateM.Result.ok ()
          (Value.string (String.ofList
            (Text.decodeLossy (rawBytes raw)))) = _
      unfold rawBytes
      rw [Text.decodeLossy_toUTF8, String.ofList_toList]
      rfl
    · show Value.slice _ = Value.slice _
      rw [List.map_append, List.map_singleton]

/- A list of lists of bytes holds their bytes. -/
theorem collectsRaw_bytes :
    CollectsRaw (.list (.list (.int .u8)))
      fun raws (items : List (List IntType.u8.Member)) =>
        items.map (List.map Target.byteOf) =
          raws.map rawBytes := by
  constructor
  · intro content
    exact ⟨[], rfl, rfl⟩
  · rintro raws (items : List (List IntType.u8.Member))
      hItems raw
    rcases setRaw_bytes (rawBytes raw) [] with
      ⟨members, hBytes, hRun⟩
    refine ⟨Target.itemAfter items, _, members, rfl, hRun, ?_⟩
    show List.map (List.map Target.byteOf)
        (items ++ [members]) = _
    rw [List.map_append, List.map_append, hItems,
      List.map_singleton, List.map_singleton, hBytes]

variable {target : Target}
variable {holds : List String → target.Content → Prop}
variable {texts : List (List Char)}

theorem CollectsRaw.readsElements
    (hTarget : CollectsRaw target holds)
    (hTexts : ∀ text ∈ texts, RawItem SpelledBody text)
    (bound : Nat)
    {raws : List String}
    {content : target.Content}
    (hContent : holds raws content) :
    ∃ content',
      Fill.ReadsElements
          (fillItem (Descriptor.plain .raw).fill .group
            target)
          bound texts content content' ∧
        holds (raws ++ texts.map rawOf) content' := by
  induction texts generalizing raws content with
  | nil =>
      refine ⟨content, .nil content, ?_⟩
      rw [List.map_nil, List.append_nil]
      exact hContent
  | cons text texts ih =>
      have hFirst := hTexts text List.mem_cons_self
      rcases hTarget.takes hContent (rawOf text) with
        ⟨child, pushed, content', hPush, hStore, hNext⟩
      rcases ih
        (fun other hMember =>
          hTexts other (List.mem_cons_of_mem _ hMember))
        hNext with ⟨final, hReads, hFinal⟩
      refine ⟨final, .cons hFirst.opens ?_ hReads, ?_⟩
      · exact readsElement_of_pushItem hPush
          (hFirst.readsElement hStore bound)
      · rw [List.append_assoc] at hFinal
        exact hFinal

/- A group of raw items is taken item by item. -/
theorem CollectsRaw.takes_fill
    (hTarget : CollectsRaw target holds)
    (hTexts : ∀ text ∈ texts, RawItem SpelledBody text)
    (content : target.Content) :
    ∃ content',
      Fill.Takes
          ((Descriptor.nested .slice (.plain .raw)).fill
            .whole target)
          (groupText [] texts) content () [] content' ∧
        holds (texts.map rawOf) content' := by
  rcases hTarget.begins content with
    ⟨begun, hBegin, hBegun⟩
  rcases hTarget.readsElements hTexts
    (groupText [] texts ++ []).length hBegun with
    ⟨content', hReads, hContent⟩
  refine ⟨content', ?_, hContent⟩
  have hBlanks : Text.Blank [] := nofun
  have hGroup :=
    Fill.takes_group hBlanks hReads [] (Nat.le_refl _)
  rw [List.append_nil] at hGroup
  rw [Descriptor.fill_eq]
  apply (Fill.Takes.lift .skipBlanks).bind
  have hOpen : (groupText [] texts).head? = some '{' :=
    rfl
  rw [Text.trimStart_of_head hOpen (by decide)]
  exact takes_fillSlice_group hBegin hOpen hGroup

/- A group is taken only if its items are. -/
theorem onlyTakes_fill_rawItems
    (hTexts : ∀ text ∈ texts, RawItem Protected text)
    (target : Target) :
    OnlyTakes Prod.fst
      ((Descriptor.nested .slice (.plain .raw)).fill .whole
        target)
      (groupText [] texts)
      fun _ _ => ∀ text ∈ texts, RawItem SpelledBody text := by
  have hBlanks : Text.Blank [] := nofun
  have hOpen : (groupText [] texts).head? = some '{' :=
    rfl
  have hItems :
      ∀ text ∈ texts,
        Opens text ∧
          Fill.OnlyReads
            (fillItem (Descriptor.plain .raw).fill .group
              target)
            text (RawItem SpelledBody text) := by
    intro text hMember
    have hText := hTexts text hMember
    exact ⟨hText.opens, onlyReads_fillItem fun child =>
      hText.onlyReads child.inner⟩
  have hGroup := Fill.onlyTakes_group hBlanks hItems []
  rw [List.append_nil] at hGroup
  rw [Descriptor.fill_eq]
  refine .takesFill .skipBlanks ?_
  rw [Text.trimStart_of_head hOpen (by decide)]
  refine (onlyTakes_fillSlice_group hOpen hGroup).imp ?_
  intro _ _ hItems
  exact hItems.1

end Literal

namespace Descriptor

open Literal

------------------------------------------------------------
-- Groups of Raw Items
------------------------------------------------------------

/-
  Whatever raw items stand in a group, with blanks around
  them, and whatever they are read into: the reading has
  exactly these items if their quoted parts are strings, and
  it fails if one of these is not.
-/
theorem reads_rawItems
    {texts : List (List Char)}
    (hTexts : ∀ text ∈ texts, RawItem Protected text) :
    ((∀ text ∈ texts, RawItem SpelledBody text) →
      (nested .slice (.plain .raw)).Reads
          (String.ofList (groupText [] texts))
          (.slice ((texts.map rawOf).map .string)) ∧
        ∃ items : List (List IntType.u8.Member),
          Target.read (.list (.list (.int .u8)))
              (String.ofList (groupText [] texts)) =
            .ok items ∧
          items.map (List.map Target.byteOf) =
            (texts.map rawOf).map rawBytes) ∧
      ((∃ text ∈ texts, ¬ RawItem SpelledBody text) →
        (∃ error,
          ((nested .slice (.plain .raw)).readValue
              (String.ofList (groupText [] texts))).result =
            .error error) ∧
          ∃ error,
            Target.read (.list (.list (.int .u8)))
                (String.ofList (groupText [] texts)) =
              .error error) := by
  have hText :
      (String.ofList (groupText [] texts)).toList =
        groupText [] texts :=
    String.toList_ofList
  constructor
  · intro hSpelled
    constructor
    · rcases collectsRaw_dynamic.takes_fill hSpelled Value.null
        with ⟨_, hTakes, rfl⟩
      rw [← hText] at hTakes
      exact reads_of_takes hTakes nofun
    · rcases collectsRaw_bytes.takes_fill hSpelled []
        with ⟨items, hTakes, hItems⟩
      rw [← hText] at hTakes
      refine ⟨items, ?_, hItems⟩
      exact (Target.read_eq_ok_iff rfl).mpr
        (read_of_takes hTakes nofun)
  · rintro ⟨text, hMember, hOther⟩
    have hFails :
        ∀ target : Target,
          OnlyTakes Prod.fst
            ((nested .slice (.plain .raw)).fill .whole
              target)
            (String.ofList (groupText [] texts)).toList
            fun _ after => ¬ Text.Blank after := by
      intro target
      rw [hText]
      refine (onlyTakes_fill_rawItems hTexts target).imp ?_
      intro _ _ hSpelled
      exact absurd (hSpelled text hMember) hOther
    constructor
    · exact read_of_onlyTakes (hFails .dynamic)
    · rcases read_of_onlyTakes
        (hFails (.list (.list (.int .u8)))) with
        ⟨error, hError⟩
      exact ⟨error, Target.read_eq_error rfl hError⟩

/- A comma inside of brackets and quotes separates nothing. -/
theorem reads_rawItems_inner_comma :
    (nested .slice (.plain .raw)).Reads
        "\x7b [\"a,b\"],x;y \x7d"
        (.slice [.string "[\"a,b\"]", .string "x;y"]) := by
  have hSpells : SpelledBody "a,b".toList :=
    ⟨_, spellsCharacters_escape "a,b".toList⟩
  have hItems :
      ∀ body : List Char → Prop,
        body "a,b".toList →
          ∀ text ∈ [" [\"a,b\"]".toList, "x;y ".toList],
            RawItem body text := by
    intro body hBody text hMember
    have hQuoted :
        Balanced body true
          ('"' :: ("a,b".toList ++ '"' :: [])) :=
      .quoted hBody .nil
    have hFirst :
        Balanced body false
          ('[' :: ('"' :: ("a,b".toList ++ '"' :: []) ++
            ']' :: [])) :=
      .bracketed (by decide) hQuoted .nil
    have hSecond : Balanced body false "x;y".toList :=
      .plain (by decide) (by decide)
        (.plain (by decide) (by decide)
          (.plain (by decide) (by decide) .nil))
    rcases List.mem_pair.mp hMember with rfl | rfl
    · exact ⟨by decide, hFirst⟩
    · exact ⟨by decide, hSecond⟩
  exact ((reads_rawItems
    (hItems Protected hSpells.protected)).1
      (hItems SpelledBody hSpells)).1

/- Text that is balanced is refused for an escape in it. -/
theorem readValue_rawItem_unknown_escape :
    RawItem Protected "\"\\d\"".toList ∧
      ((nested .slice (.plain .raw)).readValue
          "\x7b\"\\d\"\x7d").result =
        .error (.syntaxError .escape "\\d" 2) := by
  have hBody : Protected ['\\', 'd'] := .escaped 'd' .nil
  have hText :
      Balanced Protected false
        ('"' :: (['\\', 'd'] ++ '"' :: [])) :=
    .quoted hBody .nil
  exact ⟨⟨by decide, hText⟩, rfl⟩

end Descriptor

end Marginalia
