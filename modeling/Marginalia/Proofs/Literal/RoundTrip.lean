import Marginalia.Proofs.Literal.Inferred

/-
  The round trip of literals: every spelling of a value that
  fits a descriptor is read back as this value.

  Main statements:
    * `Value.Spells.reads`
    * `Descriptor.readValue_spelling`
-/

namespace Marginalia

namespace Value

open Literal

------------------------------------------------------------
-- Spellings
------------------------------------------------------------

/-
  What is taken behind the blanks in front of an item is read
  there.
-/
theorem reads_of_trimmed
    {item flat : ItemReader}
    {text : List Char}
    {value : Value}
    (hItem : ∀ frame,
      item frame .dynamic = (do
        Scan.skipBlanks (σ := Cursor)
        flat frame .dynamic))
    (hTakes : ∀ frame content rest,
      StopsAt (itemStops frame) rest →
        ∃ after,
          Fill.Takes (flat frame .dynamic)
              (Text.trimStart (text ++ rest)) content ()
              after value ∧
            Text.trimStart after = Text.trimStart rest)
    (bound : Nat) :
    item.Reads bound text value := by
  intro frame content rest before hRest hBefore hBound
  rcases hTakes frame content rest hRest with
    ⟨after, hFlat, hAfter⟩
  refine ⟨after, ?_, hAfter⟩
  rw [hItem]
  apply (Fill.Takes.lift .skipBlanks).bind
  rw [hBefore]
  exact hFlat

/- Enough nesting is granted for the text that is ahead. -/
theorem element_reads
    {value : Value}
    {text : List Char}
    (hText : ∀ depth,
      ElementReads (inferElement depth) depth text value)
    (bound : Nat) :
    ElementReads element bound text value := by
  intro rest before hRest hBefore _
  rcases hText (before.length + 1) rest before hRest hBefore
    (Nat.lt_succ_self _) with ⟨after, hTakes, hAfter⟩
  refine ⟨after, ?_, hAfter⟩
  refine .get ?_
  rintro cursor rfl
  exact hTakes

theorem text_int
    (value : Int64) :
    (Value.int value).text = value.toInt.repr := by
  rw [text]

theorem text_uint
    (value : UInt64) :
    (Value.uint value).text = value.toNat.repr := by
  rw [text]

theorem toList_text_uint
    (value : UInt64) :
    (Value.uint value).text.toList =
      Nat.toDigits 10 value.toNat := by
  rw [text_uint, Nat.toList_repr]

/- An integer without a sign is written with digits only. -/
theorem toList_text_int
    {value : Int64}
    (hValue : 0 ≤ value.toInt) :
    (Value.int value).text.toList =
      Nat.toDigits 10 value.toInt.natAbs := by
  rw [text_int, toList_repr, if_neg (by omega),
    List.nil_append]

theorem begins_digits
    (n : Nat) :
    Begins (Nat.toDigits 10 n) := by
  have hInt : (n : Int).repr.toList = Nat.toDigits 10 n :=
    Nat.toList_repr
  rw [← hInt]
  exact (bareBefore_of_int n).begins fun _ h => h

theorem begins_int
    (value : Int64) :
    Begins (Value.int value).text.toList := by
  rw [text_int]
  exact (bareBefore_of_int value.toInt).begins fun _ h => h

theorem Spells.begins
    {descriptor : Descriptor}
    {value : Value}
    {text : List Char}
    (hText : Spells descriptor value text) :
    Begins text := by
  induction hText with
  | bool value =>
      exact (bareBefore_of_bool value).begins fun _ h => h
  | signed value => exact begins_int value
  | unsigned => exact begins_int _
  | unsignedBeyond =>
      rw [toList_text_uint]
      exact begins_digits _
  | string hText =>
      exact hText.begins (fun _ h => h) fun _ hBare => hBare
  | any hText => exact hText.begins
  | slice => exact begins_groupText _ _
  | map => exact begins_groupText _ _
  | pad hFront _ _ ih => exact ih.pad hFront _

/-
  The value of digits that denote a number without a sign is
  an integer with a sign where it fits.
-/
theorem exists_ofUnsigned_int
    {value : Int64}
    (hValue : 0 ≤ value.toInt) :
    ∃ unsigned : UInt64,
      unsigned.toNat = value.toInt.natAbs ∧
        ofUnsigned unsigned = .int value := by
  have hSigned := fitsSigned_toInt value
  have hRange := fitsSigned_iff.mp hSigned
  have hNat :
      (UInt64.ofNat value.toInt.natAbs).toNat =
        value.toInt.natAbs :=
    toNat_ofNat_of_fits
      (fitsUnsigned_iff.mpr ⟨by omega, by omega⟩)
  have hInt :
      ((value.toInt.natAbs : Nat) : Int) = value.toInt := by
    omega
  refine ⟨UInt64.ofNat value.toInt.natAbs, hNat, ?_⟩
  unfold ofUnsigned
  rw [hNat, hInt, if_pos hSigned]
  congr 1
  rw [← Int64.ofInt_eq_ofNat, hInt, Int64.ofInt_toInt]

theorem ofUnsigned_of_beyond
    {value : UInt64}
    (hValue : Int64.maxValue.toInt < value.toNat) :
    ofUnsigned value = .uint value := by
  have hMax : Int64.maxValue.toInt = 2 ^ 63 - 1 := by
    decide
  unfold ofUnsigned
  rw [if_neg]
  intro hFits
  have hRange := fitsSigned_iff.mp hFits
  omega

/- An integer without a sign is read behind blanks. -/
theorem takes_fillUnsigned_digits
    {value : Value}
    {unsigned : UInt64}
    (hValue : ofUnsigned unsigned = value)
    {rest : List Char}
    (hRest : StopsAt Scan.delimiters rest)
    (content : Target.dynamic.Content) :
    Fill.Takes (fillUnsigned .dynamic)
      (Text.trimStart
        (Nat.toDigits 10 unsigned.toNat ++ rest))
      content () rest value := by
  rw [trimStart_digits, ← hValue]
  exact takes_fillUnsigned unsigned hRest content

/-
  Behind the blanks in front of it, a grammar takes all of the
  text and nothing of what follows.
-/
theorem fill_reads_of_takes
    {descriptor : Descriptor}
    {flat : ItemReader}
    {text : List Char}
    {value : Value}
    (hFill : ∀ frame,
      descriptor.fill (σ := Cursor) frame .dynamic = (do
        Scan.skipBlanks (σ := Cursor)
        flat frame .dynamic))
    (hTakes : ∀ frame content rest,
      StopsAt (itemStops frame) rest →
        Fill.Takes (flat frame .dynamic)
          (Text.trimStart (text ++ rest)) content () rest
          value)
    (bound : Nat) :
    ItemReader.Reads descriptor.fill bound text value := by
  refine reads_of_trimmed hFill ?_ bound
  intro frame content rest hRest
  exact ⟨rest, hTakes frame content rest hRest, rfl⟩

/-
  Every spelling of a value is read back by the grammar of
  the descriptor, wherever a stop follows.
-/
theorem Spells.reads
    {descriptor : Descriptor}
    {value : Value}
    {text : List Char}
    (hText : Spells descriptor value text) :
    ∀ bound,
      ItemReader.Reads descriptor.fill bound text value := by
  induction hText with
  | bool value =>
      refine fill_reads_of_takes
        (fun frame => Descriptor.fill_eq _ frame _) ?_
      intro frame content rest hRest
      rw [trimStart_bool]
      exact takes_fillBool value hRest.delimiters content
  | signed value =>
      refine fill_reads_of_takes
        (fun frame => Descriptor.fill_eq _ frame _) ?_
      intro frame content rest hRest
      rw [text_int, trimStart_repr]
      exact takes_fillSigned value hRest.delimiters content
  | unsigned hValue =>
      refine fill_reads_of_takes
        (fun frame => Descriptor.fill_eq _ frame _) ?_
      intro frame content rest hRest
      rcases exists_ofUnsigned_int hValue with
        ⟨unsigned, hNat, hUnsigned⟩
      rw [toList_text_int hValue, ← hNat]
      exact takes_fillUnsigned_digits hUnsigned
        hRest.delimiters content
  | unsignedBeyond hValue =>
      refine fill_reads_of_takes
        (fun frame => Descriptor.fill_eq _ frame _) ?_
      intro frame content rest hRest
      rw [toList_text_uint]
      exact takes_fillUnsigned_digits
        (ofUnsigned_of_beyond hValue) hRest.delimiters content
  | string hText =>
      refine reads_of_trimmed
        (fun frame => Descriptor.fill_eq _ frame _) ?_
      intro frame content rest hRest
      rcases hText.takes (by decide) (fun _ hBare => hBare)
        hRest.delimiters with ⟨after, hTakes, hAfter⟩
      refine ⟨after, ?_, hAfter⟩
      refine .position fun start => ?_
      exact (Fill.Takes.lift hTakes).bind (.store rfl)
  | any hText =>
      intro bound
      exact reads_of_skipBlanks
        (fillAny_reads (element_reads hText.reads bound))
  | slice hBlanks hItems ih =>
      refine fill_reads_of_takes
        (fun frame => Descriptor.fill_eq _ frame _) ?_
      intro frame content rest hRest
      refine takes_fillSlice hBlanks ?_ ?_ frame content rest
        (Nat.le_refl _)
      · intro piece hPiece
        exact (hItems piece hPiece).begins
      · intro piece hPiece
        exact ih piece hPiece _
  | map hBlanks hKeys _ hEntries ih =>
      refine fill_reads_of_takes
        (fun frame => Descriptor.fill_eq _ frame _) ?_
      intro frame content rest hRest
      refine takes_fillMap (fun _ hBare => hBare) hBlanks
        hKeys ?_ hEntries content rest (Nat.le_refl _)
      intro entry hEntry
      exact ih entry hEntry _
  | pad hFront _ hBack ih =>
      intro bound
      exact reads_pad hFront (ih bound) hBack

end Value

namespace Descriptor

open Literal

------------------------------------------------------------
-- The Round Trip
------------------------------------------------------------

/- Nothing is left where only blanks were. -/
theorem takes_expectEnd
    {after : List Char}
    (hAfter : Text.trimStart after = []) :
    Scan.Takes expectEnd after () [] := by
  apply Scan.Takes.skipBlanks.bind
  rw [hAfter]
  refine .get fun cursor hAhead => ?_
  have hEnd : cursor.atEnd = true := by
    unfold Cursor.atEnd
    rw [hAhead]
    rfl
  rw [hEnd]
  exact .pure ()

/-
  The written form of a value that fits a descriptor is one
  of its spellings, and every spelling is read as the value.
-/
theorem readValue_spelling
    {descriptor : Descriptor}
    {value : Value}
    (hRawFree : descriptor.RawFree)
    (hFits : Value.Fits descriptor value) :
    Value.Spells descriptor value value.text.toList ∧
      ∀ text : String,
        Value.Spells descriptor value text.toList →
          (descriptor.readValue text).result = .ok () ∧
            (descriptor.readValue text).content = value := by
  refine ⟨hFits.spells_text hRawFree, ?_⟩
  intro text hText
  have hEnd : StopsAt elementStops [] := by
    rintro c ⟨⟩
  rcases hText.reads (text.toList.length + 1) .whole
    Value.null [] text.toList hEnd
    (by rw [List.append_nil]) (Nat.lt_succ_self _) with
    ⟨after, hTakes, hAfter⟩
  have hRead :
      Fill.Takes
        (do
          descriptor.fill .whole .dynamic
          expectEnd)
        text.toList Value.null () [] value :=
    hTakes.bind (.lift (takes_expectEnd hAfter))
  rcases hRead (.ofText text) rfl with ⟨cursor, hRun, _⟩
  unfold readValue read outcomeOf
  rw [hRun]
  exact ⟨rfl, rfl⟩

/- A key is renewed by a later entry, blanks or not. -/
theorem readValue_spelling_renewed_key :
    RawFree (.nested .map (.plain .signed)) ∧
      Value.Fits (.nested .map (.plain .signed))
        (.map [("a", .int 2)]) ∧
      (readValue (.nested .map (.plain .signed))
        "\x7ba :1, a:2\x7d").content =
          .map [("a", .int 2)] := by
  have hRawFree :
      RawFree (.nested .map (.plain .signed)) := by
    decide
  have hFits :
      Value.Fits (.nested .map (.plain .signed))
        (.map [("a", .int 2)]) := by
    refine .map (List.pairwise_singleton _ _) ?_
    intro entry hEntry
    cases List.mem_singleton.mp hEntry
    exact .signed 2
  have hBlank : Text.Blank [' '] := by
    unfold Text.Blank
    decide
  have hEmpty : Text.Blank [] := nofun
  let first : SpelledEntry :=
    ⟨"a", "a ".toList, .int 1, "1".toList⟩
  let second : SpelledEntry :=
    ⟨"a", " a".toList, .int 2, "2".toList⟩
  have hBare :
      BareBefore keyStops "a".toList :=
    .of_forall (by decide) (by decide)
  have hText :
      Value.Spells (.nested .map (.plain .signed))
        (.map [("a", .int 2)])
        (groupText []
          ([first, second].map SpelledEntry.text)) := by
    refine .map hEmpty ?_ ?_ ?_
    · intro entry hEntry
      rcases List.mem_pair.mp hEntry with rfl | rfl
      · exact .pad hEmpty (.bare hBare) hBlank
      · exact .pad hBlank (.bare hBare) hEmpty
    · intro entry hEntry
      rcases List.mem_pair.mp hEntry with rfl | rfl
      · exact .signed 1
      · exact .signed 2
    · refine ⟨List.pairwise_singleton _ _, ?_⟩
      intro key
      show List.lookup key [("a", Value.int 2)] =
        List.lookup key
          [("a", Value.int 2), ("a", Value.int 1)]
      rw [List.lookup_cons, List.lookup_cons,
        List.lookup_cons]
      cases key == "a" <;> rfl
  refine ⟨hRawFree, hFits, ?_⟩
  exact ((readValue_spelling hRawFree hFits).2
    "\x7ba :1, a:2\x7d" hText).2

end Descriptor

end Marginalia
