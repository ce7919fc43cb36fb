import Marginalia.Proofs.Literal.Reads

/-
  Every spelling of a value whose form is found out is read
  as this value.

  Key definitions include:
    * `Literal.ElementReads`

  Main statements:
    * `Value.SpellsInferred.reads`
-/

namespace Marginalia

namespace Literal

------------------------------------------------------------
-- Tokens
------------------------------------------------------------

theorem integerToken_digits
    {digits : List Char}
    (hDigits : ∀ c ∈ digits, c.isDigit = true)
    (hNonempty : digits ≠ []) :
    integerToken? digits =
        some (decimalValue digits : Int) ∧
      integerToken? ('-' :: digits) =
        some (-(decimalValue digits : Int)) := by
  have hTest :
      (digits.all isDigit && !digits.isEmpty) = true := by
    rw [Bool.and_eq_true, List.all_eq_true,
      Bool.not_eq_true', List.isEmpty_eq_false_iff]
    exact ⟨hDigits, hNonempty⟩
  constructor
  · unfold integerToken?
    split
    · exact absurd (hDigits '-' List.mem_cons_self) (by decide)
    · rw [if_pos hTest]
  · rw [integerToken?, if_pos hTest]

/- A text that is not like an integer is a string. -/
theorem integerToken_eq_none
    {text : List Char}
    (hText : ¬ IntegerLike text) :
    integerToken? text = none := by
  have hTest :
      ∀ digits : List Char,
        (digits.all isDigit && !digits.isEmpty) = true →
          digits ≠ [] ∧
            ∀ c ∈ digits, c.isDigit = true := by
    intro digits hDigits
    rw [Bool.and_eq_true, List.all_eq_true,
      Bool.not_eq_true', List.isEmpty_eq_false_iff]
      at hDigits
    exact ⟨hDigits.2, hDigits.1⟩
  unfold integerToken?
  split
  · rename_i digits
    split
    · rename_i hDigits
      have hOwn := hTest digits hDigits
      exact absurd
        ⟨digits, hOwn.1, hOwn.2, Or.inr rfl⟩ hText
    · rfl
  · split
    · rename_i hDigits
      have hOwn := hTest text hDigits
      exact absurd ⟨text, hOwn.1, hOwn.2, Or.inl rfl⟩ hText
    · rfl

/- The written form of an integer is found to be one. -/
theorem integerToken_repr
    (n : Int) :
    integerToken? n.repr.toList = some n := by
  have hDigits :
      ∀ c ∈ Nat.toDigits 10 n.natAbs, c.isDigit = true :=
    fun c hMember =>
      Nat.isDigit_of_mem_toDigits (by decide) (by decide)
        hMember
  have hToken :=
    integerToken_digits hDigits Nat.toDigits_ne_nil
  rw [decimalValue_toDigits] at hToken
  rw [Value.toList_repr]
  split
  · rw [List.singleton_append, hToken.2, Option.some.injEq]
    omega
  · rw [List.nil_append, hToken.1, Option.some.injEq]
    omega

/- A bare text is read as what its token is. -/
theorem takes_inferElement_bare
    {text rest : List Char}
    {value : Value}
    (hText : BareBefore Scan.delimiters text)
    (hBrace : text.head? ≠ some '{')
    (hToken : ∀ start after,
      Scan.Takes (inferToken (String.ofList text) start)
        after value after)
    (hRest : StopsAt Scan.delimiters rest)
    (depth : Nat) :
    Scan.Takes (inferElement (depth + 1)) (text ++ rest)
      value (Text.trimStart rest) := by
  have hBare := takes_bare (by decide) hText hRest
  rw [inferElement_succ]
  apply Scan.Takes.skipBlanks.bind
  rw [hText.trimStart]
  apply Scan.Takes.peek.bind
  rw [hText.head]
  split
  · rename_i hHead
    exact absurd hHead hBrace
  · rename_i hHead
    exact absurd hHead hText.noQuote
  · rename_i hHead
    exact absurd hHead hText.noBacktick
  · refine .position fun start => ?_
    exact hBare.bind (hToken start _)

------------------------------------------------------------
-- Elements
------------------------------------------------------------

/-
  The reader of values finds the value of the text wherever a
  stop follows, with fewer characters ahead than the bound.
-/
def ElementReads
    (element : Scan Value)
    (bound : Nat)
    (text : List Char)
    (value : Value) : Prop :=
  ∀ rest before,
    StopsAt Scan.delimiters rest →
      Text.trimStart before = Text.trimStart (text ++ rest) →
        before.length < bound →
          ∃ after,
            Scan.Takes element before value after ∧
              Text.trimStart after = Text.trimStart rest

/- No run begins where no semicolon follows. -/
theorem takes_inferWith_of_head
    {element : Scan Value}
    {frame : Frame}
    {before after rest : List Char}
    {value : Value}
    (hElement : Scan.Takes element before value after)
    (hAfter : Text.trimStart after = Text.trimStart rest)
    (hHead :
      frame ≠ .run →
        (Text.trimStart rest).head? ≠ some ';') :
    ∃ after',
      Scan.Takes (inferWith element frame) before value
          after' ∧
        Text.trimStart after' = Text.trimStart rest := by
  by_cases hFrame : frame = .run
  · refine ⟨after, hElement.bind ?_, hAfter⟩
    rw [if_pos hFrame]
    exact .pure value
  · refine ⟨Text.trimStart rest, hElement.bind ?_,
      Text.trimStart_trimStart rest⟩
    rw [if_neg hFrame]
    apply Scan.Takes.skipBlanks.bind
    rw [hAfter]
    apply Scan.Takes.peek.bind
    rw [if_neg (hHead hFrame)]
    exact .pure value

/- Outside of runs a semicolon is not one of the stops. -/
theorem takes_inferWith
    {element : Scan Value}
    {before after rest : List Char}
    {value : Value}
    (hElement : Scan.Takes element before value after)
    (hAfter : Text.trimStart after = Text.trimStart rest)
    {frame : Frame}
    (hRest : StopsAt (itemStops frame) rest) :
    ∃ after',
      Scan.Takes (inferWith element frame) before value
          after' ∧
        Text.trimStart after' = Text.trimStart rest := by
  apply takes_inferWith_of_head hElement hAfter
  intro hFrame hSemicolon
  have hStop := hRest ';' hSemicolon
  cases frame with
  | run => exact hFrame rfl
  | whole => exact absurd hStop (by decide)
  | group => exact absurd hStop (by decide)

theorem fillAny_reads
    {element : Scan Value}
    {bound : Nat}
    {text : List Char}
    {value : Value}
    (hElement : ElementReads element bound text value) :
    (fillAny element).Reads bound text value := by
  intro frame content rest before hRest hBefore hBound
  rcases hElement rest before hRest.delimiters hBefore hBound
    with ⟨middle, hTakes, hMiddle⟩
  rcases takes_inferWith hTakes hMiddle hRest with
    ⟨after, hInfer, hAfter⟩
  refine ⟨after, ?_, hAfter⟩
  refine .position fun start => ?_
  apply (Fill.Takes.lift hInfer).bind
  exact .store rfl

end Literal

namespace Value

open Literal

/- Words and integers have no blanks, stops or quotes. -/
theorem bareBefore_of_bool
    (value : Bool) :
    BareBefore Scan.delimiters
      (Value.bool value).text.toList := by
  cases value <;>
    exact .of_forall (by decide) (by decide)

theorem bareBefore_of_int
    (n : Int) :
    BareBefore Scan.delimiters n.repr.toList := by
  refine .of_forall ?_ ?_
  · rw [toList_repr, ne_eq, List.append_eq_nil_iff, not_and]
    intro _
    exact Nat.toDigits_ne_nil
  · intro c hMember
    rcases mem_toList_repr hMember with rfl | hDigit
    · decide
    · exact Text.forall_isDigit
        (p := fun c =>
          Text.isBlank c = false ∧ c ∉ Scan.delimiters ∧
            c ≠ '"' ∧ c ≠ '`')
        (by decide) hDigit

/- The token of a truth value or an integer denotes it. -/
theorem takes_inferToken_bool
    (value : Bool)
    (start : Nat)
    (after : List Char) :
    Scan.Takes (inferToken (Value.bool value).text start)
      after (.bool value) after := by
  cases value with
  | true => exact .pure _
  | false => exact .pure _

theorem takes_inferToken_int
    (value : Int64)
    (start : Nat)
    (after : List Char) :
    Scan.Takes (inferToken (Value.int value).text start)
      after (.int value) after := by
  have hToken :
      integerToken? (Value.int value).text.toList =
        some value.toInt :=
    integerToken_repr value.toInt
  have hTrueToken : integerToken? "true".toList = none :=
    rfl
  have hFalseToken : integerToken? "false".toList = none :=
    rfl
  unfold inferToken
  split
  · rename_i hTrue
    rw [hTrue, hTrueToken] at hToken
    cases hToken
  · rename_i hFalse
    rw [hFalse, hFalseToken] at hToken
    cases hToken
  · rw [hToken]
    dsimp only
    rw [if_pos (fitsSigned_toInt value), Int64.ofInt_toInt]
    exact .pure _

/- A token that is like none of the others is a string. -/
theorem takes_inferToken_string
    {inGroup : Bool}
    {value : String}
    (hValue : BareInferred inGroup value.toList)
    (start : Nat)
    (after : List Char) :
    Scan.Takes (inferToken value start) after (.string value)
      after := by
  unfold inferToken
  split
  · exact absurd rfl hValue.notTrue
  · exact absurd rfl hValue.notFalse
  · rw [integerToken_eq_none hValue.notInteger]
    exact .pure _

------------------------------------------------------------
-- Spellings
------------------------------------------------------------

/- What is found in front of blanks is found behind them. -/
theorem elementReads_of_trimmed
    {text : List Char}
    {value : Value}
    (hTakes : ∀ depth rest,
      StopsAt Scan.delimiters rest →
        (Text.trimStart (text ++ rest)).length ≤ depth →
          ∃ after,
            Scan.Takes (inferElement (depth + 1))
                (Text.trimStart (text ++ rest)) value after ∧
              Text.trimStart after = Text.trimStart rest)
    (depth : Nat) :
    ElementReads (inferElement depth) depth text value := by
  intro rest before hRest hBefore hBound
  cases depth with
  | zero => exact absurd hBound (Nat.not_lt_zero _)
  | succ depth =>
      have hLength := Text.length_trimStart_le before
      rw [hBefore] at hLength
      rcases hTakes depth rest hRest (by omega) with
        ⟨after, hTakes, hAfter⟩
      refine ⟨after, ?_, hAfter⟩
      rw [← hBefore] at hTakes
      rw [inferElement_succ] at hTakes ⊢
      exact .of_trimStart hTakes

/- A bare text is found wherever a stop follows. -/
theorem elementReads_bare
    {text : List Char}
    {value : Value}
    (hText : BareBefore Scan.delimiters text)
    (hBrace : text.head? ≠ some '{')
    (hToken : ∀ start after,
      Scan.Takes (inferToken (String.ofList text) start)
        after value after)
    (depth : Nat) :
    ElementReads (inferElement depth) depth text value := by
  refine elementReads_of_trimmed ?_ depth
  intro depth rest hRest _
  refine ⟨Text.trimStart rest, ?_,
    Text.trimStart_trimStart rest⟩
  rw [hText.trimStart]
  exact takes_inferElement_bare hText hBrace hToken
    hRest depth

/- What begins with a quote is found to be a string. -/
theorem takes_inferElement_quoted
    {value : String}
    {before after : List Char}
    (hHead : before.head? = some '"')
    (hQuoted : Scan.Takes quoted before value after)
    (depth : Nat) :
    Scan.Takes (inferElement (depth + 1)) before
      (.string value) after := by
  rw [inferElement_succ]
  apply Scan.Takes.skipBlanks.bind
  rw [Text.trimStart_of_head hHead (by decide)]
  apply Scan.Takes.peek.bind
  rw [hHead]
  exact hQuoted.map

theorem takes_inferElement_backtick
    {value : String}
    (hValue : '`' ∉ value.toList)
    (rest : List Char)
    (depth : Nat) :
    Scan.Takes (inferElement (depth + 1))
      ('`' :: (value.toList ++ '`' :: rest)) (.string value)
      rest := by
  rw [inferElement_succ]
  apply Scan.Takes.skipBlanks.bind
  rw [Text.trimStart_cons (by decide)]
  apply Scan.Takes.peek.bind
  exact (takes_backtick hValue rest).map

/- Every spelling of a string is found to be one. -/
theorem elementReads_string
    {inGroup : Bool}
    {value : String}
    {text : List Char}
    (hText : SpellsString (BareInferred inGroup) value text)
    (depth : Nat) :
    ElementReads (inferElement depth) depth text
      (.string value) := by
  refine elementReads_of_trimmed ?_ depth
  intro depth rest hRest _
  refine hText.takes_of ?_ ?_ ?_ ?_ hRest
  · intro rest
    exact takes_inferElement_quoted (head_quoted value rest)
      (takes_quoted value rest) depth
  · intro rest hValue
    exact takes_inferElement_backtick hValue rest depth
  · intro text hBare
    exact hBare.toBareBefore
  · intro rest hBare hRest
    have hToken :
        ∀ start after,
          Scan.Takes
            (inferToken (String.ofList value.toList) start)
            after (.string value) after := by
      intro start after
      rw [String.ofList_toList]
      exact takes_inferToken_string hBare start after
    exact takes_inferElement_bare hBare.toBareBefore
      hBare.noBrace hToken hRest depth

theorem elementReads_pad
    {element : Scan Value}
    {bound : Nat}
    {front text back : List Char}
    {value : Value}
    (hFront : Text.Blank front)
    (hText : ElementReads element bound text value)
    (hBack : Text.Blank back) :
    ElementReads element bound (front ++ text ++ back)
      value := by
  intro rest before hRest hBefore hBound
  rw [trimStart_pad hFront] at hBefore
  rcases hText _ before (stopsAt_pad hBack hRest) hBefore
    hBound with ⟨after, hTakes, hAfter⟩
  rw [Text.trimStart_append_of_blank hBack] at hAfter
  exact ⟨after, hTakes, hAfter⟩

theorem SpellsInferred.begins
    {inGroup : Bool}
    {value : Value}
    {text : List Char}
    (hText : SpellsInferred inGroup value text) :
    Begins text := by
  induction hText with
  | bool _ value =>
      exact (bareBefore_of_bool value).begins fun _ h => h
  | int _ value =>
      exact (bareBefore_of_int _).begins fun _ h => h
  | string hText =>
      exact hText.begins (fun _ h => h)
        fun _ hBare => hBare.toBareBefore
  | slice => exact begins_groupText _ _
  | map => exact begins_groupText _ _
  | pad hFront _ _ ih => exact ih.pad hFront _

/- An item whose form is found out is read in a group. -/
theorem anyItem_reads
    {depth : Nat}
    {text : List Char}
    {value : Value}
    (hElement :
      ElementReads (inferElement depth) depth text value) :
    (anyItem depth).Reads depth text value :=
  reads_of_skipBlanks (fillAny_reads hElement)

/-
  What is read at a brace is a group, and by what is found of
  a colon it is a map or a slice.
-/
theorem takes_inferElement_group
    {depth : Nat}
    {blanks rest after : List Char}
    {texts : List (List Char)}
    {value : Value}
    {isMap : Bool}
    (hProbe :
      Cursor.probe ':' .plain 0
          (groupText blanks texts ++ rest) =
        isMap)
    (hGroup :
      Fill.Takes
        (if isMap then
          fillMap (anyItem depth) .dynamic
        else
          fillSlice (anyItem depth) .group .dynamic)
        (groupText blanks texts ++ rest) Value.null () after
        value) :
    Scan.Takes (inferElement (depth + 1))
      (Text.trimStart (groupText blanks texts ++ rest))
      value after := by
  have hOpen :
      (groupText blanks texts ++ rest).head? = some '{' :=
    rfl
  have hTrim :=
    Text.trimStart_of_head hOpen (by decide)
  rw [inferElement_succ]
  apply Scan.Takes.skipBlanks.bind
  rw [Text.trimStart_trimStart, hTrim]
  apply Scan.Takes.peek.bind
  rw [hOpen]
  refine .get ?_
  rintro cursor hAhead
  unfold Cursor.hasTopLevel
  rw [hAhead, hProbe]
  cases isMap with
  | true => exact Fill.Takes.collect hGroup
  | false => exact Fill.Takes.collect hGroup

/-
  Every spelling of a value whose form is found out is read
  back, wherever a stop follows.
-/
theorem SpellsInferred.reads
    {inGroup : Bool}
    {value : Value}
    {text : List Char}
    (hText : SpellsInferred inGroup value text) :
    ∀ depth,
      ElementReads (inferElement depth) depth text value := by
  induction hText with
  | bool _ value =>
      refine elementReads_bare (bareBefore_of_bool value) ?_ ?_
      · cases value <;> decide
      · intro start after
        rw [String.ofList_toList]
        exact takes_inferToken_bool value start after
  | int _ value =>
      refine elementReads_bare
        (bareBefore_of_int value.toInt) ?_ ?_
      · intro hBrace
        rcases mem_toList_repr (List.mem_of_head? hBrace) with
          hSign | hDigit
        · cases hSign
        · cases hDigit
      · intro start after
        rw [String.ofList_toList]
        exact takes_inferToken_int value start after
  | string hText => exact elementReads_string hText
  | slice hBlanks hItems ih =>
      apply elementReads_of_trimmed
      intro depth rest hRest hBound
      have hProbe := probe_slice hBlanks hItems rest
      refine ⟨rest, takes_inferElement_group hProbe ?_, rfl⟩
      refine takes_fillSlice hBlanks ?_ ?_ _ _ rest hBound
      · intro piece hPiece
        exact (hItems piece hPiece).begins
      · intro piece hPiece
        exact anyItem_reads (ih piece hPiece depth)
  | map hNonempty hKeys _ hEntries ih =>
      apply elementReads_of_trimmed
      intro depth rest hRest hBound
      have hProbe := probe_map hNonempty hKeys rest
      have hBlanks : Text.Blank [] := nofun
      refine ⟨rest, takes_inferElement_group hProbe ?_, rfl⟩
      refine takes_fillMap (fun _ hBare => hBare.toBareBefore)
        hBlanks hKeys ?_ hEntries _ rest hBound
      intro entry hEntry
      exact anyItem_reads (ih entry hEntry depth)
  | pad hFront _ hBack ih =>
      intro depth
      exact elementReads_pad hFront (ih depth) hBack

end Value

end Marginalia
