import Marginalia.Proofs.Literal.Progress
import Marginalia.Proofs.Positions

/-
  The errors of literals lie in the text. What has no end
  begins where the error points, and so does an integer that
  is too large.

  Key definitions include:
    * `ItemReader.StaysIn`

  Main statements:
    * `Literal.string_stays`
    * `Literal.inferElement_stays`
    * `Descriptor.fill_stays`
    * `Descriptor.readValue_pinpoints`
-/

namespace Marginalia

open ReadError (Pinpoints)

variable {text : List Char}

namespace Literal

------------------------------------------------------------
-- Strings
------------------------------------------------------------

section Strings

variable {start : Nat}

theorem scalarOf_stays
    (hStart : Text.IsPlace text start)
    (digits : List Char) :
    Stays id Pinpoints text (scalarOf digits start) := by
  unfold scalarOf
  split
  · exact .pure _
  · exact .wrong hStart _ _

theorem hexDigits_stays
    (count : Nat) :
    Stays id Pinpoints text (hexDigits count) := by
  induction count with
  | zero => exact .pure []
  | succ count ih =>
      unfold hexDigits
      apply Stays.peek.bind
      intro next
      cases next with
      | none => exact .pure []
      | some c =>
          refine .ite ?_ (.pure [])
          apply Stays.skip.bind
          intro _
          exact ih.bind fun digits => .pure (c :: digits)

theorem scalarOfLength_stays
    (hStart : Text.IsPlace text start)
    (count : Nat) :
    Stays id Pinpoints text (scalarOfLength count start) := by
  apply (hexDigits_stays count).bind
  intro digits
  refine .ite ?_ ?_
  · exact .wrong hStart _ _
  · exact scalarOf_stays hStart digits

theorem escape_stays
    (hStart : Text.IsPlace text start)
    (letter : Char) :
    Stays id Pinpoints text (escape letter start) := by
  unfold escape
  split
  · exact .pure _
  · split
    · exact scalarOfLength_stays hStart 2
    · apply (Stays.eat '{').bind
      intro opened
      refine .ite ?_ ?_
      · apply (Stays.takeWhile _).bind
        intro digits
        apply (Stays.eat '}').bind
        intro closed
        refine .ite ?_ ?_
        · exact scalarOf_stays hStart digits
        · exact .unexpected hStart _
      · exact scalarOfLength_stays hStart 4
    · exact scalarOfLength_stays hStart 8
    · exact .wrong hStart _ _

/-
  An escape is reported where its backslash stands, and the
  end of the text where the string begins.
-/
theorem quotedRound_stays
    (hStart :
      (ReadError.unterminated .quoted start).Pinpoints text)
    (read : List Char) :
    Stays id Pinpoints text (quotedRound start read) := by
  refine .position fun place hPlace => ?_
  apply Stays.next.bind
  intro next
  split
  · exact .throw hStart
  · exact .pure _
  · apply Stays.next.bind
    intro letter
    cases letter with
    | none => exact .throw hStart
    | some letter =>
        exact (escape_stays hPlace letter).bind fun _ =>
          .pure _
  · exact .pure _

end Strings

section Delimited

variable {cursor : Cursor}

theorem quoted_staysFrom
    (hChars : cursor.chars = text)
    (hOpener : cursor.peek = some '"') :
    StaysFrom id Pinpoints text quoted cursor := by
  have hRest :
      Stays id Pinpoints text (do
        Scan.skip
        Scan.loop (quotedRound cursor.position) []) :=
    Stays.skip.bind fun _ =>
      .loop
        (quotedRound_stays (.unterminated hChars hOpener))
        []
  rw [quoted_eq]
  exact .position (hRest cursor hChars)

theorem backtick_staysFrom
    (hChars : cursor.chars = text)
    (hOpener : cursor.peek = some '`') :
    StaysFrom id Pinpoints text backtick cursor := by
  have hRest :
      Stays id Pinpoints text (do
        Scan.skip
        let body ← Scan.takeWhile fun c => c != '`'
        if ← Scan.eat '`' then
          return String.ofList body
        else
          throw (.unterminated .backtick cursor.position)) := by
    apply Stays.skip.bind
    intro _
    apply (Stays.takeWhile _).bind
    intro body
    apply (Stays.eat '`').bind
    intro closed
    exact .ite (.pure _) (.throw (.unterminated hChars hOpener))
  exact .position (hRest cursor hChars)

end Delimited

theorem bare_stays
    (stops : List Char) :
    Stays id Pinpoints text (bare stops) :=
  (Stays.takeWhile _).bind fun _ => .pure _

theorem string_stays
    (stops : List Char) :
    Stays id Pinpoints text (string stops) := by
  intro cursor hChars
  refine .peek ?_
  split
  · rename_i hOpener
    exact quoted_staysFrom hChars hOpener
  · rename_i hOpener
    exact backtick_staysFrom hChars hOpener
  · exact bare_stays stops cursor hChars

------------------------------------------------------------
-- Raw Text
------------------------------------------------------------

theorem balancedStep_staysFrom
    {cursor : Cursor}
    {c : Char}
    (hChars : cursor.chars = text)
    (hNext : cursor.peek = some c)
    (depth : Nat) :
    StaysFrom id Pinpoints text (balancedStep depth c)
      cursor := by
  have hSkip :
      ∀ depth' : Nat,
        Stays id Pinpoints text (do
          Scan.skip
          return (Step.again depth' : Step Nat Unit)) :=
    fun _ =>
      Stays.skip.bind fun _ => .pure _
  unfold balancedStep
  split
  · exact (quoted_staysFrom hChars hNext).bind fun _ =>
      .pure _
  · exact (backtick_staysFrom hChars hNext).bind fun _ =>
      .pure _
  · exact hSkip _ cursor hChars
  · exact hSkip _ cursor hChars
  · exact hSkip _ cursor hChars
  · exact hSkip _ cursor hChars
  · exact hSkip _ cursor hChars

theorem balancedRound_stays
    (stops : List Char)
    (depth : Nat) :
    Stays id Pinpoints text (balancedRound stops depth) := by
  intro cursor hChars
  refine .peek ?_
  split
  · exact hChars
  · rename_i c hNext
    refine .ite (fun _ => hChars) fun _ => ?_
    exact balancedStep_staysFrom hChars hNext depth

theorem balanced_stays
    (stops : List Char) :
    Stays id Pinpoints text (balanced stops) := by
  rw [balanced_eq]
  apply Stays.get.bind
  intro start
  apply (Stays.loop (balancedRound_stays stops) 0).bind
  intro _
  exact .bind (fun _ hChars => hChars) fun _ => .pure _

theorem remainder_stays :
    Stays id Pinpoints text remainder := by
  intro cursor hChars
  have hEnd := Cursor.Reaches.span cursor fun _ => true
  exact hEnd.chars_eq.trans hChars

------------------------------------------------------------
-- Integers
------------------------------------------------------------

section Integers

variable {digits : List Char}

theorem signedDigits_signedText
    (hFilled : ¬ digits.isEmpty = true)
    (hDigits : ∀ c ∈ digits, c.isDigit = true)
    (negative : Bool) :
    Text.SignedDigits (signedText negative digits).toList := by
  refine ⟨digits, by simpa using hFilled, hDigits, ?_⟩
  unfold signedText
  rw [String.toList_ofList]
  cases negative with
  | true => exact Or.inr rfl
  | false => exact Or.inl rfl

theorem storeSigned_stays
    {negative : Bool}
    {start : Nat}
    (hError :
      (ReadError.overflow (signedText negative digits)
        (.word .i64) start).Pinpoints text) :
    Stays Prod.fst Pinpoints text
      (storeSigned .dynamic negative digits start) := by
  unfold storeSigned
  refine .ite ?_ ?_
  · exact .store
      (Value.int (Int64.ofInt (signedValue negative digits)))
      _ start
  · exact .throw hError

theorem storeUnsigned_stays
    {start : Nat}
    (hError :
      (ReadError.overflow (String.ofList digits)
        (.word .u64) start).Pinpoints text) :
    Stays Prod.fst Pinpoints text
      (storeUnsigned .dynamic digits start) := by
  unfold storeUnsigned
  refine .ite ?_ ?_
  · exact .store
      (Value.ofUnsigned (UInt64.ofNat (decimalValue digits)))
      _ start
  · exact .throw hError

/- What is stored are digits that were next. -/
theorem takeDigits_staysFrom
    {cursor : Cursor}
    {content : Value}
    {start : Nat}
    {store : List Char → Fill Value Unit}
    (hChars : cursor.chars = text)
    (hStart : Text.IsPlace text start)
    (hStore : ∀ digits,
      ¬ digits.isEmpty = true →
        (∀ c ∈ digits, c.isDigit = true) →
          digits <+: cursor.ahead →
            Stays Prod.fst Pinpoints text (store digits)) :
    StaysFrom Prod.fst Pinpoints text
      (do
        let digits ← Scan.takeWhile (σ := Cursor) isDigit
        if digits.isEmpty then
          Scan.unexpected (σ := Cursor) .digits start
        else
          store digits)
      (cursor, content) := by
  have hEnd : (cursor.span isDigit).2.chars = text :=
    (Cursor.Reaches.span cursor isDigit).chars_eq.trans
      hChars
  refine .takeWhileLift (.ite ?_ ?_)
  · intro _
    exact Stays.lift (.unexpected hStart _) _ hEnd
  · intro hFilled
    exact hStore _ hFilled (fun _ => List.mem_takeWhile_imp)
      (List.takeWhile_prefix isDigit) _ hEnd

/-
  An integer begins at its sign, which has been passed when
  its digits are read.
-/
theorem fillDigits_staysFrom
    {first cursor : Cursor}
    {negative : Bool}
    {content : Value}
    (hFirst : first.chars = text)
    (hChars : cursor.chars = text)
    (hAhead :
      first.ahead =
        (if negative then ['-'] else []) ++ cursor.ahead) :
    StaysFrom Prod.fst Pinpoints text
      (do
        let digitsStart ← Scan.position (σ := Cursor)
        let digits ← Scan.takeWhile (σ := Cursor) isDigit
        if digits.isEmpty then
          Scan.unexpected (σ := Cursor) .digits digitsStart
        else
          storeSigned .dynamic negative digits
            first.position)
      (cursor, content) := by
  refine .positionLift
    (takeDigits_staysFrom hChars (.of_chars hChars) ?_)
  intro digits hFilled hDigits hNext
  apply storeSigned_stays
  refine .overflow hFirst
    (signedDigits_signedText hFilled hDigits negative) ?_ _
  unfold signedText
  rw [String.toList_ofList, hAhead,
    List.prefix_append_right_inj]
  exact hNext

theorem fillSigned_stays :
    Stays Prod.fst Pinpoints text (fillSigned .dynamic) := by
  rintro ⟨cursor, content⟩ hChars
  rw [fillSigned_eq]
  refine .positionLift (.eatLift ?_ ?_)
  · intro hSign
    have hPlace : cursor.advance.chars = text :=
      (Cursor.Reaches.advance cursor).chars_eq.trans hChars
    rcases Cursor.peek_eq_some_iff.mp hSign with
      ⟨rest, hAhead⟩
    refine fillDigits_staysFrom hChars hPlace ?_
    rw [Cursor.advance_ahead, hAhead]
    rfl
  · exact fillDigits_staysFrom hChars hChars rfl

theorem fillUnsigned_stays :
    Stays Prod.fst Pinpoints text
      (fillUnsigned .dynamic) := by
  rintro ⟨cursor, content⟩ hChars
  have hStart : Text.IsPlace text cursor.position :=
    .of_chars hChars
  rw [fillUnsigned_eq]
  refine .positionLift (.peekLift (.ite ?_ ?_))
  · intro _
    exact Stays.lift (.unexpected hStart _) _ hChars
  · intro _
    refine takeDigits_staysFrom hChars hStart ?_
    intro digits hFilled hDigits hNext
    have hLiteral :
        Text.SignedDigits (String.ofList digits).toList :=
      signedDigits_signedText hFilled hDigits false
    apply storeUnsigned_stays
    refine .overflow hChars hLiteral ?_ _
    rw [String.toList_ofList]
    exact hNext

end Integers

------------------------------------------------------------
-- Other Scalars
------------------------------------------------------------

theorem storeBool_stays
    {start : Nat}
    (hStart : Text.IsPlace text start)
    (word : String) :
    Stays Prod.fst Pinpoints text
      (storeBool .dynamic word start) := by
  unfold storeBool
  split
  · exact .store (Value.bool true) _ start
  · exact .store (Value.bool false) _ start
  · exact .lift (.unexpected hStart _)
  · exact .lift (.wrong hStart _ _)

theorem fillBool_stays :
    Stays Prod.fst Pinpoints text (fillBool .dynamic) := by
  rw [fillBool_eq]
  refine .positionLift fun start hStart => ?_
  apply (Stays.takeWhile _).lift.bind
  intro word
  exact storeBool_stays hStart _

theorem fillString_stays :
    Stays Prod.fst Pinpoints text (fillString .dynamic) := by
  refine .positionLift fun start _ => ?_
  apply (string_stays _).lift.bind
  intro value
  exact .store (Value.string value) _ start

theorem fillRaw_stays
    (frame : Frame) :
    Stays Prod.fst Pinpoints text
      (fillRaw frame .dynamic) := by
  have hStore :
      ∀ raw start,
        Stays Prod.fst Pinpoints text
          (Fill.store
            (Target.dynamic.setRaw raw.toUTF8.data.toList)
            raw start) :=
    fun raw start => .store (Value.string _) raw start
  refine .positionLift fun start _ => ?_
  cases frame with
  | whole =>
      exact .bind (.lift remainder_stays) fun raw =>
        hStore raw start
  | group | run =>
      exact .bind (.lift (balanced_stays _)) fun raw =>
        hStore raw start

------------------------------------------------------------
-- Groups
------------------------------------------------------------

section Groups

variable {δ : Type}
variable {element : Fill δ Unit}
variable {start : Nat}

theorem closing_stays
    (hStart :
      (ReadError.unterminated .group start).Pinpoints text) :
    Stays Prod.fst Pinpoints text
      (Fill.closing start : Fill δ Bool) := by
  apply Stays.skipBlanks.lift.bind
  intro _
  apply Stays.peek.lift.bind
  intro next
  split
  · exact Stays.skip.lift.bind fun _ => .pure _
  · exact Stays.skip.lift.bind fun _ => .pure _
  · exact .throw hStart
  · exact .positionLift fun place hPlace =>
      .lift (.unexpected hPlace _)

theorem groupRound_stays
    (hElement : Stays Prod.fst Pinpoints text element)
    (hStart :
      (ReadError.unterminated .group start).Pinpoints text) :
    Stays Prod.fst Pinpoints text
      (Fill.groupRound element start) := by
  apply Stays.skipBlanks.lift.bind
  intro _
  apply Stays.peek.lift.bind
  intro next
  refine .ite (.throw hStart) ?_
  exact hElement.bind fun _ => closing_stays hStart

theorem group_staysFrom
    {cursor : Cursor}
    {content : δ}
    (hChars : cursor.chars = text)
    (hOpener : cursor.peek = some '{')
    (hElement : Stays Prod.fst Pinpoints text element) :
    StaysFrom Prod.fst Pinpoints text (Fill.group element)
      (cursor, content) := by
  have hLoop :
      Stays Prod.fst Pinpoints text
        (Fill.loopWhile
          (Fill.groupRound element cursor.position)) :=
    .loopWhile
      (groupRound_stays hElement
        (.unterminated hChars hOpener))
  have hInside : cursor.advance.skipBlanks.chars = text := by
    rw [(Cursor.Reaches.skipBlanks _).chars_eq,
      (Cursor.Reaches.advance _).chars_eq, hChars]
  unfold StaysFrom
  rw [Fill.run_group]
  by_cases hEmpty :
      cursor.advance.skipBlanks.peek = some '}'
  · rw [if_pos hEmpty]
    exact (Cursor.Reaches.advance _).chars_eq.trans hInside
  · rw [if_neg hEmpty]
    exact hLoop _ hInside

end Groups

------------------------------------------------------------
-- Slices and Maps
------------------------------------------------------------

/- The items stay in the text if they are read into a value. -/
def ItemReader.StaysIn
    (item : ItemReader)
    (text : List Char) : Prop :=
  ∀ frame,
    Stays Prod.fst Pinpoints text (item frame .dynamic)

variable {item : ItemReader}

/- A value that is no slice has no place for an item. -/
theorem fillItem_stays
    (hItem : ItemReader.StaysIn item text)
    (frame : Frame) :
    Stays Prod.fst Pinpoints text
      (fillItem item frame .dynamic) := by
  rintro ⟨cursor, content⟩ hChars
  have hPlace : Text.IsPlace text cursor.position :=
    .of_chars hChars
  unfold StaysFrom
  rw [run_fillItem]
  rcases nextItem_dynamic content with
    ⟨items, hNext⟩ | ⟨destination, offer, hNext⟩
  · rw [hNext]
    exact Fill.ends_within.mpr
      (hItem frame (cursor, Value.null) hChars)
  · rw [hNext]
    exact .mismatch hPlace destination offer

theorem sliceRound_stays
    (hItem : ItemReader.StaysIn item text)
    (frame : Frame) :
    Stays Prod.fst Pinpoints text
      (sliceRound item frame .dynamic) := by
  apply (fillItem_stays hItem .run).bind
  intro _
  apply Stays.skipBlanks.lift.bind
  intro _
  refine .ite (.pure false) ?_
  exact (Stays.eat ';').lift

theorem fillSlice_stays
    (hItem : ItemReader.StaysIn item text)
    (frame : Frame) :
    Stays Prod.fst Pinpoints text
      (fillSlice item frame .dynamic) := by
  rintro ⟨cursor, content⟩ hChars
  rw [fillSlice_eq]
  refine .positionLift (.storeBind ?_)
  refine .peekLift ?_
  split
  · rename_i hOpener
    exact group_staysFrom hChars hOpener
      (fillItem_stays hItem .group)
  · exact hChars
  · exact hChars
  · exact hChars
  · exact hChars
  · exact Stays.loopWhile (sliceRound_stays hItem frame) _
      hChars

/- A value that is no map has no place under a key. -/
theorem fillUnder_stays
    {start : Nat}
    (hItem : ItemReader.StaysIn item text)
    (hStart : Text.IsPlace text start)
    (key : String) :
    Stays Prod.fst Pinpoints text
      (fillUnder item .dynamic key start) := by
  rintro ⟨cursor, content⟩ hChars
  unfold StaysFrom
  rw [run_fillUnder]
  rcases entryOf_dynamic key content with
    ⟨entries, hEntry⟩ | ⟨destination, offer, hEntry⟩
  · rw [hEntry]
    exact Fill.ends_within.mpr
      (hItem .group (cursor, Value.null) hChars)
  · rw [hEntry]
    exact .mismatch hStart destination offer

theorem fillEntry_stays
    (hItem : ItemReader.StaysIn item text) :
    Stays Prod.fst Pinpoints text
      (fillEntry item .dynamic) := by
  rw [fillEntry_eq]
  refine .positionLift fun keyStart hKey => ?_
  apply (string_stays _).lift.bind
  intro key
  apply Stays.skipBlanks.lift.bind
  intro _
  refine .positionLift fun colonStart hColon => ?_
  apply (Stays.eat ':').lift.bind
  intro colon
  refine .ite ?_ ?_
  · exact fillUnder_stays hItem hKey key
  · exact .lift (.unexpected hColon _)

theorem fillMap_stays
    (hItem : ItemReader.StaysIn item text) :
    Stays Prod.fst Pinpoints text
      (fillMap item .dynamic) := by
  rintro ⟨cursor, content⟩ hChars
  have hPlace : Text.IsPlace text cursor.position :=
    .of_chars hChars
  rw [fillMap_eq]
  refine .positionLift (.peekLift (.ite ?_ ?_))
  · intro hOpener
    exact .storeBind
      (group_staysFrom hChars hOpener (fillEntry_stays hItem))
  · intro _
    exact Stays.lift (.unexpected hPlace _) _ hChars

------------------------------------------------------------
-- Inference
------------------------------------------------------------

theorem signedDigits_of_integerToken?
    {token : List Char}
    {n : Int}
    (hToken : integerToken? token = some n) :
    Text.SignedDigits token := by
  unfold integerToken? at hToken
  split at hToken
  · rename_i digits
    split at hToken
    · rename_i hDigits
      rw [Bool.and_eq_true, List.all_eq_true] at hDigits
      exact ⟨digits, by simpa using hDigits.2, hDigits.1,
        Or.inr rfl⟩
    · cases hToken
  · split at hToken
    · rename_i hDigits
      rw [Bool.and_eq_true, List.all_eq_true] at hDigits
      exact ⟨token, by simpa using hDigits.2, hDigits.1,
        Or.inl rfl⟩
    · cases hToken

theorem inferToken_stays
    {token : String}
    {start : Nat}
    (hError :
      Text.SignedDigits token.toList →
        (ReadError.overflow token (.word .i64)
          start).Pinpoints text) :
    Stays id Pinpoints text (inferToken token start) := by
  unfold inferToken
  split
  · exact .pure _
  · exact .pure _
  · split
    · rename_i n hToken
      refine .ite ?_ ?_
      · exact .pure _
      · exact .throw
          (hError (signedDigits_of_integerToken? hToken))
    · exact .pure _

theorem inferRun_stays
    {element : Scan Value}
    (hElement : Stays id Pinpoints text element)
    (first : Value) :
    Stays id Pinpoints text (inferRun element first) := by
  refine .loop (fun items => ?_) [first]
  apply (Stays.eat ';').bind
  intro another
  refine .ite ?_ (.pure _)
  apply hElement.bind
  intro item
  exact Stays.skipBlanks.bind fun _ =>
    .pure _

theorem inferWith_stays
    {element : Scan Value}
    (hElement : Stays id Pinpoints text element)
    (frame : Frame) :
    Stays id Pinpoints text (inferWith element frame) := by
  apply hElement.bind
  intro first
  refine .ite (.pure first) ?_
  apply Stays.skipBlanks.bind
  intro _
  apply Stays.peek.bind
  intro next
  refine .ite ?_ (.pure first)
  exact inferRun_stays hElement first

theorem fillAny_stays
    {element : Scan Value}
    (hElement : Stays id Pinpoints text element) :
    ItemReader.StaysIn (fillAny element) text := by
  intro frame
  refine .positionLift fun start _ => ?_
  apply (inferWith_stays hElement frame).lift.bind
  intro value
  exact .store value _ start

theorem inferGroup_stays
    (hItem : ItemReader.StaysIn item text) :
    Stays id Pinpoints text (inferGroup item) := by
  apply Stays.get.bind
  intro cursor
  refine .ite ?_ ?_
  · exact .collect _ (fillMap_stays hItem)
  · exact .collect _ (fillSlice_stays hItem .group)

/- Behind blanks, only the end of a bare token is trimmed. -/
theorem trim_takeWhile_prefix
    (text : List Char)
    (p : Char → Bool) :
    Text.trim ((Text.trimStart text).takeWhile p) <+:
      Text.trimStart text := by
  have hTaken :=
    List.takeWhile_prefix (l := Text.trimStart text) p
  have hTrimmed :
      Text.trimStart ((Text.trimStart text).takeWhile p) =
        (Text.trimStart text).takeWhile p := by
    cases hToken : (Text.trimStart text).takeWhile p with
    | nil => rfl
    | cons c token =>
        rw [hToken] at hTaken
        rcases hTaken with ⟨rest, hText⟩
        exact Text.trimStart_cons
          (Text.isBlank_head_trimStart hText.symm) token
  rcases Text.exists_trimEnd_append_blank
      ((Text.trimStart text).takeWhile p) with
    ⟨blanks, _, hToken⟩
  unfold Text.trim
  rw [hTrimmed]
  exact List.IsPrefix.trans ⟨blanks, hToken.symm⟩ hTaken

theorem inferBare_staysFrom
    {cursor : Cursor}
    (hChars : cursor.skipBlanks.chars = text) :
    StaysFrom id Pinpoints text
      (do
        let start ← Scan.position
        let token ← bare Scan.delimiters
        inferToken token start)
      cursor.skipBlanks := by
  have hToken :
      Text.trim
          (cursor.skipBlanks.ahead.takeWhile fun c =>
            !Scan.delimiters.contains c) <+:
        cursor.skipBlanks.ahead :=
    trim_takeWhile_prefix cursor.ahead _
  have hEnd :=
    Cursor.Reaches.span cursor.skipBlanks fun c =>
      !Scan.delimiters.contains c
  refine inferToken_stays (fun hDigits => ?_) _
    (hEnd.chars_eq.trans hChars)
  refine .overflow hChars hDigits ?_ _
  rw [String.toList_ofList]
  exact hToken

theorem inferElement_stays
    (depth : Nat) :
    Stays id Pinpoints text (inferElement depth) := by
  induction depth with
  | zero => exact .throw nofun
  | succ depth ih =>
      have hItem : ItemReader.StaysIn (anyItem depth) text :=
        fun frame =>
          Stays.skipBlanks.lift.bind fun _ =>
            fillAny_stays ih frame
      intro cursor hChars
      have hPlace : cursor.skipBlanks.chars = text :=
        (Cursor.Reaches.skipBlanks cursor).chars_eq.trans
          hChars
      -- What is not closed has to be known where it opens, so
      -- the run is followed from this place on.
      rw [inferElement_succ]
      refine .skipBlanks (.peek ?_)
      split
      · exact inferGroup_stays hItem _ hPlace
      · rename_i hOpener
        exact (quoted_staysFrom hPlace hOpener).bind fun _ =>
          .pure _
      · rename_i hOpener
        exact (backtick_staysFrom hPlace hOpener).bind
          fun _ => .pure _
      · exact inferBare_staysFrom hPlace

theorem element_stays :
    Stays id Pinpoints text element :=
  .bind .get fun _ => inferElement_stays _

end Literal

------------------------------------------------------------
-- Descriptors
------------------------------------------------------------

namespace Descriptor

open Literal

theorem fillFlat_stays
    (descriptor : Descriptor) :
    ItemReader.StaysIn descriptor.fillFlat text := by
  intro frame
  unfold fillFlat
  split
  · exact fillBool_stays
  · exact fillSigned_stays
  · exact fillUnsigned_stays
  · exact fillString_stays
  · exact fillRaw_stays frame
  · exact fillAny_stays element_stays frame
  · exact .throw nofun
  · exact .throw nofun
  · exact .throw nofun

/- Every grammar stays in the text, and its errors as well. -/
theorem fill_stays
    (descriptor : Descriptor) :
    ItemReader.StaysIn descriptor.fill text := by
  induction descriptor with
  | plain kind =>
      intro frame
      rw [fill_eq]
      exact Stays.skipBlanks.lift.bind fun _ =>
        fillFlat_stays _ frame
  | nested kind item ih =>
      intro frame
      rw [fill_eq]
      apply Stays.skipBlanks.lift.bind
      intro _
      cases kind with
      | slice => exact fillSlice_stays ih frame
      | map => exact fillMap_stays ih
      | _ => exact fillFlat_stays _ frame

theorem expectEnd_stays :
    Stays id Pinpoints text expectEnd := by
  apply Stays.skipBlanks.bind
  intro _
  apply Stays.get.bind
  intro cursor
  refine .ite (.pure _) ?_
  exact .position fun place hPlace => .unexpected hPlace _

/- An error of reading a text is true of the text. -/
theorem readValue_pinpoints
    {descriptor : Descriptor}
    {literal : String}
    {error : ReadError}
    (hError :
      (descriptor.readValue literal).result = .error error) :
    error.Pinpoints literal.toList := by
  have hRead :
      Stays Prod.fst Pinpoints literal.toList
        (do
          descriptor.fill .whole .dynamic
          expectEnd : Fill Target.dynamic.Content Unit) :=
    (descriptor.fill_stays .whole).bind fun _ =>
      .lift expectEnd_stays
  exact Ends.of_error
    (hRead (Cursor.ofText literal, Value.null) rfl)
    (run_of_outcome_error hError)

end Descriptor

end Marginalia
