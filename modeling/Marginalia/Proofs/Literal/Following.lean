import Marginalia.Proofs.Follows
import Marginalia.Proofs.Literal.Fitting
import Marginalia.Proofs.Literal.LookAhead

/-
  Literals are read in the same way in two texts whose places
  are aligned, if the look-aheads find the same.

  Key definitions include:
    * `Literal.ItemFollows`
    * `Literal.LookFollows`

  Main statements:
    * `Literal.inferElementBy_follows`
    * `Descriptor.fillBy_follows`
-/

namespace Marginalia

variable {δ : Type}
variable {A : Alignment}

namespace Literal

------------------------------------------------------------
-- Strings
------------------------------------------------------------

/- A character is told by its digits alone. -/
theorem scalarOf_follows
    (digits : List Char)
    (start start' : Nat) :
    Follows A.stuck A.rel (scalarOf digits start)
      (scalarOf digits start') A.rel := by
  unfold scalarOf
  split
  · exact .result _
  · exact .throw

theorem hexDigits_follows
    (count : Nat) :
    Follows A.stuck A.rel (hexDigits count)
      (hexDigits count) A.rel := by
  induction count with
  | zero => exact .result _
  | succ count ih =>
      apply Follows.peekAny
      · intro c
        apply Follows.ite
        · intro _
          apply Follows.skip.bind
          intro _
          apply ih.bind
          intro _
          exact .result _
        · intro _
          exact .pure _ fun _ _ h => h.1
      · intro other hOther
        cases other with
        | none => rfl
        | some c =>
            have hDigit : Text.isHexDigit c = false := by
              rcases hOther c rfl with hBlank | rfl
              · exact Text.isHexDigit_of_isBlank hBlank
              · decide
            simp [hDigit]
      · exact .result _

theorem scalarOfLength_follows
    (count start start' : Nat) :
    Follows A.stuck A.rel (scalarOfLength count start)
      (scalarOfLength count start') A.rel := by
  apply (hexDigits_follows count).bind
  intro digits
  apply Follows.ite
  · intro _
    exact .throw
  · intro _
    exact scalarOf_follows digits start start'

theorem escape_follows
    (letter : Char)
    (start start' : Nat) :
    Follows A.stuck A.rel (escape letter start)
      (escape letter start') A.rel := by
  unfold escape
  split
  · exact .result _
  · split
    · exact scalarOfLength_follows 2 start start'
    · apply (Follows.eat (by decide) (by decide)).bind
      intro braced
      apply Follows.ite
      · intro _
        apply (Follows.takeWhile
          (fun _ => Text.isHexDigit_of_isBlank)
          (by decide)).bind
        intro digits
        apply (Follows.eat (by decide)
          (by decide)).bind
        intro closed
        apply Follows.ite
        · intro _
          exact scalarOf_follows digits start start'
        · intro _
          exact .unexpected
      · intro _
        exact scalarOfLength_follows 4 start start'
    · exact scalarOfLength_follows 8 start start'
    · exact .throw

/- A blank does not stand for a character. -/
theorem escape_of_isBlank
    {letter : Char}
    (hBlank : Text.isBlank letter = true)
    (start : Nat)
    (cursor cursor' : Cursor)
    (result : Char) :
    escape letter start cursor ≠ .ok result cursor' := by
  have hLetter :
      simpleEscape? letter = none ∧ letter ≠ 'x' ∧
        letter ≠ 'u' ∧ letter ≠ 'U' :=
    Text.forall_isBlank
      (p := fun letter =>
        simpleEscape? letter = none ∧ letter ≠ 'x' ∧
          letter ≠ 'u' ∧ letter ≠ 'U')
      (by decide) hBlank
  intro hRun
  unfold escape at hRun
  rw [hLetter.1] at hRun
  dsimp only at hRun
  split at hRun
  · exact absurd rfl hLetter.2.1
  · exact absurd rfl hLetter.2.2.1
  · exact absurd rfl hLetter.2.2.2
  · cases hRun

/- In blanks a string goes on. -/
theorem quotedRound_of_blank
    {start : Nat}
    {read : List Char}
    {cursor cursor' : Cursor}
    {step : Step (List Char) String}
    (hBlank : Text.Blank cursor.ahead)
    (hRun :
      quotedRound start read cursor = .ok step cursor') :
    ∃ c,
      step = .again (c :: read) ∧
        cursor' = cursor.advance := by
  have hVisible :
      ∀ c, Text.isBlank c = false → cursor.peek ≠ some c := by
    intro c hOther hPeek
    rcases Cursor.peek_eq_some_iff.mp hPeek with
      ⟨rest, hAhead⟩
    rw [hBlank c (by simp [hAhead])] at hOther
    cases hOther
  rcases run_bind_eq_ok.mp hRun with
    ⟨place, first, hPlace, hRest⟩
  cases hPlace
  rcases run_bind_eq_ok.mp hRest with
    ⟨next?, second, hNext, hRest⟩
  have hFirst :
      cursor.peek = next? ∧ cursor.advance = second := by
    cases hNext
    exact ⟨rfl, rfl⟩
  rcases hFirst with ⟨hPeek, rfl⟩
  split at hRest
  · cases hRest
  · rename_i hPeek
    exact absurd hPeek (hVisible _ (by decide))
  · rename_i hPeek
    exact absurd hPeek (hVisible _ (by decide))
  · cases hRest
    exact ⟨_, rfl, rfl⟩

/- In blanks alone the end of a string is not found. -/
theorem quotedRounds_of_blank
    {start rounds : Nat} :
    ∀ {read : List Char} {cursor cursor' : Cursor}
      {result : String},
      Text.Blank cursor.ahead →
        iterate .exhausted (quotedRound start) rounds read
            cursor ≠
          .ok result cursor' := by
  induction rounds with
  | zero =>
      intro read cursor cursor' result _ hRun
      cases hRun
  | succ rounds ih =>
      intro read cursor cursor' result hBlank hRun
      rcases run_bind_eq_ok.mp hRun with
        ⟨step, place, hRound, hRest⟩
      rcases quotedRound_of_blank hBlank hRound with
        ⟨c, rfl, rfl⟩
      have hAfter : Text.Blank cursor.advance.ahead := by
        intro d hMember
        rw [Cursor.advance_ahead] at hMember
        exact hBlank d (List.mem_of_mem_tail hMember)
      exact ih hAfter hRest

/-
  A round in a string is the same while there is more than
  blanks in front of the end.
-/
theorem quotedRound_follows
    (start start' : Nat)
    (read : List Char) :
    Follows A.stuck
      (fun first second =>
        A.rel first second ∧ ¬ Text.Blank first.ahead)
      (quotedRound start read) (quotedRound start' read)
      A.rel := by
  apply Follows.position
  intro place place'
  apply Follows.next (fun _ _ h => h.1)
  · intro c
    split
    · exact .throw
    · exact .result _
    · apply Follows.next (fun _ _ h => h)
      · intro letter
        apply (escape_follows letter place place').bind
        intro escaped
        exact .result _
      · intro first result state' hRun
        cases hRun
      · intro first _ c result state' _ hPeek hBlank hRun
        rcases Cursor.peek_eq_some_iff.mp hPeek with
          ⟨rest, hAhead⟩
        rcases run_bind_eq_ok.mp hRun with
          ⟨escaped, middle, hEscape, _⟩
        exact escape_of_isBlank
          (hBlank c (by simp [hAhead])) _ _ _ _ hEscape
    · exact .result _
  · intro first result state' hRun
    cases hRun
  · intro _ _ _ _ _ hPre _ hBlank
    exact absurd hBlank hPre.2

/- A string whose quote is closed is read as it is. -/
theorem quoted_follows :
    Follows A.stuck (A.next '"')
      quoted quoted A.rel := by
  rw [quoted_eq]
  apply Follows.position
  intro start start'
  apply Follows.skip.bind
  intro _
  apply Follows.get
  intro first second hRel
  exact .iterate (fun cursor => Text.Blank cursor.ahead)
    (fun _ _ _ _ _ h => quotedRounds_of_blank h)
    (quotedRound_follows start start') _ []
    (Alignment.rounds hRel)

/- A string whose backtick is closed is read as it is. -/
theorem backtick_follows :
    Follows A.stuck (A.next '`')
      backtick backtick A.rel := by
  apply Follows.position
  intro start start'
  apply Follows.skip.bind
  intro _
  apply Follows.takeUntil (by decide) (by decide)
  intro body
  exact .result _

/- A bare string ends at the same stop in both texts. -/
theorem bare_follows
    {stops : List Char}
    (hStops : ∀ c ∈ stops, Text.isBlank c = false)
    (hComma : ',' ∈ stops) :
    Follows A.stuck A.rel (bare stops) (bare stops)
      A.rel := by
  intro first second result state' hRel hRun
  cases hRun
  have hSpan :
      Text.trim
            (second.span fun c => !stops.contains c).1 =
          Text.trim
            (first.span fun c => !stops.contains c).1 ∧
        A.rel (first.span fun c => !stops.contains c).2
          (second.span fun c => !stops.contains c).2 := by
    refine A.spanBlank ?_ ?_ hRel
    · intro c hBlank
      rw [Bool.not_eq_true', List.contains_eq_mem,
        decide_eq_false_iff_not]
      intro hStop
      rw [hStops c hStop] at hBlank
      cases hBlank
    · simpa using hComma
  exact ⟨congrArg String.ofList hSpan.1, hSpan.2⟩

theorem string_follows
    {stops : List Char}
    (hStops : ∀ c ∈ stops, Text.isBlank c = false)
    (hComma : ',' ∈ stops) :
    Follows A.stuck A.settled (string stops)
      (string stops) A.rel := by
  have hBare :
      Follows A.stuck A.rel (bare stops) (bare stops) A.rel :=
    bare_follows hStops hComma
  apply Follows.peek
  · intro c
    split
    · rename_i hQuote
      cases hQuote
      exact quoted_follows
    · rename_i hBacktick
      cases hBacktick
      exact backtick_follows
    · exact hBare.settled.next_of_settled
  · rintro other (rfl | rfl)
    · exact hBare
    · exact hBare

------------------------------------------------------------
-- Scalars
------------------------------------------------------------

theorem storeBool_follows
    (target : Target)
    (word : String)
    (start start' : Nat) :
    Follows A.stuck (OnContent A.rel)
      (storeBool target word start)
      (storeBool target word start')
      (OnContent A.rel) := by
  unfold storeBool
  split
  · exact .store
  · exact .store
  · exact .unexpectedLift
  · exact .lift .throw

theorem fillBool_follows
    (target : Target) :
    Follows A.stuck (OnContent A.settled)
      (fillBool target) (fillBool target)
      (OnContent A.rel) := by
  rw [fillBool_eq]
  apply Follows.positionLift
  intro start start'
  have hWord :
      Follows A.stuck A.rel Scan.word Scan.word
        A.rel := by
    apply Follows.takeWhile
    · intro c hBlank
      exact Text.isWordChar_of_isBlank hBlank
    · decide
  apply hWord.settled.lift.bind
  intro word
  exact storeBool_follows target _ start start'

theorem storeSigned_follows
    (target : Target)
    (negative : Bool)
    (digits : List Char)
    (start start' : Nat) :
    Follows A.stuck (OnContent A.rel)
      (storeSigned target negative digits start)
      (storeSigned target negative digits start')
      (OnContent A.rel) := by
  unfold storeSigned
  exact .ite (fun _ => .store) (fun _ => .throw)

theorem storeUnsigned_follows
    (target : Target)
    (digits : List Char)
    (start start' : Nat) :
    Follows A.stuck (OnContent A.rel)
      (storeUnsigned target digits start)
      (storeUnsigned target digits start')
      (OnContent A.rel) := by
  unfold storeUnsigned
  -- The test is not looked into, or its limit is computed.
  generalize fitsUnsigned 64 _ = fits
  exact .ite (fun _ => .store) (fun _ => .throw)

/- Blanks and commas are no digits, so digits end before them. -/
theorem takeDigits_follows :
    Follows A.stuck A.rel (Scan.takeWhile isDigit)
      (Scan.takeWhile isDigit) A.rel := by
  apply Follows.takeWhile
  · intro c hBlank
    exact Text.isDigit_of_isBlank hBlank
  · decide

theorem fillSigned_follows
    (target : Target) :
    Follows A.stuck (OnContent A.settled)
      (fillSigned target) (fillSigned target)
      (OnContent A.rel) := by
  rw [fillSigned_eq]
  apply Follows.positionLift
  intro start start'
  apply (Follows.eat (by decide)
    (by decide)).settled.lift.bind
  intro negative
  apply Follows.positionLift
  intro _ _
  apply (takeDigits_follows).lift.bind
  intro digits
  apply Follows.ite
  · intro _
    exact .unexpectedLift
  · intro _
    exact storeSigned_follows target negative digits start
      start'

theorem fillUnsigned_follows
    (target : Target) :
    Follows A.stuck (OnContent A.settled)
      (fillUnsigned target) (fillUnsigned target)
      (OnContent A.rel) := by
  rw [fillUnsigned_eq]
  apply Follows.positionLift
  intro start start'
  have hDigits :
      Follows A.stuck (OnContent A.rel)
        (do
          let digits ← Scan.takeWhile (σ := Cursor) isDigit
          if digits.isEmpty then
            Scan.unexpected (σ := Cursor) .digits start
          else
            storeUnsigned target digits start)
        (do
          let digits ← Scan.takeWhile (σ := Cursor) isDigit
          if digits.isEmpty then
            Scan.unexpected (σ := Cursor) .digits start'
          else
            storeUnsigned target digits start')
        (OnContent A.rel) := by
    apply (takeDigits_follows).lift.bind
    intro digits
    apply Follows.ite
    · intro _
      exact .unexpectedLift
    · intro _
      exact storeUnsigned_follows target digits start start'
  apply Follows.peekLift
  · intro c
    apply Follows.ite
    · intro _
      exact .unexpectedLift
    · intro _
      exact hDigits.settledLift.nextLift_of_settled
  · rintro other (rfl | rfl)
    · exact hDigits
    · exact hDigits

theorem fillString_follows
    (target : Target) :
    Follows A.stuck (OnContent A.settled)
      (fillString target) (fillString target)
      (OnContent A.rel) := by
  apply Follows.positionLift
  intro start start'
  have hString :
      Follows A.stuck A.settled (string Scan.delimiters)
        (string Scan.delimiters) A.rel :=
    string_follows (by decide) (by decide)
  apply hString.lift.bind
  intro value
  exact .store

------------------------------------------------------------
-- Groups
------------------------------------------------------------

theorem closing_follows
    (start start' : Nat) :
    Follows A.stuck (OnContent A.rel)
      (Fill.closing start : Fill δ Bool)
      (Fill.closing start') (OnContent A.rel) := by
  apply Follows.skipBlanks.lift.bind
  intro _
  apply Follows.peekLift
  · intro c
    split
    · apply Follows.skip.lift.bind
      intro _
      exact .result _
    · apply Follows.skip.lift.bind
      intro _
      exact .result _
    · exact .throw
    · apply Follows.positionLift
      intro _ _
      exact .unexpectedLift
  · intro other _
    exact .throw

/- A round of a group, where elements are read alike. -/
theorem groupRound_follows
    {element element' : Fill δ Unit}
    (hElement :
      Follows A.stuck (OnContent A.settled) element
        element' (OnContent A.rel))
    (start start' : Nat) :
    Follows A.stuck (OnContent A.rel)
      (Fill.groupRound element start)
      (Fill.groupRound element' start')
      (OnContent A.rel) := by
  apply Follows.skipBlanks.lift.bind
  intro _
  apply Follows.peekLift
  · intro c
    apply Follows.ite
    · intro _
      exact .throw
    · intro _
      apply Follows.bind
      · exact hElement.nextLift_of_settled
      · intro _
        exact closing_follows start start'
  · intro other _
    exact .throw

theorem group_follows
    {element element' : Fill δ Unit}
    (hElement :
      Follows A.stuck (OnContent A.settled) element
        element' (OnContent A.rel)) :
    Follows A.stuck (OnContent (A.next '{'))
      (Fill.group element) (Fill.group element')
      (OnContent A.rel) := by
  rw [Fill.group_eq, Fill.group_eq]
  apply Follows.positionLift
  intro start start'
  apply Follows.skip.lift.bind
  intro _
  apply Follows.skipBlanks.lift.bind
  intro _
  apply (Follows.eat (by decide)
    (by decide)).settled.lift.bind
  intro closed
  apply Follows.ite
  · intro _
    exact .result _
  · intro _
    apply Follows.loopWhile
    exact groupRound_follows hElement start start'

------------------------------------------------------------
-- Slices and Maps
------------------------------------------------------------

/- Readers of items that read alike in both texts. -/
def ItemFollows
    (A : Alignment)
    (item item' : ItemReader) : Prop :=
  ∀ frame target,
    Follows A.stuck (OnContent A.rel) (item frame target)
      (item' frame target) (OnContent A.rel)

variable {item item' : ItemReader}

theorem fillItem_follows
    (hItem : ItemFollows A item item')
    (frame : Frame)
    (target : Target) :
    Follows A.stuck (OnContent A.rel)
      (fillItem item frame target)
      (fillItem item' frame target)
      (OnContent A.rel) := by
  apply Follows.positionLift
  intro _ _
  apply Follows.store.bind
  intro child
  exact (hItem frame child.inner).within

theorem sliceRound_follows
    (hItem : ItemFollows A item item')
    (frame : Frame)
    (target : Target) :
    Follows A.stuck (OnContent A.rel)
      (sliceRound item frame target)
      (sliceRound item' frame target)
      (OnContent A.rel) := by
  apply (fillItem_follows hItem .run target).bind
  intro _
  apply Follows.skipBlanks.lift.bind
  intro _
  apply Follows.ite
  · intro _
    exact .pure _ fun _ _ h => ⟨A.rel_of_settled h.1, h.2⟩
  · intro _
    exact (Follows.eat (by decide)
      (by decide)).settled.lift

theorem fillSlice_follows
    (hItem : ItemFollows A item item')
    (frame : Frame)
    (target : Target) :
    Follows A.stuck (OnContent A.settled)
      (fillSlice item frame target)
      (fillSlice item' frame target)
      (OnContent A.rel) := by
  have hElement :
      Follows A.stuck (OnContent A.settled)
        (fillItem item .group target)
        (fillItem item' .group target)
        (OnContent A.rel) :=
    (fillItem_follows hItem .group target).settledLift
  rw [fillSlice_eq, fillSlice_eq]
  apply Follows.positionLift
  intro _ _
  apply Follows.store.bind
  intro _
  apply Follows.peekLift
  · intro c
    split
    · rename_i hOpen
      cases hOpen
      exact group_follows hElement
    · exact .pure _ fun _ _ h => ⟨h.1.1, h.2⟩
    · exact .pure _ fun _ _ h => ⟨h.1.1, h.2⟩
    · exact .pure _ fun _ _ h => ⟨h.1.1, h.2⟩
    · exact .pure _ fun _ _ h => ⟨h.1.1, h.2⟩
    · have hRounds :=
        (sliceRound_follows hItem frame
          target).loopWhile
      exact hRounds.settledLift.nextLift_of_settled
  · rintro other (rfl | rfl)
    · exact .result _
    · exact .result _

theorem fillEntry_follows
    (hItem : ItemFollows A item item')
    (target : Target) :
    Follows A.stuck (OnContent A.settled)
      (fillEntry item target) (fillEntry item' target)
      (OnContent A.rel) := by
  have hKey :
      Follows A.stuck A.settled (string keyStops)
        (string keyStops) A.rel :=
    string_follows (by decide) (by decide)
  rw [fillEntry_eq, fillEntry_eq]
  apply Follows.positionLift
  intro _ _
  apply hKey.lift.bind
  intro key
  apply Follows.skipBlanks.lift.bind
  intro _
  apply Follows.positionLift
  intro _ _
  apply (Follows.eat (by decide)
    (by decide)).settled.lift.bind
  intro colon
  apply Follows.ite
  · intro _
    apply Follows.store.bind
    intro child
    exact (hItem .group child.inner).within
  · intro _
    exact .unexpectedLift

theorem fillMap_follows
    (hItem : ItemFollows A item item')
    (target : Target) :
    Follows A.stuck (OnContent A.settled)
      (fillMap item target) (fillMap item' target)
      (OnContent A.rel) := by
  rw [fillMap_eq, fillMap_eq]
  apply Follows.positionLift
  intro _ _
  apply Follows.peekLift
  · intro c
    apply Follows.ite
    · intro hOpen
      cases hOpen
      apply Follows.store.bind
      intro _
      exact group_follows
        (fillEntry_follows hItem target)
    · intro _
      exact .unexpectedLift
  · intro other _
    rw [if_neg nofun]
    exact .unexpectedLift

------------------------------------------------------------
-- Inference
------------------------------------------------------------

/- A token means the same wherever it stands. -/
theorem inferToken_follows
    (token : String)
    (start start' : Nat) :
    Follows A.stuck A.rel (inferToken token start)
      (inferToken token start') A.rel := by
  unfold inferToken
  split
  · exact .result _
  · exact .result _
  · split
    · exact .ite (fun _ => .result _)
        (fun _ => .throw)
    · exact .result _

theorem inferRun_follows
    {element element' : Scan Value}
    (hElement :
      Follows A.stuck A.rel element element' A.rel)
    (first : Value) :
    Follows A.stuck A.rel (inferRun element first)
      (inferRun element' first) A.rel := by
  apply Follows.loop
  intro items
  apply (Follows.eat (by decide) (by decide)).bind
  intro another
  apply Follows.ite
  · intro _
    apply hElement.bind
    intro item
    apply Follows.skipBlanks.bind
    intro _
    exact .pure _ fun _ _ h => A.rel_of_settled h
  · intro _
    exact .result _

theorem inferWith_follows
    {element element' : Scan Value}
    (hElement :
      Follows A.stuck A.rel element element' A.rel)
    (frame : Frame) :
    Follows A.stuck A.rel (inferWith element frame)
      (inferWith element' frame) A.rel := by
  apply hElement.bind
  intro first
  apply Follows.ite
  · intro _
    exact .result _
  · intro _
    apply Follows.skipBlanks.bind
    intro _
    apply Follows.peek
    · intro c
      apply Follows.ite
      · intro _
        exact
          (inferRun_follows hElement
            first).settled.next_of_settled
      · intro _
        exact .pure _ fun _ _ h => h.1
    · rintro other (rfl | rfl)
      · exact .result _
      · exact .result _

theorem fillAny_follows
    {element element' : Scan Value}
    (hElement :
      Follows A.stuck A.rel element element' A.rel) :
    ItemFollows A (fillAny element) (fillAny element') := by
  intro frame target
  apply Follows.positionLift
  intro _ _
  apply (inferWith_follows hElement frame).lift.bind
  intro value
  exact .store

/- At a brace, two look-aheads answer the same. -/
def LookFollows
    (A : Alignment)
    (look look' : Scan Bool) : Prop :=
  Follows A.stuck (A.next '{')
    look look'
    (A.next '{')

variable {look look' : Scan Bool}

theorem inferGroupBy_follows
    (hLook : LookFollows A look look')
    (hItem : ItemFollows A item item') :
    Follows A.stuck (A.next '{')
      (inferGroupBy look item) (inferGroupBy look' item')
      A.rel := by
  apply hLook.bind
  intro isMap
  apply Follows.ite
  · intro _
    apply Follows.collect
    exact (fillMap_follows hItem .dynamic).nextLift_of_settled
  · intro _
    apply Follows.collect
    exact (fillSlice_follows hItem .group
      .dynamic).nextLift_of_settled

theorem inferBare_follows :
    Follows A.stuck A.rel
      (do
        let start ← Scan.position
        let token ← bare Scan.delimiters
        inferToken token start)
      (do
        let start ← Scan.position
        let token ← bare Scan.delimiters
        inferToken token start)
      A.rel := by
  apply Follows.position
  intro start start'
  apply (bare_follows (by decide) (by decide)).bind
  intro token
  exact inferToken_follows token start start'

/- By induction on the depth, of which there is enough. -/
theorem inferElementBy_follows
    (hLook : LookFollows A look look')
    (depth : Nat) :
    ∀ depth',
      A.stuck .exhausted ∨ depth ≤ depth' →
        Follows A.stuck A.rel (inferElementBy look depth)
          (inferElementBy look' depth') A.rel := by
  induction depth with
  | zero =>
      intro depth' _
      exact .throw
  | succ depth ih =>
      intro depth' hDepth
      cases depth' with
      | zero =>
          rcases hDepth with hStuck | hFew
          · intro _ _ _ _ _ _
            exact hStuck
          · omega
      | succ depth' =>
          have hLess : A.stuck .exhausted ∨ depth ≤ depth' :=
            hDepth.imp id fun h => by omega
          unfold inferElementBy
          apply Follows.skipBlanks.bind
          intro _
          apply Follows.peek
          · intro c
            split
            · rename_i hOpen
              cases hOpen
              apply inferGroupBy_follows hLook
              intro frame target
              apply Follows.skipBlanks.lift.bind
              intro _
              have hElement := ih depth' hLess
              exact (fillAny_follows hElement frame
                target).settledLift
            · rename_i hQuote
              cases hQuote
              apply (quoted_follows).bind
              intro value
              exact .result _
            · rename_i hBacktick
              cases hBacktick
              apply (backtick_follows).bind
              intro value
              exact .result _
            · exact inferBare_follows.settled.next_of_settled
          · rintro other (rfl | rfl)
            · exact inferBare_follows
            · exact inferBare_follows

theorem elementBy_follows
    (hLook : LookFollows A look look') :
    Follows A.stuck A.rel (elementBy look)
      (elementBy look') A.rel := by
  apply Follows.get
  intro first second hRel
  exact inferElementBy_follows hLook _ _
    (Alignment.rounds hRel)

end Literal

------------------------------------------------------------
-- Descriptors
------------------------------------------------------------

namespace Descriptor

open Literal

variable {look look' : Scan Bool}

theorem RawFree.kind_ne
    {descriptor : Descriptor}
    (hRawFree : descriptor.RawFree) :
    descriptor.kind ≠ .raw := by
  cases descriptor with
  | plain kind => exact hRawFree
  | nested kind item => exact hRawFree.1

theorem fillFlatBy_follows
    (hLook : LookFollows A look look')
    {descriptor : Descriptor}
    (hRawFree : descriptor.RawFree)
    (frame : Frame)
    (target : Target) :
    Follows A.stuck (OnContent A.settled)
      (descriptor.fillFlatBy look frame target)
      (descriptor.fillFlatBy look' frame target)
      (OnContent A.rel) := by
  apply Follows.ite
  · intro _
    have hElement := elementBy_follows hLook
    exact (fillAny_follows hElement frame target).settledLift
  · intro hAny
    unfold fillFlat
    cases hKind : descriptor.kind with
    | bool => exact fillBool_follows target
    | signed => exact fillSigned_follows target
    | unsigned => exact fillUnsigned_follows target
    | string => exact fillString_follows target
    | raw => exact absurd hKind hRawFree.kind_ne
    | any => exact absurd hKind hAny
    | slice => exact .throw
    | map => exact .throw
    | invalid => exact .throw

/-
  A literal is read in the same way before a comma, if it is
  not raw text and the look-aheads find the same.
-/
theorem fillBy_follows
    (hLook : LookFollows A look look')
    {descriptor : Descriptor}
    (hRawFree : descriptor.RawFree) :
    ItemFollows A (descriptor.fillBy look)
      (descriptor.fillBy look') := by
  induction descriptor with
  | plain kind =>
      intro frame target
      rw [fillBy_eq, fillBy_eq]
      apply Follows.skipBlanks.lift.bind
      intro _
      exact fillFlatBy_follows hLook hRawFree frame
        target
  | nested kind item ih =>
      have hItem := ih hRawFree.2
      intro frame target
      rw [fillBy_eq, fillBy_eq]
      apply Follows.skipBlanks.lift.bind
      intro _
      cases kind with
      | slice =>
          exact fillSlice_follows hItem frame target
      | map => exact fillMap_follows hItem target
      | _ =>
          exact fillFlatBy_follows hLook hRawFree
            frame target

end Descriptor

end Marginalia
