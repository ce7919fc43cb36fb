import Marginalia.Proofs.Bytes
import Marginalia.Proofs.Literal.Whole

/-
  Raw text inside of a group: balanced text is cut at the
  right comma, and it is passed through as it is if its
  quoted parts are strings, or else refused.

  Key definitions include:
    * `Literal.Protected`
    * `Literal.Balanced`
    * `Literal.ReachesStop`

  Main statements:
    * `Literal.Balanced.takes`
    * `Literal.Balanced.onlyTakes`
-/

namespace Marginalia

namespace Literal

------------------------------------------------------------
-- Quoted Parts
------------------------------------------------------------

/- A backslash protects the character behind it. -/
inductive Protected : List Char → Prop
  | nil : Protected []
  | plain
      {c : Char}
      {text : List Char}
      (hQuote : c ≠ '"')
      (hBackslash : c ≠ '\\')
      (hRest : Protected text) :
      Protected (c :: text)
  | escaped
      (c : Char)
      {text : List Char}
      (hRest : Protected text) :
      Protected ('\\' :: c :: text)

/- The text spells some characters between double quotes. -/
def SpelledBody
    (text : List Char) : Prop :=
  ∃ chars, SpellsCharacters chars text

theorem length_le_append_cons
    (front rest : List Char)
    (c : Char) :
    rest.length ≤ (front ++ c :: rest).length := by
  rw [List.length_append, List.length_cons]
  omega

theorem Protected.append_plain
    {text rest : List Char}
    (hText : ∀ c ∈ text, c ≠ '"' ∧ c ≠ '\\')
    (hRest : Protected rest) :
    Protected (text ++ rest) := by
  induction text with
  | nil => exact hRest
  | cons c text ih =>
      have hFirst := hText c List.mem_cons_self
      exact .plain hFirst.1 hFirst.2
        (ih fun d hMember =>
          hText d (List.mem_cons_of_mem _ hMember))

/- Digits protect nothing and need no protection. -/
theorem CodeDigits.plain
    {digits : List Char}
    {c : Char}
    (hDigits : CodeDigits digits c) :
    ∀ digit ∈ digits, digit ≠ '"' ∧ digit ≠ '\\' := by
  intro digit hMember
  have hDigit := (codeDigits_iff.mp hDigits).1 digit hMember
  constructor
  · rintro rfl
    cases hDigit
  · rintro rfl
    cases hDigit

theorem SpellsCharacter.protected_append
    {c : Char}
    {text rest : List Char}
    (hText : SpellsCharacter c text)
    (hRest : Protected rest) :
    Protected (text ++ rest) := by
  cases hText with
  | itself hQuote hBackslash =>
      exact .plain hQuote hBackslash hRest
  | named => exact .escaped _ hRest
  | counted _ hDigits =>
      exact .escaped _ (.append_plain hDigits.plain hRest)
  | braced hDigits =>
      have hClose : Protected ('}' :: rest) :=
        .plain (by decide) (by decide) hRest
      rw [List.cons_append, List.cons_append,
        List.cons_append, List.append_assoc]
      exact .escaped _ (.plain (by decide) (by decide)
        (.append_plain hDigits.plain hClose))

theorem SpelledBody.protected
    {text : List Char}
    (hText : SpelledBody text) :
    Protected text := by
  rcases hText with ⟨chars, hText⟩
  induction hText with
  | nil => exact .nil
  | cons hFirst _ ih => exact hFirst.protected_append ih

/- Where a quoted part ends is no matter of choice. -/
theorem Protected.unique
    {first second rest rest' : List Char}
    (hFirst : Protected first)
    (hSecond : Protected second)
    (hSame : first ++ '"' :: rest = second ++ '"' :: rest') :
    first = second ∧ rest = rest' := by
  induction hFirst generalizing second with
  | nil =>
      cases hSecond with
      | nil => exact ⟨rfl, List.cons.inj hSame |>.2⟩
      | plain hQuote =>
          exact absurd (List.cons.inj hSame).1.symm hQuote
      | escaped =>
          exact absurd (List.cons.inj hSame).1 (by decide)
  | plain hQuote hBackslash _ ih =>
      cases hSecond with
      | nil => exact absurd (List.cons.inj hSame).1 hQuote
      | plain _ _ hRest =>
          rcases List.cons.inj hSame with ⟨rfl, hTail⟩
          rcases ih hRest hTail with ⟨rfl, hRest'⟩
          exact ⟨rfl, hRest'⟩
      | escaped =>
          exact absurd (List.cons.inj hSame).1 hBackslash
  | escaped c _ ih =>
      cases hSecond with
      | nil =>
          exact absurd (List.cons.inj hSame).1 (by decide)
      | plain _ hBackslash =>
          exact absurd (List.cons.inj hSame).1.symm hBackslash
      | escaped d hRest =>
          rcases List.cons.inj hSame with ⟨_, hBehind⟩
          rcases List.cons.inj hBehind with ⟨rfl, hTail⟩
          rcases ih hRest hTail with ⟨rfl, hRest'⟩
          exact ⟨rfl, hRest'⟩

------------------------------------------------------------
-- Balanced Text
------------------------------------------------------------

/-
  Brackets stand in pairs, given which texts may stand
  between double quotes. Commas may stand outside of all
  quotes and brackets only if they are allowed.
-/
inductive Balanced
    (body : List Char → Prop) :
    Bool → List Char → Prop
  | nil {commas : Bool} : Balanced body commas []
  | plain
      {commas : Bool}
      {c : Char}
      {text : List Char}
      (hOrdinary : Text.Ordinary c)
      (hComma : c = ',' → commas = true)
      (hRest : Balanced body commas text) :
      Balanced body commas (c :: text)
  | quoted
      {commas : Bool}
      {inner text : List Char}
      (hInner : body inner)
      (hRest : Balanced body commas text) :
      Balanced body commas ('"' :: (inner ++ '"' :: text))
  | backtick
      {commas : Bool}
      {inner text : List Char}
      (hInner : '`' ∉ inner)
      (hRest : Balanced body commas text) :
      Balanced body commas ('`' :: (inner ++ '`' :: text))
  | bracketed
      {commas : Bool}
      {opening closing : Char}
      {inner text : List Char}
      (hPair : (opening, closing) ∈ [('{', '}'), ('[', ']')])
      (hInner : Balanced body true inner)
      (hRest : Balanced body commas text) :
      Balanced body commas
        (opening :: (inner ++ closing :: text))

------------------------------------------------------------
-- Rounds
------------------------------------------------------------

variable {depth : Nat}
variable {c : Char}
variable {rest : List Char}

/- An ordinary character is passed. -/
theorem takes_balancedStep_plain
    (hOrdinary : Text.Ordinary c) :
    Scan.Takes (balancedStep depth c) (c :: rest)
      (.again depth) rest := by
  unfold balancedStep
  split
  case h_7 => exact Scan.Takes.skip.map
  all_goals exact absurd (by decide) hOrdinary

/- Brackets of either form count. -/
theorem takes_balancedStep_opening
    {closing : Char}
    (hPair : (c, closing) ∈ [('{', '}'), ('[', ']')]) :
    Scan.Takes (balancedStep depth c) (c :: rest)
      (.again (depth + 1)) rest := by
  rcases List.mem_pair.mp hPair with hPair | hPair
  · cases hPair
    exact Scan.Takes.skip.map
  · cases hPair
    exact Scan.Takes.skip.map

theorem takes_balancedStep_closing
    {opening : Char}
    (hPair : (opening, c) ∈ [('{', '}'), ('[', ']')]) :
    Scan.Takes (balancedStep (depth + 1) c) (c :: rest)
      (.again depth) rest := by
  rcases List.mem_pair.mp hPair with hPair | hPair
  · cases hPair
    exact Scan.Takes.skip.map
  · cases hPair
    exact Scan.Takes.skip.map

theorem takes_balancedStep_backtick
    {inner : List Char}
    (hInner : '`' ∉ inner) :
    Scan.Takes (balancedStep depth '`')
      ('`' :: (inner ++ '`' :: rest)) (.again depth)
      rest := by
  have hChars : '`' ∉ (String.ofList inner).toList := by
    rw [String.toList_ofList]
    exact hInner
  have hTakes := takes_backtick hChars rest
  rw [String.toList_ofList] at hTakes
  exact hTakes.bind (.pure _)

theorem takes_balancedStep_quoted
    {inner : List Char}
    (hInner : SpelledBody inner) :
    Scan.Takes (balancedStep depth '"')
      ('"' :: (inner ++ '"' :: rest)) (.again depth)
      rest := by
  rcases hInner with ⟨chars, hInner⟩
  exact (hInner.takes_quoted rest).bind (.pure _)

/- A quoted part is passed only if it is a string. -/
theorem onlyTakes_balancedStep_quoted
    {inner : List Char}
    (hInner : Protected inner) :
    OnlyTakes id (balancedStep depth '"')
      ('"' :: (inner ++ '"' :: rest))
      fun step after =>
        step = .again depth ∧ SpelledBody inner ∧
          after = rest := by
  refine .bind onlyTakes_quoted fun value after hText => ?_
  rcases hText with ⟨text, hSame, hSpelled⟩
  have hBody : SpelledBody text := ⟨_, hSpelled⟩
  rcases hInner.unique hBody.protected hSame with
    ⟨rfl, rfl⟩
  exact .pure ⟨rfl, hBody, rfl⟩

/-
  A character that does not stop the text is passed in one
  round.
-/
theorem run_balancedRound
    (hStop : depth = 0 → c ∉ rawStops .group)
    {cursor : Cursor}
    (hAhead : cursor.ahead = c :: rest) :
    balancedRound (rawStops .group) depth cursor =
      balancedStep depth c cursor := by
  have hPeek : cursor.peek = some c :=
    Cursor.peek_eq_some_iff.mpr ⟨rest, hAhead⟩
  have hNoStop :
      (depth = 0 && (rawStops .group).contains c : Bool) =
        false := by
    rw [Bool.and_eq_false_iff, decide_eq_false_iff_not,
      List.contains_eq_mem, decide_eq_false_iff_not]
    exact Decidable.not_or_of_imp hStop
  unfold balancedRound
  rw [run_bind, Scan.run_peek, hPeek]
  dsimp only
  rw [hNoStop, if_neg Bool.false_ne_true]

------------------------------------------------------------
-- Up to a Stop
------------------------------------------------------------

/-
  From here on the rounds end at the first stop outside of
  groups, with the second text ahead.
-/
def ReachesStop
    (depth : Nat)
    (before after : List Char) : Prop :=
  ∀ rounds,
    before.length ≤ rounds →
      Scan.Takes
        (iterate .exhausted
          (balancedRound (rawStops .group)) (rounds + 1)
          depth)
        before () after

/-
  From here on the rounds end with texts ahead of which the
  predicate holds, or they fail.
-/
def OnlyReaches
    (depth : Nat)
    (before : List Char)
    (post : List Char → Prop) : Prop :=
  ∀ rounds,
    OnlyTakes id
      (iterate .exhausted (balancedRound (rawStops .group))
        rounds depth)
      before fun _ after => post after

theorem ReachesStop.step
    {depth' : Nat}
    {before after : List Char}
    (hStop : depth = 0 → c ∉ rawStops .group)
    (hStep :
      Scan.Takes (balancedStep depth c) (c :: before)
        (.again depth') rest)
    (hShorter : rest.length ≤ before.length)
    (hRest : ReachesStop depth' rest after) :
    ReachesStop depth (c :: before) after := by
  intro rounds hRounds
  rw [List.length_cons] at hRounds
  cases rounds with
  | zero => exact absurd hRounds (Nat.not_succ_le_zero _)
  | succ rounds =>
      refine .again ?_ (hRest rounds (by omega))
      intro cursor hAhead
      rw [run_balancedRound hStop hAhead]
      exact hStep cursor hAhead

theorem OnlyReaches.step
    {depth' : Nat}
    {before : List Char}
    {post : List Char → Prop}
    (hStop : depth = 0 → c ∉ rawStops .group)
    (hStep :
      OnlyTakes id (balancedStep depth c) (c :: before)
        fun step after =>
          step = .again depth' ∧
            OnlyReaches depth' after post) :
    OnlyReaches depth (c :: before) post := by
  intro rounds
  cases rounds with
  | zero => exact .throw _
  | succ rounds =>
      have hRound :
          OnlyTakes id (balancedRound (rawStops .group) depth)
            (c :: before) fun step after =>
              step = .again depth' ∧
                OnlyReaches depth' after post := by
        intro cursor hAhead
        have hRun :
            balancedRound (rawStops .group) depth cursor =
              balancedStep depth c cursor :=
          run_balancedRound hStop hAhead
        rw [hRun]
        exact hStep cursor hAhead
      unfold iterate
      refine hRound.bind ?_
      rintro _ after ⟨rfl, hRest⟩
      exact hRest rounds

theorem OnlyReaches.stop
    {before after : List Char}
    {post : List Char → Prop}
    (hRound :
      Scan.Takes (balancedRound (rawStops .group) depth)
        before (.done ()) after)
    (hPost : post after) :
    OnlyReaches depth before post := by
  intro rounds
  cases rounds with
  | zero => exact .throw _
  | succ rounds =>
      unfold iterate
      exact .takes hRound (.pure hPost)

/- No ordinary character but the comma stops raw text. -/
theorem not_mem_rawStops
    {commas : Bool}
    (hOrdinary : Text.Ordinary c)
    (hComma : c = ',' → commas = true)
    (hDepth : depth = 0 → commas = false) :
    depth = 0 → c ∉ rawStops .group := by
  intro hZero hMember
  have hStops :
      ∀ d ∈ rawStops .group, d = ',' ∨ ¬ Text.Ordinary d := by
    decide
  rcases hStops c hMember with hEq | hBracket
  · have hAllowed := hComma hEq
    rw [hDepth hZero] at hAllowed
    cases hAllowed
  · exact hBracket hOrdinary

theorem opening_not_mem_rawStops
    {closing : Char}
    (hPair : (c, closing) ∈ [('{', '}'), ('[', ']')]) :
    c ∉ rawStops .group := by
  rcases List.mem_pair.mp hPair with hPair | hPair
  · cases hPair
    decide
  · cases hPair
    decide

/- Balanced text is passed, however deep it stands. -/
theorem Balanced.reachesStop
    {commas : Bool}
    {text after : List Char}
    (hText : Balanced SpelledBody commas text)
    (hDepth : depth = 0 → commas = false)
    (hRest : ReachesStop depth rest after) :
    ReachesStop depth (text ++ rest) after := by
  induction hText generalizing depth rest after with
  | nil => exact hRest
  | plain hOrdinary hComma _ ih =>
      exact .step
        (not_mem_rawStops hOrdinary hComma hDepth)
        (takes_balancedStep_plain hOrdinary) (Nat.le_refl _)
        (ih hDepth hRest)
  | @quoted _ inner text hInner _ ih =>
      rw [List.cons_append, List.append_assoc,
        List.cons_append]
      refine .step (fun _ => by decide)
        (takes_balancedStep_quoted hInner) ?_
        (ih hDepth hRest)
      exact length_le_append_cons _ _ _
  | @backtick _ inner text hInner _ ih =>
      rw [List.cons_append, List.append_assoc,
        List.cons_append]
      refine .step (fun _ => by decide)
        (takes_balancedStep_backtick hInner) ?_
        (ih hDepth hRest)
      exact length_le_append_cons _ _ _
  | @bracketed _ opening closing inner text hPair _ _ ihInner
      ih =>
      have hClosing :
          ReachesStop (depth + 1) (closing :: (text ++ rest))
            after :=
        .step nofun (takes_balancedStep_closing hPair)
          (Nat.le_refl _) (ih hDepth hRest)
      rw [List.cons_append, List.append_assoc,
        List.cons_append]
      exact .step (fun _ => opening_not_mem_rawStops hPair)
        (takes_balancedStep_opening hPair) (Nat.le_refl _)
        (ihInner nofun hClosing)

/-
  Text that is balanced but for its quoted parts is passed
  only if those are strings.
-/
theorem Balanced.onlyReaches
    {commas : Bool}
    {text : List Char}
    {post : List Char → Prop}
    (hText : Balanced Protected commas text)
    (hDepth : depth = 0 → commas = false)
    (hRest :
      Balanced SpelledBody commas text →
        OnlyReaches depth rest post) :
    OnlyReaches depth (text ++ rest) post := by
  induction hText generalizing depth rest post with
  | nil => exact hRest .nil
  | plain hOrdinary hComma _ ih =>
      refine .step (not_mem_rawStops hOrdinary hComma hDepth)
        (.of_takes (takes_balancedStep_plain hOrdinary)
          ⟨rfl, ih hDepth fun hSpelled => ?_⟩)
      exact hRest (.plain hOrdinary hComma hSpelled)
  | @quoted _ inner text hInner _ ih =>
      rw [List.cons_append, List.append_assoc,
        List.cons_append]
      have hStep :
          OnlyTakes id (balancedStep depth '"')
            ('"' :: (inner ++ '"' :: (text ++ rest)))
            fun step after =>
              step = .again depth ∧
                OnlyReaches depth after post := by
        refine (onlyTakes_balancedStep_quoted hInner).imp ?_
        rintro step _ ⟨hAgain, hBody, rfl⟩
        refine ⟨hAgain, ih hDepth fun hSpelled => ?_⟩
        exact hRest (.quoted hBody hSpelled)
      exact .step (fun _ => by decide) hStep
  | backtick hInner _ ih =>
      rw [List.cons_append, List.append_assoc,
        List.cons_append]
      refine .step (fun _ => by decide)
        (.of_takes (takes_balancedStep_backtick hInner)
          ⟨rfl, ih hDepth fun hSpelled => ?_⟩)
      exact hRest (.backtick hInner hSpelled)
  | @bracketed _ opening closing inner text hPair _ _ ihInner
      ih =>
      rw [List.cons_append, List.append_assoc,
        List.cons_append]
      refine .step (fun _ => opening_not_mem_rawStops hPair)
        (.of_takes (takes_balancedStep_opening hPair)
          ⟨rfl, ihInner nofun fun hInside => ?_⟩)
      refine .step nofun
        (.of_takes (takes_balancedStep_closing hPair)
          ⟨rfl, ih hDepth fun hSpelled => ?_⟩)
      exact hRest (.bracketed hPair hInside hSpelled)

------------------------------------------------------------
-- Raw Items
------------------------------------------------------------

/- A stop, or the end, is where the rounds end. -/
theorem takes_balancedRound_stop
    (hRest : StopsAt elementStops rest) :
    Scan.Takes (balancedRound (rawStops .group) 0)
      (Text.trimStart rest) (.done ())
      (Text.trimStart rest) := by
  apply Scan.Takes.peek.bind
  split
  · exact .pure _
  · rename_i c hHead
    have hStops :
        ∀ d ∈ elementStops,
          ((0 : Nat) = 0 && (rawStops .group).contains d) =
            true := by
      decide
    rw [if_pos (hStops c (hRest c hHead))]
    exact .pure _

theorem balanced_of_blank
    {body : List Char → Prop}
    {blanks : List Char}
    (hBlanks : Text.Blank blanks) :
    Balanced body false blanks := by
  induction blanks with
  | nil => exact .nil
  | cons c blanks ih =>
      have hBlank := hBlanks c List.mem_cons_self
      refine .plain (Text.ordinary_of_isBlank hBlank) ?_
        (ih fun d hMember =>
          hBlanks d (List.mem_cons_of_mem _ hMember))
      intro hComma
      exact absurd hComma
        (Text.ne_of_isBlank hBlank (by decide))

/- What has been passed is the difference to what was ahead. -/
theorem takes_passedSince
    {start : Cursor}
    {passed after : List Char}
    (hStart : start.ahead = passed ++ after) :
    Scan.Takes (passedSince start) after passed after := by
  have hPassed :
      passedSince start = (do
        let now ← get
        return start.ahead.take
          (start.ahead.length - now.ahead.length)) :=
    rfl
  rw [hPassed]
  refine .get ?_
  rintro now rfl
  rw [hStart, List.length_append, Nat.add_sub_cancel,
    List.take_left]
  exact .pure passed

/- A balanced item is cut at the stop behind it. -/
theorem Balanced.takes
    {text : List Char}
    (hText : Balanced SpelledBody false text)
    (hEnds : Text.Ends text)
    (hRest : StopsAt elementStops rest) :
    Scan.Takes (balanced (rawStops .group)) (text ++ rest)
      (String.ofList text) (Text.trimStart rest) := by
  rcases Text.exists_blank_append_trimStart rest with
    ⟨blanks, hBlanks, hSplit⟩
  have hStop :
      ReachesStop 0 (Text.trimStart rest)
        (Text.trimStart rest) :=
    fun _ _ => .done (takes_balancedRound_stop hRest)
  have hBehind :=
    (balanced_of_blank hBlanks).reachesStop (fun _ => rfl)
      hStop
  rw [← hSplit] at hBehind
  have hReaches := hText.reachesStop (fun _ => rfl) hBehind
  rw [balanced_eq]
  refine .get fun start hStart => ?_
  apply (Scan.Takes.loop (hReaches _ (Nat.le_refl _))).bind
  have hPassed :
      start.ahead =
        (text ++ blanks) ++ Text.trimStart rest := by
    rw [hStart, List.append_assoc, ← hSplit]
  apply (takes_passedSince hPassed).bind
  rw [Text.trimEnd_append_of_blank hBlanks, hEnds.trimEnd]
  exact .pure _

/- An item that is read has strings for its quoted parts. -/
theorem Balanced.onlyTakes
    {text : List Char}
    (hText : Balanced Protected false text)
    (hRest : StopsAt elementStops rest) :
    OnlyTakes id (balanced (rawStops .group)) (text ++ rest)
      fun _ after =>
        Balanced SpelledBody false text ∧
          after = Text.trimStart rest := by
  rcases Text.exists_blank_append_trimStart rest with
    ⟨blanks, hBlanks, hSplit⟩
  have hReaches :
      OnlyReaches 0 (text ++ rest) fun after =>
        Balanced SpelledBody false text ∧
          after = Text.trimStart rest := by
    refine hText.onlyReaches (fun _ => rfl) fun hSpelled => ?_
    have hStop := takes_balancedRound_stop hRest
    rw [hSplit]
    exact (balanced_of_blank hBlanks).onlyReaches
      (fun _ => rfl) fun _ =>
        .stop hStop ⟨hSpelled, by rw [← hSplit]⟩
  rw [balanced_eq]
  refine .get fun start => ?_
  refine .bind (.get fun cursor => hReaches _) ?_
  rintro _ _ hPost
  exact .get fun now => .pure hPost

end Literal

end Marginalia
