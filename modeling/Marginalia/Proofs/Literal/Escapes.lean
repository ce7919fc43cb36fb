import Marginalia.Proofs.Numerals
import Marginalia.Proofs.OnlyTakes
import Marginalia.Proofs.Literal.Forms

/-
  The spellings of characters between double quotes: exactly
  the texts in which every character is spelled are read, each
  as the characters that it spells.

  Key definitions include:
    * `Literal.namedEscapes`
    * `Literal.CodeDigits`
    * `Literal.SpellsCharacter`
    * `Literal.SpellsCharacters`

  Main statements:
    * `Literal.SpellsCharacters.takes_quoted`
    * `Literal.onlyTakes_quoted`
-/

namespace Marginalia

namespace Literal

------------------------------------------------------------
-- Spellings
------------------------------------------------------------

/- The letters that stand for a character on their own. -/
def namedEscapes : List (Char × Char) := [
  ('n', '\n'), ('t', '\t'), ('r', '\r'), ('0', '\x00'),
  ('a', '\x07'), ('b', '\x08'), ('f', '\x0C'),
  ('v', '\x0B'), ('\\', '\\'), ('"', '"'),
  ('\x27', '\x27')]

/- The letters with so many digits of a code point. -/
def countedEscapes : List (Char × Nat) :=
  [('x', 2), ('u', 4), ('U', 8)]

/-
  Hexadecimal digits, in either case, that denote the code
  point of the character.
-/
def CodeDigits
    (digits : List Char)
    (c : Char) : Prop :=
  Text.Numeral 16 (digits.map Char.toLower) c.toNat

/- The spellings of a character between double quotes. -/
inductive SpellsCharacter : Char → List Char → Prop
  | itself
      {c : Char}
      (hQuote : c ≠ '"')
      (hBackslash : c ≠ '\\') :
      SpellsCharacter c [c]
  | named
      {letter c : Char}
      (hNamed : (letter, c) ∈ namedEscapes) :
      SpellsCharacter c ['\\', letter]
  | counted
      {letter c : Char}
      {digits : List Char}
      (hCounted : (letter, digits.length) ∈ countedEscapes)
      (hDigits : CodeDigits digits c) :
      SpellsCharacter c ('\\' :: letter :: digits)
  | braced
      {c : Char}
      {digits : List Char}
      (hDigits : CodeDigits digits c) :
      SpellsCharacter c
        ('\\' :: 'u' :: '{' :: (digits ++ ['}']))

/- Characters are spelled independently of each other. -/
inductive SpellsCharacters :
    List Char → List Char → Prop
  | nil : SpellsCharacters [] []
  | cons
      {c : Char}
      {chars text texts : List Char}
      (hFirst : SpellsCharacter c text)
      (hRest : SpellsCharacters chars texts) :
      SpellsCharacters (c :: chars) (text ++ texts)

------------------------------------------------------------
-- Digits
------------------------------------------------------------

variable {c : Char}
variable {digits : List Char}

theorem codeDigits_iff :
    CodeDigits digits c ↔
      (∀ digit ∈ digits, Text.isHexDigit digit = true) ∧
        Text.scalar? digits = some c := by
  unfold CodeDigits
  rw [Text.numeral_sixteen_iff, Text.scalar_eq_some_iff]
  tauto

theorem CodeDigits.ne_nil
    (hDigits : CodeDigits digits c) :
    digits ≠ [] :=
  (Text.numeral_sixteen_iff.mp hDigits).1

/- The digits in which a code point is written denote it. -/
theorem codeDigits_toDigits
    (c : Char) :
    CodeDigits (Nat.toDigits 16 c.toNat) c :=
  Text.numeral_sixteen_iff.mpr
    ⟨Nat.toDigits_ne_nil,
      fun _ hMember =>
        Text.isHexDigit_of_mem_toDigits hMember,
      Text.hexValue_toDigits c.toNat⟩

theorem takes_scalarOf
    (hDigits : CodeDigits digits c)
    (start : Nat)
    (rest : List Char) :
    Scan.Takes (scalarOf digits start) rest c rest := by
  unfold scalarOf
  rw [(codeDigits_iff.mp hDigits).2]
  exact .pure c

/- Digits are consumed up to their number. -/
theorem takes_hexDigits
    (hDigits : ∀ digit ∈ digits,
      Text.isHexDigit digit = true)
    (rest : List Char) :
    Scan.Takes (hexDigits digits.length) (digits ++ rest)
      digits rest := by
  induction digits with
  | nil => exact .pure []
  | cons digit digits ih =>
      have hFirst := hDigits digit List.mem_cons_self
      have hRest := ih fun other hMember =>
        hDigits other (List.mem_cons_of_mem _ hMember)
      rw [List.length_cons, hexDigits]
      apply Scan.Takes.peek.bind
      dsimp only [List.cons_append, List.head?_cons]
      rw [if_pos hFirst]
      exact Scan.Takes.skip.bind hRest.map

theorem takes_scalarOfLength
    (hDigits : CodeDigits digits c)
    (start : Nat)
    (rest : List Char) :
    Scan.Takes (scalarOfLength digits.length start)
      (digits ++ rest) c rest := by
  have hAll := (codeDigits_iff.mp hDigits).1
  apply (takes_hexDigits hAll rest).bind
  rw [if_neg (Nat.lt_irrefl _)]
  exact takes_scalarOf hDigits start rest

------------------------------------------------------------
-- Escapes
------------------------------------------------------------

theorem simpleEscape_eq_some_iff
    {letter : Char} :
    simpleEscape? letter = some c ↔
      (letter, c) ∈ namedEscapes := by
  constructor
  · intro hSimple
    unfold simpleEscape? at hSimple
    split at hSimple <;> cases hSimple <;> decide
  · have hNamed :
        ∀ escape ∈ namedEscapes,
          simpleEscape? escape.1 = some escape.2 := by
      decide
    intro hMember
    exact hNamed _ hMember

/- A letter that stands for a character. -/
theorem takes_escape_named
    {letter : Char}
    (hNamed : (letter, c) ∈ namedEscapes)
    (start : Nat)
    (rest : List Char) :
    Scan.Takes (escape letter start) rest c rest := by
  unfold escape
  rw [simpleEscape_eq_some_iff.mpr hNamed]
  exact .pure c

/- A letter with a number of digits. -/
theorem takes_escape_counted
    {letter : Char}
    (hCounted : (letter, digits.length) ∈ countedEscapes)
    (hDigits : CodeDigits digits c)
    (start : Nat)
    (rest : List Char) :
    Scan.Takes (escape letter start) (digits ++ rest) c
      rest := by
  have hScalar :=
    takes_scalarOfLength hDigits start rest
  have hNoBrace : (digits ++ rest).head? ≠ some '{' := by
    cases digits with
    | nil => exact absurd rfl hDigits.ne_nil
    | cons digit digits =>
        rintro ⟨⟩
        exact absurd
          ((codeDigits_iff.mp hDigits).1 '{'
            List.mem_cons_self)
          (by decide)
  unfold countedEscapes at hCounted
  simp only [List.mem_cons, Prod.mk.injEq, List.not_mem_nil,
    or_false] at hCounted
  rcases hCounted with
    ⟨rfl, hLength⟩ | ⟨rfl, hLength⟩ | ⟨rfl, hLength⟩
  · rw [hLength] at hScalar
    exact hScalar
  · rw [hLength] at hScalar
    exact (Scan.Takes.eat_other hNoBrace).bind hScalar
  · rw [hLength] at hScalar
    exact hScalar

/- Digits in braces. -/
theorem takes_escape_braced
    (hDigits : CodeDigits digits c)
    (start : Nat)
    (rest : List Char) :
    Scan.Takes (escape 'u' start)
      ('{' :: (digits ++ '}' :: rest)) c rest := by
  have hTakes :
      Scan.Takes (Scan.takeWhile Text.isHexDigit)
        (digits ++ '}' :: rest) digits ('}' :: rest) := by
    refine .takeWhile_append (codeDigits_iff.mp hDigits).1 ?_
    rintro _ ⟨⟩
    rfl
  refine Scan.Takes.eat.bind (hTakes.bind ?_)
  apply Scan.Takes.eat.bind
  exact takes_scalarOf hDigits start rest

------------------------------------------------------------
-- Quoted Strings
------------------------------------------------------------

/- A character that is spelled is read in one round. -/
theorem SpellsCharacter.takes_quotedRound
    {text : List Char}
    (hText : SpellsCharacter c text)
    (start : Nat)
    (read rest : List Char) :
    Scan.Takes (quotedRound start read) (text ++ rest)
      (.again (c :: read)) rest := by
  have hEscape :
      ∀ letter tail,
        (∀ place,
          Scan.Takes (escape letter place) tail c rest) →
          Scan.Takes (quotedRound start read)
            ('\\' :: letter :: tail) (.again (c :: read))
            rest := by
    intro letter tail hTakes
    refine .position fun place => ?_
    refine Scan.Takes.next.bind (Scan.Takes.next.bind ?_)
    exact (hTakes place).map
  cases hText with
  | itself hQuote hBackslash =>
      refine .position fun place => ?_
      apply Scan.Takes.next.bind
      split
      · rename_i hEq
        cases hEq
      · rename_i hEq
        exact absurd (Option.some.inj hEq) hQuote
      · rename_i hEq
        exact absurd (Option.some.inj hEq) hBackslash
      · rename_i hEq
        cases hEq
        exact .pure _
  | named hNamed =>
      exact hEscape _ _ fun place =>
        takes_escape_named hNamed place rest
  | counted hCounted hDigits =>
      exact hEscape _ _ fun place =>
        takes_escape_counted hCounted hDigits place rest
  | braced hDigits =>
      rw [List.cons_append, List.cons_append,
        List.cons_append, List.append_assoc]
      exact hEscape _ _ fun place =>
        takes_escape_braced hDigits place rest

/- The characters up to the closing quote. -/
theorem SpellsCharacters.takes_quotedRounds
    {chars text : List Char}
    (hText : SpellsCharacters chars text)
    (start : Nat)
    (rest : List Char) :
    ∀ read rounds,
      chars.length ≤ rounds →
        Scan.Takes
          (iterate .exhausted (quotedRound start)
            (rounds + 1) read)
          (text ++ '"' :: rest)
          (String.ofList (read.reverse ++ chars)) rest := by
  induction hText with
  | nil =>
      intro read rounds _
      rw [List.append_nil]
      refine .done (.position fun place => ?_)
      exact Scan.Takes.next.bind (.pure _)
  | @cons c chars text texts hFirst _ ih =>
      intro read rounds hRounds
      cases rounds with
      | zero => exact absurd hRounds (Nat.not_succ_le_zero _)
      | succ rounds =>
          have hRest := ih (c :: read) rounds
            (Nat.le_of_succ_le_succ hRounds)
          rw [List.reverse_cons, List.append_assoc] at hRest
          rw [List.append_assoc]
          exact .again (hFirst.takes_quotedRound start read _)
            hRest

/- Every character takes space. -/
theorem SpellsCharacters.length_le
    {chars text : List Char}
    (hText : SpellsCharacters chars text) :
    chars.length ≤ text.length := by
  induction hText with
  | nil => exact Nat.le_refl _
  | @cons c chars text texts hFirst _ ih =>
      have hSpace : 0 < text.length := by
        cases hFirst <;> exact Nat.succ_pos _
      rw [List.length_append, List.length_cons]
      omega

/- Characters between double quotes are read as spelled. -/
theorem SpellsCharacters.takes_quoted
    {chars text : List Char}
    (hText : SpellsCharacters chars text)
    (rest : List Char) :
    Scan.Takes quoted ('"' :: (text ++ '"' :: rest))
      (String.ofList chars) rest := by
  have hLength :
      chars.length ≤ (text ++ '"' :: rest).length := by
    have hSpace := hText.length_le
    rw [List.length_append]
    omega
  rw [quoted_eq]
  refine .position fun start => ?_
  refine Scan.Takes.skip.bind (.loop ?_)
  exact hText.takes_quotedRounds start rest [] _ hLength

/- The escaped form of a character spells it. -/
theorem spellsCharacter_escape
    (c : Char) :
    SpellsCharacter c (Text.escape c) := by
  unfold Text.escape
  split_ifs with h0 ht hr hn hq hb hHidden
  · exact .named (by rw [h0]; decide)
  · exact .named (by rw [ht]; decide)
  · exact .named (by rw [hr]; decide)
  · exact .named (by rw [hn]; decide)
  · exact .named (by rw [hq]; decide)
  · exact .named (by rw [hb]; decide)
  · exact .braced (codeDigits_toDigits c)
  · exact .itself hq hb

theorem spellsCharacters_escape
    (text : List Char) :
    SpellsCharacters text (text.flatMap Text.escape) := by
  induction text with
  | nil => exact .nil
  | cons c text ih =>
      rw [List.flatMap_cons]
      exact .cons (spellsCharacter_escape c) ih

------------------------------------------------------------
-- Only Spellings Are Read
------------------------------------------------------------

theorem onlyTakes_hexDigits
    (count : Nat)
    {before : List Char} :
    OnlyTakes id (hexDigits count) before
      fun digits after =>
        before = digits ++ after ∧
          (∀ digit ∈ digits, Text.isHexDigit digit = true) ∧
            digits.length ≤ count := by
  induction count generalizing before with
  | zero => exact .pure ⟨rfl, nofun, Nat.le_refl _⟩
  | succ count ih =>
      have hNone :
          OnlyTakes id (pure [] : Scan (List Char)) before
            fun digits after =>
              before = digits ++ after ∧
                (∀ digit ∈ digits,
                  Text.isHexDigit digit = true) ∧
                  digits.length ≤ count + 1 :=
        .pure ⟨rfl, nofun, Nat.zero_le _⟩
      rw [hexDigits]
      refine .takes .peek ?_
      cases before with
      | nil => exact hNone
      | cons c rest =>
          refine .ite (fun hDigit => ?_) fun _ => hNone
          refine .takes .skip (.bind ih ?_)
          rintro digits after ⟨rfl, hDigits, hLength⟩
          refine .pure ⟨rfl, ?_, Nat.succ_le_succ hLength⟩
          exact List.forall_mem_cons.mpr ⟨hDigit, hDigits⟩

theorem onlyTakes_scalarOf
    (hDigits : ∀ digit ∈ digits,
      Text.isHexDigit digit = true)
    (start : Nat)
    {before : List Char} :
    OnlyTakes id (scalarOf digits start) before
      fun c after => CodeDigits digits c ∧ after = before := by
  unfold scalarOf
  split
  · rename_i c hScalar
    exact .pure ⟨codeDigits_iff.mpr ⟨hDigits, hScalar⟩, rfl⟩
  · exact .wrong _ _ _

theorem onlyTakes_scalarOfLength
    {letter : Char}
    {count : Nat}
    (hCounted : (letter, count) ∈ countedEscapes)
    (start : Nat)
    {before : List Char} :
    OnlyTakes id (scalarOfLength count start) before
      fun c after =>
        ∃ text,
          before = text ++ after ∧
            SpellsCharacter c ('\\' :: letter :: text) := by
  refine .bind (onlyTakes_hexDigits count) ?_
  rintro digits rest ⟨rfl, hDigits, hLength⟩
  refine .ite (fun _ => .wrong _ _ _) fun hLess => ?_
  have hExact : count = digits.length := by
    omega
  subst hExact
  refine (onlyTakes_scalarOf hDigits start).imp ?_
  rintro c _ ⟨hCode, rfl⟩
  exact ⟨digits, rfl, .counted hCounted hCode⟩

/- What an escape reads spells the character it returns. -/
theorem onlyTakes_escape
    (letter : Char)
    (start : Nat)
    {before : List Char} :
    OnlyTakes id (escape letter start) before
      fun c after =>
        ∃ text,
          before = text ++ after ∧
            SpellsCharacter c ('\\' :: letter :: text) := by
  unfold escape
  split
  · rename_i c hSimple
    exact .pure ⟨[], rfl,
      .named (simpleEscape_eq_some_iff.mp hSimple)⟩
  · split
    · exact onlyTakes_scalarOfLength (by decide) start
    · refine .bind .eat fun braced rest hBefore => ?_
      cases braced with
      | false =>
          rcases hBefore with ⟨rfl, _⟩
          exact onlyTakes_scalarOfLength (by decide) start
      | true =>
          rw [if_pos rfl] at hBefore
          subst hBefore
          refine .takes (.takeWhile Text.isHexDigit) ?_
          refine .bind .eat fun closed after hRest => ?_
          cases closed with
          | false => exact .unexpected _ _
          | true =>
              rw [if_pos rfl] at hRest
              have hSplit :
                  rest =
                    rest.takeWhile Text.isHexDigit ++
                      '}' :: after := by
                rw [← hRest, List.takeWhile_append_dropWhile]
              refine (onlyTakes_scalarOf
                (fun _ => List.mem_takeWhile_imp) start).imp
                  ?_
              rintro c _ ⟨hCode, rfl⟩
              refine ⟨_, ?_, .braced hCode⟩
              rw [List.cons_append, List.append_assoc,
                List.singleton_append, ← hSplit]
    · exact onlyTakes_scalarOfLength (by decide) start
    · exact .wrong _ _ _

/- A round reads the spelling of a character or ends. -/
theorem onlyTakes_quotedRound
    (start : Nat)
    (read : List Char)
    {before : List Char} :
    OnlyTakes id (quotedRound start read) before
      fun step after =>
        match step with
        | .again next =>
            ∃ c text,
              next = c :: read ∧ before = text ++ after ∧
                SpellsCharacter c text
        | .done value =>
            value = String.ofList read.reverse ∧
              before = '"' :: after := by
  refine .position fun place => ?_
  cases before with
  | nil => exact .takes .nextNone (.throw _)
  | cons c rest =>
      refine .takes .next ?_
      split
      · exact .throw _
      · rename_i hQuote
        cases hQuote
        exact .pure ⟨rfl, rfl⟩
      · rename_i hBackslash
        cases hBackslash
        cases rest with
        | nil => exact .takes .nextNone (.throw _)
        | cons letter rest =>
            refine .takes .next ?_
            refine .bind (onlyTakes_escape letter place) ?_
            rintro c after ⟨text, rfl, hText⟩
            exact .pure ⟨c, _, rfl, rfl, hText⟩
      · rename_i other hQuote hBackslash hOther
        cases hOther
        exact .pure ⟨c, [c], rfl, rfl,
          .itself hQuote hBackslash⟩

theorem SpellsCharacters.snoc
    {chars text texts : List Char}
    (hTexts : SpellsCharacters chars texts)
    (hText : SpellsCharacter c text) :
    SpellsCharacters (chars ++ [c]) (texts ++ text) := by
  induction hTexts with
  | nil =>
      have hOne := SpellsCharacters.cons hText .nil
      rw [List.append_nil] at hOne
      exact hOne
  | cons hFirst _ ih =>
      rw [List.append_assoc]
      exact .cons hFirst ih

/- A string between double quotes is read as it is spelled. -/
theorem onlyTakes_quoted
    {before : List Char} :
    OnlyTakes id quoted ('"' :: before)
      fun value after =>
        ∃ text,
          before = text ++ '"' :: after ∧
            SpellsCharacters value.toList text := by
  rw [quoted_eq]
  refine .position fun start => .takes .skip ?_
  -- what has been read spells what is remembered of it
  refine .loop
    (fun read rest =>
      ∃ text,
        before = text ++ rest ∧
          SpellsCharacters read.reverse text)
    ?_ ⟨[], rfl, .nil⟩
  rintro read rest ⟨texts, rfl, hTexts⟩
  refine (onlyTakes_quotedRound start read).imp ?_
  rintro (next | value) after hStep
  · rcases hStep with ⟨c, text, rfl, rfl, hText⟩
    refine ⟨texts ++ text, ?_, ?_⟩
    · rw [List.append_assoc]
    · rw [List.reverse_cons]
      exact hTexts.snoc hText
  · rcases hStep with ⟨rfl, rfl⟩
    refine ⟨texts, rfl, ?_⟩
    rw [String.toList_ofList]
    exact hTexts

end Literal

end Marginalia
