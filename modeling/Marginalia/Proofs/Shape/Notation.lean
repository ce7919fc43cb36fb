import Marginalia.Shape.Notation
import Marginalia.Proofs.OnlyTakes
import Marginalia.Proofs.Shape.Spelling

/-
  Every spelling of a type is read as that type.

  Key definitions include:
    * `Scan.toEnd`
    * `Shape.scanNamed`
    * `Shape.scanBracketed`
    * `Shape.scanAt`
    * `Shape.ReadAs`

  Main statements:
    * `Scan.whole_eq_ok_iff`
    * `Shape.named_iff`
    * `Shape.Spells.readAs`
    * `Shape.scan_denotable`
    * `Shape.ofText_spelling`
-/

namespace Marginalia

------------------------------------------------------------
-- Whole Texts
------------------------------------------------------------

namespace Scan

variable {α : Type}
variable {action : Scan α}
variable {atRest : Scan Unit}
variable {text : String}
variable {result : α}

/- An action, and then the end of the text. -/
def toEnd
    (action : Scan α)
    (atRest : Scan Unit) : Scan α := do
  let result ← action
  skipBlanks
  unless (← get).atEnd do
    atRest
  return result

theorem whole_eq_ok_iff :
    whole action atRest text = .ok result ↔
      ∃ cursor,
        toEnd action atRest (.ofText text) =
          .ok result cursor := by
  unfold whole toEnd
  simp only [EStateM.run]
  split
  · rename_i found cursor hRun
    rw [hRun]
    simp
  · rename_i error cursor hRun
    rw [hRun]
    simp

/- What is read of a whole text, if blanks are left of it. -/
theorem whole_eq_ok_of_takes
    {gap : List Char}
    (hGap : Text.Blank gap)
    (hTakes : Takes action text.toList result gap) :
    whole action atRest text = .ok result := by
  have hComplete :
      Takes (toEnd action atRest) text.toList result
        [] := by
    refine hTakes.bind (.bind .skipBlanks ?_)
    rw [Text.trimStart_of_blank hGap]
    refine .get fun cursor hAhead => ?_
    have hEnd : cursor.atEnd = true :=
      List.isEmpty_iff.mpr hAhead
    rw [hEnd]
    exact .pure result
  rcases hComplete (.ofText text) rfl with ⟨cursor, hRun, _⟩
  exact whole_eq_ok_iff.mpr ⟨cursor, hRun⟩

/- The result of a whole text is that of the action. -/
theorem of_whole_eq_ok
    {p : α → Prop}
    (hAction :
      OnlyTakes id action text.toList fun result _ =>
        p result)
    (hWhole : whole action atRest text = .ok result) :
    p result := by
  have hComplete :
      OnlyTakes id (toEnd action atRest) text.toList
        fun result _ => p result :=
    hAction.bind fun _ _ hResult =>
      .after fun _ _ =>
        .after fun _ _ =>
          .ite (fun _ => .pure hResult) fun _ =>
            .after fun _ _ => .pure hResult
  rcases whole_eq_ok_iff.mp hWhole with ⟨cursor, hRun⟩
  exact hComplete.of_ok (by rfl) hRun

end Scan

namespace Shape

------------------------------------------------------------
-- The Notation in Parts
------------------------------------------------------------

/- Read what belongs to a type after its first word. -/
def scanNamed
    (depth : Nat)
    (name : String) : Scan Shape :=
  match name with
  | "" => Scan.unexpectedNext .typeName
  | "Vec" => do
      expect '<'
      let item ← scan depth
      expect '>'
      return slice item
  | "Box" => do
      expect '<'
      let inner ← scan depth
      expect '>'
      return pointer inner
  | "HashMap" | "BTreeMap" | "Map" => do
      expect '<'
      let key ← scan depth
      expect ','
      let value ← scan depth
      expect '>'
      return map key value
  | "map" => do
      expect '['
      let key ← scan depth
      expect ']'
      return map key (← scan depth)
  | name => return (ofName? name).getD (struct name)

/- Read a slice whose first bracket has been passed. -/
def scanBracketed
    (depth : Nat) : Scan Shape := do
  if ← Scan.eat ']' then
    return slice (← scan depth)
  else
    let item ← scan depth
    expect ']'
    return slice item

/- Read a type by the character with which it begins. -/
def scanAt
    (depth : Nat) : Option Char → Scan Shape
  | some '&' | some '*' => do
      Scan.skip
      skipMutable
      return pointer (← scan depth)
  | some '[' => do
      Scan.skip
      scanBracketed depth
  | _ => do
      scanNamed depth (String.ofList (← Scan.word))

theorem scan_succ
    (depth : Nat) :
    scan (depth + 1) = (do
      Scan.skipBlanks
      scanAt depth (← Scan.peek)) :=
  rfl

------------------------------------------------------------
-- Words and Signs
------------------------------------------------------------

/- The text does not go on with a word. -/
def EndsWord
    (text : List Char) : Prop :=
  ∀ c, text.head? = some c → Text.isWordChar c = false

theorem EndsWord.append
    {text front : List Char}
    (hText : EndsWord text)
    (hFront : Text.Blank front) :
    EndsWord (front ++ text) := by
  cases front with
  | nil => exact hText
  | cons blank front =>
      rintro _ ⟨⟩
      exact Text.isWordChar_of_isBlank
        (hFront blank List.mem_cons_self)

/- The characters that stand between types. -/
def signs : List Char :=
  ['&', '*'] ++ ['<', '>', '[', ']', ',']

theorem isBlank_of_sign
    {c : Char}
    (hSign : c ∈ signs) :
    Text.isBlank c = false := by
  revert c
  decide

theorem endsWord_of_sign
    {c : Char}
    (hSign : c ∈ signs)
    (rest : List Char) :
    EndsWord (c :: rest) := by
  have hOther : ∀ c ∈ signs, Text.isWordChar c = false := by
    decide
  rintro _ ⟨⟩
  exact hOther c hSign

/- Blanks, and the sign that has to come then. -/
theorem takes_expect
    {c : Char}
    (hSign : c ∈ signs)
    {gap : List Char}
    (hGap : Text.Blank gap)
    (rest : List Char) :
    Scan.Takes (expect c) (gap ++ c :: rest) () rest := by
  have hStart :
      Text.trimStart (gap ++ c :: rest) = c :: rest := by
    rw [Text.trimStart_append_of_blank hGap,
      Text.trimStart_cons (isBlank_of_sign hSign)]
  unfold expect
  refine .bind .skipBlanks ?_
  rw [hStart]
  exact .bind .eat (.pure ())

/- The word `mut` is passed, if it is one. -/
theorem takes_skipMutable
    {blank : Char}
    (hBlank : Text.isBlank blank = true)
    (rest : List Char) :
    Scan.Takes skipMutable
      ('m' :: 'u' :: 't' :: blank :: rest) ()
      (blank :: rest) := by
  unfold skipMutable
  refine .get fun cursor hAhead => ?_
  rw [hAhead]
  simp only [hBlank, if_true]
  exact .bind .skip (.bind .skip .skip)

theorem takes_skipMutable_of_begins
    {text : List Char}
    (hText : Begins text) :
    Scan.Takes skipMutable text () text := by
  rcases hText with ⟨c, d, rest, rfl, _, hWord⟩
  unfold skipMutable
  refine .get fun cursor hAhead => ?_
  rw [hAhead]
  split
  · rename_i hMutable
    cases hMutable
    exact absurd rfl (hWord rfl)
  · exact .pure ()

/- Blanks in front of a type are passed over. -/
theorem takes_scan_of_trimStart
    {depth : Nat}
    {shape : Shape}
    {before after : List Char}
    (hTakes :
      Scan.Takes (scan depth) (Text.trimStart before) shape
        after) :
    Scan.Takes (scan depth) before shape after := by
  cases depth with
  | zero =>
      intro cursor _
      rcases hTakes (.ofChars (Text.trimStart before)) rfl
        with ⟨_, hRun, _⟩
      cases hRun
  | succ depth =>
      rw [scan_succ] at hTakes ⊢
      exact .of_trimStart hTakes

theorem takes_scan_of_visible
    {depth : Nat}
    {shape : Shape}
    {c : Char}
    {rest after : List Char}
    (hVisible : Text.isBlank c = false)
    (hTakes :
      Scan.Takes (scanAt depth (some c)) (c :: rest) shape
        after) :
    Scan.Takes (scan (depth + 1))
      (Text.trimStart (c :: rest)) shape after := by
  rw [scan_succ, Text.trimStart_cons hVisible]
  refine .bind .skipBlanks ?_
  rw [Text.trimStart_cons hVisible]
  exact .bind .peek hTakes

------------------------------------------------------------
-- Words
------------------------------------------------------------

/- A text that can be read as one word. -/
def IsWord
    (name : String) : Prop :=
  name ≠ "" ∧ ∀ c ∈ name.toList, Text.isWordChar c = true

theorem scanAt_of_isWordChar
    {c : Char}
    (hWord : Text.isWordChar c = true)
    (depth : Nat) :
    scanAt depth (some c) = (do
      scanNamed depth (String.ofList (← Scan.word))) := by
  unfold scanAt
  split
  case h_4 => rfl
  all_goals
    rename_i hSign
    cases hSign
    cases hWord

theorem takes_scan_word
    {depth : Nat}
    {shape : Shape}
    {name : String}
    {rest after : List Char}
    (hName : IsWord name)
    (hRest : EndsWord rest)
    (hTakes :
      Scan.Takes (scanNamed depth name) rest shape after) :
    Scan.Takes (scan (depth + 1))
      (Text.trimStart (name.toList ++ rest)) shape after := by
  rcases hName with ⟨hNonempty, hWord⟩
  rcases List.exists_cons_of_ne_nil
      (mt String.toList_eq_nil_iff.mp hNonempty) with
    ⟨c, later, hText⟩
  have hFirst : Text.isWordChar c = true := by
    apply hWord
    rw [hText]
    exact List.mem_cons_self
  have hVisible : Text.isBlank c = false := by
    rw [← Bool.not_eq_true]
    intro hBlank
    rw [Text.isWordChar_of_isBlank hBlank] at hFirst
    cases hFirst
  have hNamed :
      Scan.Takes (scanAt depth (some c)) (name.toList ++ rest)
        shape after := by
    rw [scanAt_of_isWordChar hFirst]
    refine .bind (.takeWhile_append hWord hRest) ?_
    rw [String.ofList_toList]
    exact hTakes
  rw [hText] at hNamed ⊢
  exact takes_scan_of_visible hVisible hNamed

/- Names are words, but not such that begin another form. -/
theorem Named.isWord
    {shape : Shape}
    {name : String}
    (hName : Named shape name) :
    IsWord name :=
  hName.of_forall (p := fun _ name => IsWord name)
    (by unfold IsWord; decide +kernel)

/- The words with which other types than names begin. -/
def keywords : List String :=
  ["Vec", "Box", "HashMap", "BTreeMap", "Map", "map"]

theorem isWord_of_keyword
    {name : String}
    (hName : name ∈ keywords) :
    IsWord name := by
  revert name
  unfold IsWord
  decide

theorem scanNamed_of_not_mem
    {name : String}
    (hWord : IsWord name)
    (hName : name ∉ keywords)
    (depth : Nat) :
    scanNamed depth name =
      pure ((ofName? name).getD (struct name)) := by
  unfold scanNamed
  split
  case h_1 => exact absurd rfl hWord.1
  case h_8 => rfl
  all_goals exact absurd (by decide) hName

/- Of the types that a word denotes, channels are left out. -/
theorem named_iff
    {shape : Shape}
    {name : String} :
    Named shape name ↔
      ofName? name = some shape ∧ shape ≠ channel := by
  constructor
  · intro hName
    exact hName.of_forall
      (p := fun shape name =>
        ofName? name = some shape ∧ shape ≠ channel)
      (by decide)
  · rintro ⟨hName, hOther⟩
    unfold ofName? at hName
    split at hName
    all_goals cases hName
    all_goals first
      | exact absurd rfl hOther
      | unfold Named
        decide

theorem Named.scanNamed_eq
    {shape : Shape}
    {name : String}
    (hName : Named shape name)
    (depth : Nat) :
    scanNamed depth name = pure shape := by
  have hOther : name ∉ keywords :=
    hName.of_forall (p := fun _ name => name ∉ keywords)
      (by decide)
  rw [scanNamed_of_not_mem hName.isWord hOther,
    (named_iff.mp hName).1]
  rfl

------------------------------------------------------------
-- Spellings
------------------------------------------------------------

/-
  With the text ahead the action finds the shape, wherever no
  word goes on. Blanks behind the type may be left.
-/
def Finds
    (action : Scan Shape)
    (text : List Char)
    (shape : Shape) : Prop :=
  ∀ rest,
    EndsWord rest →
      ∃ gap,
        Text.Blank gap ∧
          Scan.Takes action (text ++ rest) shape (gap ++ rest)

/-
  The text is read as the shape at every sufficient depth,
  with or without the blanks in front.
-/
def ReadAs
    (shape : Shape)
    (text : List Char) : Prop :=
  ∀ depth rest,
    text.length < depth →
      EndsWord rest →
        ∃ gap,
          Text.Blank gap ∧
            Scan.Takes (scan depth)
              (Text.trimStart (text ++ rest)) shape
              (gap ++ rest)

namespace ReadAs

variable {shape : Shape}
variable {text : List Char}

/- Blanks in front are passed over, those behind are left. -/
theorem padded
    {front back : List Char}
    (hText : ReadAs shape text)
    (hFront : Text.Blank front)
    (hBack : Text.Blank back) :
    ReadAs shape (front ++ (text ++ back)) := by
  intro depth rest hDepth hRest
  rw [List.length_append, List.length_append] at hDepth
  rcases hText depth (back ++ rest) (by omega)
      (hRest.append hBack) with
    ⟨gap, hGap, hTakes⟩
  refine ⟨gap ++ back,
    List.forall_mem_append.mpr ⟨hGap, hBack⟩, ?_⟩
  rw [List.append_assoc, List.append_assoc, List.append_assoc,
    Text.trimStart_append_of_blank hFront]
  exact hTakes

theorem finds
    (hText : ReadAs shape text)
    {depth : Nat}
    (hDepth : text.length < depth) :
    Finds (scan depth) text shape := by
  intro rest hRest
  rcases hText depth rest hDepth hRest with
    ⟨gap, hGap, hTakes⟩
  exact ⟨gap, hGap, takes_scan_of_trimStart hTakes⟩

/- A type is read, and the sign that comes next is found. -/
theorem takes_expect
    (hText : ReadAs shape text)
    {depth : Nat}
    (hDepth : text.length < depth)
    {c : Char}
    (hSign : c ∈ signs)
    (rest : List Char) :
    ∃ middle,
      Scan.Takes (scan depth) (text ++ c :: rest) shape
          middle ∧
        Scan.Takes (expect c) middle () rest := by
  rcases hText.finds hDepth (c :: rest)
      (endsWord_of_sign hSign rest) with
    ⟨gap, hGap, hTakes⟩
  exact ⟨gap ++ c :: rest, hTakes,
    Shape.takes_expect hSign hGap rest⟩

/- A type that begins with a word, by what comes after it. -/
theorem of_word
    {name : String}
    (hName : IsWord name)
    (hText : ∀ rest, EndsWord rest → EndsWord (text ++ rest))
    (hFinds : ∀ depth,
      text.length < depth →
        Finds (scanNamed depth name) text shape) :
    ReadAs shape (name.toList ++ text) := by
  intro depth rest hDepth hRest
  have hLength : name.toList.length ≠ 0 :=
    mt List.eq_nil_of_length_eq_zero
      (mt String.toList_eq_nil_iff.mp hName.1)
  rw [List.length_append] at hDepth
  cases depth with
  | zero => omega
  | succ depth =>
      rcases hFinds depth (by omega) rest hRest with
        ⟨gap, hGap, hTakes⟩
      refine ⟨gap, hGap, ?_⟩
      rw [List.append_assoc]
      exact takes_scan_word hName (hText rest hRest) hTakes

/- A type that begins with a sign. -/
theorem of_sign
    {sign : Char}
    (hSign : sign ∈ signs)
    (hFinds : ∀ depth,
      text.length < depth →
        Finds (scanAt depth (some sign)) (sign :: text)
          shape) :
    ReadAs shape (sign :: text) := by
  intro depth rest hDepth hRest
  rw [List.length_cons] at hDepth
  cases depth with
  | zero => omega
  | succ depth =>
      rcases hFinds depth (by omega) rest hRest with
        ⟨gap, hGap, hTakes⟩
      exact ⟨gap, hGap,
        takes_scan_of_visible (isBlank_of_sign hSign) hTakes⟩

end ReadAs

------------------------------------------------------------
-- The Forms of Types
------------------------------------------------------------

section Forms

variable {item key value inner : Shape}
variable {gap text first second : List Char}
variable {depth : Nat}

theorem readAs_name
    {shape : Shape}
    {name : String}
    (hName : Named shape name) :
    ReadAs shape name.toList := by
  rw [← List.append_nil name.toList]
  refine .of_word hName.isWord (fun _ => id) ?_
  intro depth _ rest _
  rw [hName.scanNamed_eq]
  exact ⟨[], nofun, .pure shape⟩

/- A sign behind blanks ends a word. -/
theorem endsWord_gap
    {c : Char}
    (hSign : c ∈ signs)
    (hGap : Text.Blank gap)
    (text rest : List Char) :
    EndsWord (gap ++ c :: text ++ rest) := by
  rw [List.append_assoc]
  exact EndsWord.append (endsWord_of_sign hSign _) hGap

/- A word, and one type between angle brackets. -/
theorem readAs_angled
    {name : String}
    (change : Shape → Shape)
    (hName : IsWord name)
    (hNamed : ∀ depth,
      scanNamed depth name = (do
        expect '<'
        let item ← scan depth
        expect '>'
        return change item))
    (hGap : Text.Blank gap)
    (hItem : ReadAs item text) :
    ReadAs (change item)
      (name.toList ++ (gap ++ '<' :: (text ++ ['>']))) := by
  refine .of_word hName
    (fun rest _ => endsWord_gap (by decide) hGap _ rest) ?_
  intro depth hDepth rest _
  have hLess : text.length < depth := by
    simp at hDepth
    omega
  rcases hItem.takes_expect hLess (c := '>') (by decide)
      rest with
    ⟨middle, hScan, hClosing⟩
  refine ⟨[], nofun, ?_⟩
  rw [hNamed]
  simp only [List.append_assoc, List.cons_append,
    List.nil_append]
  exact .bind (takes_expect (by decide) hGap _)
    (.bind hScan (.bind hClosing (.pure _)))

theorem readAs_angledMap
    {name : String}
    (hName : name ∈ ["HashMap", "BTreeMap", "Map"])
    (hGap : Text.Blank gap)
    (hKey : ReadAs key first)
    (hValue : ReadAs value second) :
    ReadAs (map key value)
      (name.toList ++
        (gap ++
          '<' :: (first ++ ',' :: (second ++ ['>'])))) := by
  have hKeyword :
      ∀ name ∈ ["HashMap", "BTreeMap", "Map"],
        name ∈ keywords := by
    decide
  refine .of_word (isWord_of_keyword (hKeyword name hName))
    (fun rest _ => endsWord_gap (by decide) hGap _ rest) ?_
  intro depth hDepth rest _
  have hDepths :
      first.length < depth ∧ second.length < depth := by
    simp at hDepth
    omega
  rcases hValue.takes_expect hDepths.2 (c := '>') (by decide)
      rest with
    ⟨last, hSecond, hEnd⟩
  rcases hKey.takes_expect hDepths.1 (c := ',') (by decide)
      (second ++ '>' :: rest) with
    ⟨middle, hFirst, hComma⟩
  have hNamed :
      scanNamed depth name = (do
        expect '<'
        let key ← scan depth
        expect ','
        let value ← scan depth
        expect '>'
        return map key value) := by
    simp only [List.mem_cons, List.not_mem_nil, or_false]
      at hName
    rcases hName with rfl | rfl | rfl <;> rfl
  refine ⟨[], nofun, ?_⟩
  rw [hNamed]
  simp only [List.append_assoc, List.cons_append,
    List.nil_append]
  exact .bind (takes_expect (by decide) hGap _)
    (.bind hFirst (.bind hComma
      (.bind hSecond (.bind hEnd (.pure _)))))

theorem readAs_bracketMap
    (hGap : Text.Blank gap)
    (hKey : ReadAs key first)
    (hValue : ReadAs value second) :
    ReadAs (map key value)
      ("map".toList ++
        (gap ++ '[' :: (first ++ ']' :: second))) := by
  refine .of_word (isWord_of_keyword (by decide))
    (fun rest _ => endsWord_gap (by decide) hGap _ rest) ?_
  intro depth hDepth rest hRest
  have hDepths :
      first.length < depth ∧ second.length < depth := by
    simp at hDepth
    omega
  rcases hKey.takes_expect hDepths.1 (c := ']') (by decide)
      (second ++ rest) with
    ⟨middle, hFirst, hClosing⟩
  rcases hValue.finds hDepths.2 rest hRest with
    ⟨back, hBack, hSecond⟩
  refine ⟨back, hBack, ?_⟩
  simp only [List.append_assoc, List.cons_append]
  exact .bind (takes_expect (by decide) hGap _)
    (.bind hFirst (.bind hClosing (.bind hSecond (.pure _))))

theorem readAs_bracketed
    (hStart : Begins text)
    (hItem : ReadAs item text) :
    ReadAs (slice item) ('[' :: (text ++ [']'])) := by
  refine .of_sign (by decide) ?_
  intro depth hDepth rest _
  have hLess : text.length < depth := by
    simp at hDepth
    omega
  rcases hItem.takes_expect hLess (c := ']') (by decide)
      rest with
    ⟨middle, hScan, hClosing⟩
  rcases hStart with ⟨c, d, later, rfl, hOther, _⟩
  refine ⟨[], nofun, ?_⟩
  simp only [List.append_assoc, List.cons_append,
    List.nil_append] at hScan ⊢
  have hNone :
      (c :: d :: (later ++ ']' :: rest)).head? ≠ some ']' := by
    rintro ⟨⟩
    exact hOther rfl
  exact .bind .skip (.bind (.eat_other hNone)
    (.bind hScan (.bind hClosing (.pure _))))

theorem readAs_brackets
    (hItem : ReadAs item text) :
    ReadAs (slice item) ('[' :: ']' :: text) := by
  refine .of_sign (by decide) ?_
  intro depth hDepth rest hRest
  have hLess : text.length < depth := by
    simp at hDepth
    omega
  rcases hItem.finds hLess rest hRest with
    ⟨back, hBack, hScan⟩
  exact ⟨back, hBack,
    .bind .skip (.bind .eat (.bind hScan (.pure _)))⟩

/- After the sign of a pointer, `mut` may come. -/
theorem finds_pointer
    {sign : Char}
    {word : List Char}
    (hSign : sign ∈ ['&', '*'])
    (hWord : ∀ rest,
      Scan.Takes skipMutable (word ++ rest) () (text ++ rest))
    (hInner : ReadAs inner text)
    (hDepth : text.length < depth) :
    Finds (scanAt depth (some sign)) (sign :: word)
      (pointer inner) := by
  have hScanAt :
      scanAt depth (some sign) = (do
        Scan.skip
        skipMutable
        return pointer (← scan depth)) := by
    simp only [List.mem_cons, List.not_mem_nil, or_false]
      at hSign
    rcases hSign with rfl | rfl <;> rfl
  intro rest hRest
  rcases hInner.finds hDepth rest hRest with
    ⟨back, hBack, hScan⟩
  refine ⟨back, hBack, ?_⟩
  rw [hScanAt]
  exact .bind .skip
    (.bind (hWord rest) (.bind hScan (.pure _)))

theorem readAs_pointer
    {sign : Char}
    (hSign : sign ∈ ['&', '*'])
    (hStart : Begins text)
    (hInner : ReadAs inner text) :
    ReadAs (pointer inner) (sign :: text) := by
  refine .of_sign (List.mem_append_left _ hSign) ?_
  intro depth hDepth
  exact finds_pointer hSign
    (fun rest =>
      takes_skipMutable_of_begins (hStart.append rest))
    hInner hDepth

/- The blank behind `mut` is left to the type that follows. -/
theorem readAs_mutable
    {sign blank : Char}
    (hSign : sign ∈ ['&', '*'])
    (hBlank : Text.isBlank blank = true)
    (hInner : ReadAs inner text) :
    ReadAs (pointer inner)
      (sign :: 'm' :: 'u' :: 't' :: blank :: text) := by
  have hPadded : ReadAs inner (blank :: text) := by
    have hFront : Text.Blank [blank] :=
      List.forall_mem_singleton.mpr hBlank
    have hBack : Text.Blank [] := nofun
    have hText := hInner.padded hFront hBack
    rwa [List.append_nil] at hText
  have hWord
      (rest : List Char) :
      Scan.Takes skipMutable
        ('m' :: 'u' :: 't' :: blank :: text ++ rest) ()
        (blank :: text ++ rest) :=
    takes_skipMutable hBlank (text ++ rest)
  refine .of_sign (List.mem_append_left _ hSign) ?_
  intro depth hDepth
  refine finds_pointer hSign hWord hPadded ?_
  simp at hDepth ⊢
  omega

end Forms

/- A spelling of a shape is read as that shape. -/
theorem Spells.readAs
    {shape : Shape}
    {text : List Char}
    (hText : Spells shape text) :
    ReadAs shape text := by
  induction hText with
  | padded _ hFront hBack ih => exact ih.padded hFront hBack
  | name hName => exact readAs_name hName
  | vec hGap _ ih =>
      exact readAs_angled .slice (isWord_of_keyword (by decide))
        (fun _ => rfl) hGap ih
  | bracketed hItem ih => exact readAs_bracketed hItem.begins ih
  | brackets _ ih => exact readAs_brackets ih
  | angledMap hName hGap _ _ ihKey ihValue =>
      exact readAs_angledMap hName hGap ihKey ihValue
  | bracketMap hGap _ _ ihKey ihValue =>
      exact readAs_bracketMap hGap ihKey ihValue
  | box hGap _ ih =>
      exact readAs_angled .pointer (isWord_of_keyword (by decide))
        (fun _ => rfl) hGap ih
  | pointer hSign hInner ih =>
      exact readAs_pointer hSign hInner.begins ih
  | mutable hSign hBlank _ ih =>
      exact readAs_mutable hSign hBlank ih

------------------------------------------------------------
-- What Is Read
------------------------------------------------------------

/- Words denote types that are not put together. -/
theorem denotable_word
    (name : String) :
    ((ofName? name).getD (struct name)).BuiltFrom
      Denotable := by
  cases hShape : ofName? name with
  | none => exact trivial
  | some shape =>
      by_cases hChannel : shape = channel
      · subst hChannel
        exact trivial
      · have hName : Named shape name :=
          named_iff.mpr ⟨hShape, hChannel⟩
        exact hName.of_forall
          (p := fun shape _ => shape.BuiltFrom Denotable)
          (by simp [names, BuiltFrom, Denotable, Elementary])

section Denotable

variable {depth : Nat}
variable (hScan : ∀ before,
  OnlyTakes id (scan depth) before fun shape _ =>
    shape.BuiltFrom Denotable)

include hScan

theorem scanNamed_denotable
    (name : String)
    (before : List Char) :
    OnlyTakes id (scanNamed depth name) before
      fun shape _ => shape.BuiltFrom Denotable := by
  unfold scanNamed
  split
  case h_1 =>
      exact .after fun _ _ => .after fun _ _ => .wrong _ _ _
  case h_2 =>
      exact .after fun _ _ =>
        (hScan _).bind fun _ _ hItem =>
          .after fun _ _ => .pure hItem
  case h_3 =>
      exact .after fun _ _ =>
        (hScan _).bind fun _ _ hInner =>
          .after fun _ _ => .pure hInner
  case h_7 =>
      exact .after fun _ _ =>
        (hScan _).bind fun _ _ hKey =>
          .after fun _ _ =>
            (hScan _).bind fun _ _ hValue =>
              .pure ⟨hKey, hValue⟩
  case h_8 => exact .pure (denotable_word _)
  all_goals
    exact .after fun _ _ =>
      (hScan _).bind fun _ _ hKey =>
        .after fun _ _ =>
          (hScan _).bind fun _ _ hValue =>
            .after fun _ _ => .pure ⟨hKey, hValue⟩

theorem scanBracketed_denotable
    (before : List Char) :
    OnlyTakes id (scanBracketed depth) before
      fun shape _ => shape.BuiltFrom Denotable := by
  refine .after fun eaten after => .ite (fun _ => ?_) fun _ => ?_
  · exact (hScan _).bind fun _ _ hItem => .pure hItem
  · exact (hScan _).bind fun _ _ hItem =>
      .after fun _ _ => .pure hItem

theorem scanAt_denotable
    (first : Option Char)
    (before : List Char) :
    OnlyTakes id (scanAt depth first) before
      fun shape _ => shape.BuiltFrom Denotable := by
  unfold scanAt
  split
  case h_3 =>
      exact .after fun _ _ => scanBracketed_denotable hScan _
  case h_4 =>
      exact .after fun _ _ => scanNamed_denotable hScan _ _
  all_goals
    exact .after fun _ _ =>
      .after fun _ _ =>
        (hScan _).bind fun _ _ hInner => .pure hInner

end Denotable

/- Whatever is read is put together from what words denote. -/
theorem scan_denotable
    (depth : Nat) :
    ∀ before,
      OnlyTakes id (scan depth) before fun shape _ =>
        shape.BuiltFrom Denotable := by
  induction depth with
  | zero => exact fun before => .throw _
  | succ depth ih =>
      intro before
      exact .after fun _ _ =>
        .after fun _ _ => scanAt_denotable ih _ _

------------------------------------------------------------
-- Whole Texts
------------------------------------------------------------

theorem ofText_of_spells
    {shape : Shape}
    {text : String}
    (hText : Spells shape text.toList) :
    ofText text = .ok shape := by
  have hEnd : EndsWord [] := nofun
  have hDepth : text.toList.length < text.length + 1 :=
    Nat.lt_succ_self _
  rcases hText.readAs.finds hDepth [] hEnd with
    ⟨gap, hGap, hTakes⟩
  rw [List.append_nil, List.append_nil] at hTakes
  exact Scan.whole_eq_ok_of_takes hGap hTakes

theorem denotable_of_ofText
    {shape : Shape}
    {text : String}
    (hText : ofText text = .ok shape) :
    shape.BuiltFrom Denotable :=
  Scan.of_whole_eq_ok (scan_denotable _ text.toList) hText

/-
  Every spelling of a type is read as that type. The written
  form of a type is among them, if the type is put together
  from elementary ones, as are all types that can be read and
  have a descriptor.
-/
theorem ofText_spelling
    (shape : Shape) :
    (∀ text : String,
      Spells shape text.toList → ofText text = .ok shape) ∧
      (shape.BuiltFrom Elementary →
        ofText shape.text = .ok shape) ∧
      ∀ text descriptor,
        ofText text = .ok shape →
          Descriptor.ofShape shape = .ok descriptor →
            ofText shape.text = .ok shape := by
  refine ⟨fun text => ofText_of_spells, ?_, ?_⟩
  · intro hShape
    exact ofText_of_spells (spells_text hShape)
  · intro text descriptor hText hClassified
    have hShape :=
      builtFrom_elementary_of_ofShape hClassified
        (denotable_of_ofText hText)
    exact ofText_of_spells (spells_text hShape)

/- Both styles in one text, and the written form of its type. -/
theorem ofText_spelling_mixed :
    Spells (map string (slice (pointer (signed 32))))
        "map [ str ]Vec<*mut\trune >".toList ∧
      ofText "map [ str ]Vec<*mut\trune >" =
        .ok (map string (slice (pointer (signed 32)))) ∧
      ofText "Map<String, Vec<&i32>>" =
        .ok (map string (slice (pointer (signed 32)))) := by
  have hBlank : Text.Blank [' '] := by
    unfold Text.Blank
    decide
  have hEmpty : Text.Blank [] := nofun
  have hName : Named string "str" := by
    unfold Named
    decide
  have hRune : Named (signed 32) "rune" := by
    unfold Named
    decide
  have hKey := (Spells.name hName).padded hBlank hBlank
  have hInner := (Spells.name hRune).padded hEmpty hBlank
  have hPointer :
      Spells (pointer (signed 32)) "*mut\trune ".toList :=
    .mutable (by decide) (by decide) hInner
  have hText :
      Spells (map string (slice (pointer (signed 32))))
        "map [ str ]Vec<*mut\trune >".toList :=
    .bracketMap hBlank hKey (.vec hEmpty hPointer)
  have hClassified :
      Descriptor.ofShape
          (map string (slice (pointer (signed 32)))) =
        .ok (.nested .map (.nested .slice (.plain .signed))) :=
    by decide
  rcases
      ofText_spelling
        (map string (slice (pointer (signed 32)))) with
    ⟨hSpelled, _, hKnown⟩
  have hRead := hSpelled _ hText
  exact ⟨hText, hRead, hKnown _ _ hRead hClassified⟩

end Shape

end Marginalia
