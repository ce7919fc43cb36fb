import Marginalia.Proofs.Literal.Probed
import Marginalia.Proofs.Literal.Progress
import Marginalia.Proofs.Literal.Tokens

/-
  Groups are read element by element, whatever follows them.

  Key definitions include:
    * `Literal.Opens`
    * `Literal.Begins`
    * `Fill.ReadsElements`
    * `Fill.OnlyReads`

  Main statements:
    * `Fill.takes_group`
    * `Fill.onlyTakes_group`
-/

namespace Marginalia

variable {δ : Type}

------------------------------------------------------------
-- Groups
------------------------------------------------------------

namespace Literal

/-
  A text may be an element of a group: its first character
  that is not blank does not close the group.
-/
def Opens
    (text : List Char) : Prop :=
  ∃ c rest, Text.trimStart text = c :: rest ∧ c ≠ '}'

theorem Opens.trimStart_append
    {text : List Char}
    (hText : Opens text)
    (rest : List Char) :
    Text.trimStart (text ++ rest) =
      Text.trimStart text ++ rest := by
  rcases hText with ⟨c, tail, hTrim, _⟩
  apply Text.trimStart_append_of_ne_nil
  rw [hTrim]
  exact List.cons_ne_nil c tail

theorem opens_of_head
    {text : List Char}
    {c : Char}
    (hHead : text.head? = some c)
    (hVisible : Text.isBlank c = false)
    (hOther : c ≠ '}') :
    Opens text := by
  cases text with
  | nil => cases hHead
  | cons d tail =>
      cases hHead
      exact ⟨c, tail, Text.trimStart_cons hVisible tail,
        hOther⟩

/- The first character is the same, whatever follows. -/
theorem Opens.exists_head
    {text : List Char}
    (hText : Opens text) :
    ∃ c, c ≠ '}' ∧
      ∀ rest,
        (Text.trimStart (text ++ rest)).head? = some c := by
  have hSplit := hText.trimStart_append
  rcases hText with ⟨c, tail, hTrim, hOther⟩
  refine ⟨c, hOther, fun rest => ?_⟩
  rw [hSplit, hTrim]
  rfl

/-
  A text has something to read: its first character that is
  not blank ends nothing.
-/
def Begins
    (text : List Char) : Prop :=
  ∃ c rest,
    Text.trimStart text = c :: rest ∧
      c ∉ Scan.delimiters

theorem Begins.opens
    {text : List Char}
    (hText : Begins text) :
    Opens text := by
  rcases hText with ⟨c, rest, hTrim, hBegins⟩
  refine ⟨c, rest, hTrim, ?_⟩
  rintro rfl
  exact hBegins (by decide)

theorem exists_elementsText_cons
    (rest text : List Char)
    (texts : List (List Char)) :
    ∃ tail,
      elementsText rest (text :: texts) = text ++ tail := by
  cases texts with
  | nil => exact ⟨_, rfl⟩
  | cons next texts => exact ⟨_, rfl⟩

/- A group with an element is not closed where it opens. -/
theorem Opens.head_elementsText_ne
    {text : List Char}
    (hText : Opens text)
    (rest : List Char)
    (texts : List (List Char)) :
    (Text.trimStart
      (elementsText rest (text :: texts))).head? ≠
        some '}' := by
  rcases exists_elementsText_cons rest text texts with
    ⟨tail, hTail⟩
  rcases hText.exists_head with ⟨c, hOther, hHead⟩
  rw [hTail, hHead]
  rintro ⟨⟩
  exact hOther rfl

/- The stops after an element of a group. -/
def elementStops : List Char :=
  [',', '}']

/-
  The stops after an item, by where it stands: in a run, a
  semicolon may follow.
-/
def itemStops : Frame → List Char
  | .run => Scan.delimiters
  | _ => elementStops

/- All of them stop bare texts. -/
theorem StopsAt.delimiters
    {frame : Frame}
    {rest : List Char}
    (hRest : StopsAt (itemStops frame) rest) :
    StopsAt Scan.delimiters rest := by
  have hStops :
      ∀ c ∈ itemStops frame, c ∈ Scan.delimiters := by
    cases frame <;> decide
  intro c hHead
  exact hStops c (hRest c hHead)

theorem isBlank_elementStop
    {stop : Char}
    (hStop : stop ∈ elementStops) :
    Text.isBlank stop = false := by
  have hStops :
      ∀ c ∈ elementStops, Text.isBlank c = false := by
    decide
  exact hStops stop hStop

theorem stopsAt_elementStop
    {stop : Char}
    (hStop : stop ∈ elementStops)
    (tail : List Char) :
    StopsAt elementStops (stop :: tail) := by
  unfold StopsAt
  rw [Text.trimStart_cons (isBlank_elementStop hStop)]
  rintro _ ⟨⟩
  exact hStop

end Literal

namespace Fill

open Literal

/-
  The element reads the text wherever it is followed by a
  stop, and it needs no more than the given characters ahead.
-/
def ReadsElement
    (element : Fill δ Unit)
    (bound : Nat)
    (text : List Char)
    (content content' : δ) : Prop :=
  ∀ rest,
    StopsAt elementStops rest →
      (Text.trimStart (text ++ rest)).length < bound →
        ∃ after,
          Fill.Takes element (Text.trimStart (text ++ rest))
              content () after content' ∧
            Text.trimStart after = Text.trimStart rest

/- The elements read the texts one after another. -/
inductive ReadsElements
    (element : Fill δ Unit)
    (bound : Nat) :
    List (List Char) → δ → δ → Prop
  | nil (content : δ) :
      ReadsElements element bound [] content content
  | cons
      {text : List Char}
      {texts : List (List Char)}
      {content content' content'' : δ}
      (hText : Opens text)
      (hFirst :
        ReadsElement element bound text content content')
      (hRest :
        ReadsElements element bound texts content'
          content'') :
      ReadsElements element bound (text :: texts) content
        content''

variable {element : Fill δ Unit}
variable {bound : Nat}
variable {content content' : δ}

/- After a comma there is another element. -/
theorem takes_closing_comma
    {after tail : List Char}
    (hAfter : Text.trimStart after = ',' :: tail)
    (start : Nat) :
    Fill.Takes (closing start) after content true tail
      content := by
  apply (Fill.Takes.lift .skipBlanks).bind
  rw [hAfter]
  apply (Fill.Takes.lift .peek).bind
  exact (Fill.Takes.lift .skip).bind (.pure true)

/- After the brace there is none. -/
theorem takes_closing_brace
    {after tail : List Char}
    (hAfter : Text.trimStart after = '}' :: tail)
    (start : Nat) :
    Fill.Takes (closing start) after content false tail
      content := by
  apply (Fill.Takes.lift .skipBlanks).bind
  rw [hAfter]
  apply (Fill.Takes.lift .peek).bind
  exact (Fill.Takes.lift .skip).bind (.pure false)

/- A round reads an element up to what follows it. -/
theorem takes_groupRound
    {text before tail : List Char}
    {stop : Char}
    {another : Bool}
    (hText : Opens text)
    (hElement :
      ReadsElement element bound text content content')
    (hStop : stop ∈ elementStops)
    (hClosing : ∀ after start,
      Text.trimStart after = stop :: tail →
        Fill.Takes (closing start) after content' another
          tail content')
    (hBefore :
      Text.trimStart before =
        Text.trimStart (text ++ stop :: tail))
    (hBound : before.length < bound)
    (start : Nat) :
    Fill.Takes (groupRound element start) before content
      another tail content' := by
  have hOther := isBlank_elementStop hStop
  have hTail := stopsAt_elementStop hStop tail
  have hLength :
      (Text.trimStart (text ++ stop :: tail)).length <
        bound := by
    have hTrim := Text.length_trimStart_le before
    rw [hBefore] at hTrim
    omega
  rcases hElement _ hTail hLength with
    ⟨after, hTakes, hAfter⟩
  rw [Text.trimStart_cons hOther] at hAfter
  apply (Fill.Takes.lift .skipBlanks).bind
  rw [hBefore]
  apply (Fill.Takes.lift .peek).bind
  rcases hText.exists_head with ⟨c, _, hHead⟩
  rw [hHead]
  exact hTakes.bind (hClosing after start hAfter)

/- The rounds of a group read its elements. -/
theorem takes_groupRounds
    {texts : List (List Char)}
    (hTexts :
      ReadsElements element bound texts content content')
    (hNonempty : texts ≠ [])
    (rest : List Char)
    (start : Nat) :
    ∀ before count,
      Text.trimStart before =
          Text.trimStart (elementsText rest texts) →
        before.length < bound →
          before.length ≤ count →
            Fill.Takes
              (rounds (groupRound element start) (count + 1))
              before content () rest content' := by
  induction hTexts with
  | nil => exact absurd rfl hNonempty
  | @cons text texts content content' content'' hText hFirst
      hRest ih =>
      intro before count hBefore hBound hCount
      cases texts with
      | nil =>
          cases hRest
          refine .done ?_
          exact takes_groupRound hText hFirst (by decide)
            (fun _ start hAfter =>
              takes_closing_brace hAfter start)
            hBefore hBound start
      | cons next texts =>
          have hShorter :
              (elementsText rest (next :: texts)).length <
                before.length := by
            have hTrim := Text.length_trimStart_le before
            have hFirst' :
                elementsText rest (text :: next :: texts) =
                  text ++ ',' ::
                    elementsText rest (next :: texts) :=
              rfl
            rw [hBefore, hFirst', hText.trimStart_append,
              List.length_append, List.length_cons] at hTrim
            omega
          have hRound :=
            takes_groupRound hText hFirst (by decide)
              (fun _ start hAfter =>
                takes_closing_comma hAfter start)
              hBefore hBound start
          cases count with
          | zero => omega
          | succ count =>
              refine .again hRound ?_
              exact ih (List.cons_ne_nil _ _) _ count rfl
                (by omega) (by omega)

/- A group reads its elements and nothing behind the brace. -/
theorem takes_group
    {texts : List (List Char)}
    {blanks : List Char}
    (hBlanks : Text.Blank blanks)
    (hTexts :
      ReadsElements element bound texts content content')
    (rest : List Char)
    (hBound :
      (groupText blanks texts ++ rest).length ≤ bound) :
    Fill.Takes (group element)
      (groupText blanks texts ++ rest) content () rest
      content' := by
  rw [groupText_append] at hBound ⊢
  rw [group_eq]
  refine .position fun start => ?_
  apply (Fill.Takes.lift .skip).bind
  apply (Fill.Takes.lift .skipBlanks).bind
  rw [Text.trimStart_append_of_blank hBlanks]
  have hLength := Text.length_trimStart_le
    (elementsText rest texts)
  rw [List.length_cons, List.length_append] at hBound
  cases hTexts with
  | nil =>
      exact (Fill.Takes.lift .eat).bind (.pure ())
  | @cons text texts _ content' _ hText hFirst hRest =>
      have hHead := hText.head_elementsText_ne rest texts
      apply (Fill.Takes.lift (.eat_other hHead)).bind
      refine .loopWhile ?_
      exact takes_groupRounds (.cons hText hFirst hRest)
        (List.cons_ne_nil _ _) rest start _ _
        (Text.trimStart_trimStart _) (by omega)
        (Nat.le_refl _)

------------------------------------------------------------
-- Elements That May Fail
------------------------------------------------------------

/-
  The element, if it is read at all, ends with the text, and
  then something holds of it.
-/
def OnlyReads
    (element : Fill δ Unit)
    (text : List Char)
    (holds : Prop) : Prop :=
  ∀ rest,
    StopsAt elementStops rest →
      OnlyTakes Prod.fst element
        (Text.trimStart (text ++ rest))
        fun _ after =>
          holds ∧ Text.trimStart after = Text.trimStart rest

theorem onlyTakes_groupRound
    {text before tail : List Char}
    {holds : Prop}
    {stop : Char}
    {another : Bool}
    (hText : Opens text)
    (hElement : OnlyReads element text holds)
    (hStop : stop ∈ elementStops)
    (hClosing : ∀ after start content,
      Text.trimStart after = stop :: tail →
        Fill.Takes (closing start) after content another
          tail (content : δ))
    (hBefore :
      Text.trimStart before =
        Text.trimStart (text ++ stop :: tail))
    (start : Nat) :
    OnlyTakes Prod.fst (groupRound element start) before
      fun again after =>
        again = another ∧ holds ∧ after = tail := by
  have hOther := isBlank_elementStop hStop
  have hTail := stopsAt_elementStop hStop tail
  rcases hText.exists_head with ⟨c, _, hHead⟩
  refine .takesFill .skipBlanks ?_
  rw [hBefore]
  refine .takesFill .peek ?_
  rw [hHead]
  refine .bind (hElement _ hTail) fun _ after hAfter => ?_
  rw [Text.trimStart_cons hOther] at hAfter
  exact .of_takesFill fun content =>
    ⟨another, tail, content,
      hClosing after start content hAfter.2, rfl, hAfter.1,
      rfl⟩

/-
  The rounds of a group pass all of its elements. Between two
  of them, the elements that have been read were as they
  should, and the others are ahead.
-/
theorem onlyTakes_groupRounds
    {first : List Char}
    {texts : List (List Char)}
    {before : List Char}
    {holds : List Char → Prop}
    (hTexts : ∀ text ∈ first :: texts,
      Opens text ∧ OnlyReads element text (holds text))
    (rest : List Char)
    (hBefore :
      Text.trimStart before =
        Text.trimStart (elementsText rest (first :: texts)))
    (start : Nat) :
    OnlyTakes Prod.fst (loopWhile (groupRound element start))
      before
      fun _ after =>
        (∀ text ∈ first :: texts, holds text) ∧
          after = rest := by
  refine .loopWhile
    (fun before =>
      ∃ passed text later,
        first :: texts = passed ++ text :: later ∧
          (∀ other ∈ passed, holds other) ∧
            Text.trimStart before =
              Text.trimStart
                (elementsText rest (text :: later)))
    ?_ ⟨[], first, texts, rfl, nofun, hBefore⟩
  rintro before ⟨passed, text, later, hSplit, hPassed,
    hBefore⟩
  have hMember : text ∈ first :: texts := by
    rw [hSplit]
    exact List.mem_append_right _ List.mem_cons_self
  rcases hTexts text hMember with ⟨hOpens, hReads⟩
  cases later with
  | nil =>
      refine (onlyTakes_groupRound hOpens hReads (by decide)
        (fun _ start _ hAfter =>
          takes_closing_brace hAfter start)
        hBefore start).imp ?_
      rintro _ _ ⟨rfl, hHolds, rfl⟩
      rw [if_neg Bool.false_ne_true, hSplit]
      refine ⟨?_, rfl⟩
      rw [List.forall_mem_append, List.forall_mem_cons]
      exact ⟨hPassed, hHolds, nofun⟩
  | cons next later =>
      refine (onlyTakes_groupRound hOpens hReads (by decide)
        (fun _ start _ hAfter =>
          takes_closing_comma hAfter start)
        hBefore start).imp ?_
      rintro _ _ ⟨rfl, hHolds, rfl⟩
      rw [if_pos rfl, hSplit]
      refine ⟨passed ++ [text], next, later, ?_, ?_, rfl⟩
      · rw [List.append_assoc]
        rfl
      · rw [List.forall_mem_append]
        exact ⟨hPassed, List.forall_mem_singleton.mpr hHolds⟩

/-
  If a group is read, then all of its elements are, and
  nothing behind the brace is.
-/
theorem onlyTakes_group
    {texts : List (List Char)}
    {blanks : List Char}
    {holds : List Char → Prop}
    (hBlanks : Text.Blank blanks)
    (hTexts : ∀ text ∈ texts,
      Opens text ∧ OnlyReads element text (holds text))
    (rest : List Char) :
    OnlyTakes Prod.fst (group element)
      (groupText blanks texts ++ rest)
      fun _ after =>
        (∀ text ∈ texts, holds text) ∧ after = rest := by
  rw [groupText_append, group_eq]
  refine .positionFill fun start => ?_
  refine .takesFill .skip (.takesFill .skipBlanks ?_)
  rw [Text.trimStart_append_of_blank hBlanks]
  cases texts with
  | nil => exact .takesFill .eat (.pure ⟨nofun, rfl⟩)
  | cons first texts =>
      have hHead :=
        (hTexts first List.mem_cons_self).1.head_elementsText_ne
          rest texts
      refine .takesFill (.eat_other hHead) ?_
      exact onlyTakes_groupRounds hTexts rest
        (Text.trimStart_trimStart _) start

end Fill

end Marginalia
