import Marginalia.Proofs.Marker.Refusals
import Marginalia.Proofs.Marker.Rounds

/-
  The head of a line that is accepted has exactly one of three
  forms: a name alone, a name with the value after it, or a
  name with that of the first argument. Only in the last one
  may the name of the marker be missing.

  Key definitions include:
    * `Marker.HeadForm`
    * `Marker.HeadForm.Describes`
    * `Marker.HasHead`
    * `Marker.Nameless`

  Main statements:
    * `Marker.exists_token_of_nameToken?`
    * `Marker.splitHead_cases`
    * `Marker.exists_describes_of_run`
    * `Marker.ofLine_head`
-/

namespace Marginalia

namespace Marker

open Literal

------------------------------------------------------------
-- Forms
------------------------------------------------------------

/- How the token of a head is divided into names. -/
inductive HeadForm where
  | flag
  | anonymous
  | named

/-
  A head with the token, and what follows the token, has the
  form and belongs to the marker. A flag has no arguments. The
  sign after the token announces the first one, which is the
  value, or is named behind the last colon.
-/
def HeadForm.Describes
    (registry : Registry)
    (token rest : List Char)
    (marker : Marker) : HeadForm → Prop
  | flag =>
      rest = [] ∧
        marker.name = String.ofList token ∧
          marker.arguments = Entries.empty
  | anonymous =>
      rest.head? = some '=' ∧
        marker.name = String.ofList token ∧
          ((registry.lookup? (String.ofList token)).isSome ∨
            ':' ∉ token) ∧
            (marker.arguments.get? valueName).isSome
  | named =>
      rest.head? = some '=' ∧
        registry.lookup? (String.ofList token) = none ∧
          ∃ argument,
            token =
                marker.name.toList ++ ':' :: argument.toList ∧
              argument ≠ "" ∧
                ':' ∉ argument.toList ∧
                  (marker.arguments.get? argument).isSome

/-
  The text of the marker is a plus sign, a token that is as
  long as can be, and the rest; the head has one form.
-/
structure HasHead
    (registry : Registry)
    (marker : Marker)
    (token rest : List Char) : Prop where
  text : marker.text.toList = '+' :: (token ++ rest)
  nonempty : token ≠ []
  name : ∀ c ∈ token, isNameChar c = true
  ends : ∀ c, rest.head? = some c → isNameChar c = false
  form : ∃! form : HeadForm,
    form.Describes registry token rest marker

/- The token leaves nothing for the name of the marker. -/
def Nameless
    (registry : Registry)
    (token : List Char) : Prop :=
  registry.lookup? (String.ofList token) = none ∧
    ∃ argument, token = ':' :: argument ∧ ':' ∉ argument

section Forms

variable {registry : Registry}
variable {token rest : List Char}
variable {marker : Marker}

/- The forms exclude each other. -/
theorem HeadForm.Describes.unique
    {form other : HeadForm}
    (hForm : form.Describes registry token rest marker)
    (hOther : other.Describes registry token rest marker) :
    form = other := by
  have hSign :
      rest = [] → rest.head? = some '=' → False := by
    rintro rfl ⟨⟩
  have hWhole :
      ((registry.lookup? (String.ofList token)).isSome ∨
          ':' ∉ token) →
        registry.lookup? (String.ofList token) = none →
          ∀ front back, token = front ++ ':' :: back →
            False := by
    rintro (hKnown | hColon) hFree front back hToken
    · rw [hFree] at hKnown
      cases hKnown
    · exact hColon (by simp [hToken])
  cases form with
  | flag =>
      cases other with
      | flag => rfl
      | anonymous | named =>
          exact (hSign hForm.1 hOther.1).elim
  | anonymous =>
      cases other with
      | flag => exact (hSign hOther.1 hForm.1).elim
      | anonymous => rfl
      | named =>
          rcases hOther with ⟨_, hFree, argument, hToken, _⟩
          exact (hWhole hForm.2.2.1 hFree _ _ hToken).elim
  | named =>
      rcases hForm with ⟨hEquals, hFree, argument, hToken, _⟩
      cases other with
      | flag => exact (hSign hOther.1 hEquals).elim
      | anonymous =>
          exact (hWhole hOther.2.2.1 hFree _ _ hToken).elim
      | named => rfl

/- A marker has no name if there is none in its token. -/
theorem HeadForm.Describes.name_eq_empty_iff
    {form : HeadForm}
    (hForm : form.Describes registry token rest marker)
    (hNonempty : token ≠ []) :
    marker.name = "" ↔
      rest ≠ [] ∧ Nameless registry token := by
  have hWhole : String.ofList token ≠ "" := by
    simpa using hNonempty
  cases form with
  | flag =>
      rcases hForm with ⟨hRest, hName, _⟩
      rw [hName]
      exact iff_of_false hWhole fun h => h.1 hRest
  | anonymous =>
      rcases hForm with ⟨_, hName, hKnown, _⟩
      rw [hName]
      refine iff_of_false hWhole ?_
      rintro ⟨_, hFree, argument, hToken, _⟩
      rcases hKnown with hKnown | hColon
      · rw [hFree] at hKnown
        cases hKnown
      · exact hColon (by simp [hToken])
  | named =>
      rcases hForm with
        ⟨hEquals, hFree, argument, hToken, _, hColon, _⟩
      constructor
      · intro hName
        rw [hName] at hToken
        refine ⟨?_, hFree, argument.toList, hToken, hColon⟩
        rintro rfl
        cases hEquals
      · rintro ⟨_, _, other, hOther, hNoColon⟩
        rw [hOther] at hToken
        rw [← String.toList_eq_nil_iff]
        cases hName : marker.name.toList with
        | nil => rfl
        | cons c name =>
            rw [hName] at hToken
            cases hToken
            simp at hNoColon

end Forms

------------------------------------------------------------
-- Tokens
------------------------------------------------------------

section Tokens

variable {registry : Registry}
variable {chars token : List Char}

/- A token is as long as it can be. -/
theorem exists_token_of_nameToken?
    (hToken : nameToken? chars = some token) :
    ∃ rest,
      chars = '+' :: (token ++ rest) ∧
        token ≠ [] ∧
          (∀ c ∈ token, isNameChar c = true) ∧
            ∀ c, rest.head? = some c →
              isNameChar c = false := by
  unfold nameToken? at hToken
  split at hToken
  · rename_i rest
    have hTaken : rest.takeWhile isNameChar = token := by
      split at hToken
      · cases hToken
      · exact Option.some.inj hToken
    refine ⟨rest.dropWhile isNameChar, ?_, ?_, ?_, ?_⟩
    · rw [← hTaken, List.takeWhile_append_dropWhile]
    · rintro rfl
      rw [hTaken] at hToken
      cases hToken
    · intro c hMember
      rw [← hTaken] at hMember
      exact List.mem_takeWhile_imp hMember
    · intro c hHead
      have hStop := List.head?_dropWhile_not isNameChar rest
      rw [hHead] at hStop
      simpa using hStop
  · cases hToken

/- A token that has a colon has a last one. -/
theorem exists_last_colon
    (hColon : ':' ∈ token) :
    ∃ name argument,
      token = name ++ ':' :: argument ∧ ':' ∉ argument := by
  rcases List.eq_append_cons_of_mem
      (List.mem_reverse.mpr hColon) with
    ⟨back, front, hToken, hBack⟩
  refine ⟨front.reverse, back.reverse, ?_, ?_⟩
  · have hReverse := congrArg List.reverse hToken
    simpa using hReverse
  · simpa using hBack

/-
  Before a sign, a token is the name of a definition or has no
  colon, or it is divided at its last colon.
-/
theorem splitHead_cases
    (registry : Registry)
    (token : List Char) :
    ((registry.lookup? (String.ofList token)).isSome ∨
          ':' ∉ token) ∧
        splitHead registry token true =
          (String.ofList token, some valueName) ∨
      registry.lookup? (String.ofList token) = none ∧
        ∃ marker argument : String,
          token = marker.toList ++ ':' :: argument.toList ∧
            ':' ∉ argument.toList ∧
              splitHead registry token true =
                (marker, some argument) := by
  by_cases hWhole :
    (registry.lookup? (String.ofList token)).isSome ∨
      ':' ∉ token
  · left
    refine ⟨hWhole, ?_⟩
    have hHead :
        splitHead registry (String.ofList token).toList true =
          (String.ofList token, some valueName) :=
      splitHead_whole (by rwa [String.toList_ofList])
    rwa [String.toList_ofList] at hHead
  · right
    rw [not_or, Option.not_isSome_iff_eq_none, not_not]
      at hWhole
    rcases exists_last_colon hWhole.2 with
      ⟨front, back, rfl, hColon⟩
    refine ⟨hWhole.1, String.ofList front,
      String.ofList back, ?_, ?_, ?_⟩
    · simp
    · simpa using hColon
    · have hFree :
          registry.lookup?
              (String.ofList front ++ ":"
                ++ String.ofList back) =
            none := by
        rw [← hWhole.1]
        congr 1
        apply String.toList_inj.mp
        simp
      have hColon' : ':' ∉ (String.ofList back).toList := by
        simpa using hColon
      simpa using splitHead_token hColon' hFree

end Tokens

------------------------------------------------------------
-- Accepted Lines
------------------------------------------------------------

section Accepted

variable {registry : Registry}
variable {definition? : Option Definition}
variable {text marker name : String}
variable {cursor place : Cursor}
variable {read : Arguments}

/- The first argument has a name, and it is read. -/
theorem scanArgumentsBy_first
    {look : Scan Bool}
    (hRun :
      scanArgumentsBy look text marker definition? name
          cursor =
        .ok read place) :
    name ≠ "" ∧ (read.get? name).isSome := by
  rcases scanArgumentsBy_eq_ok.mp hRun with
    ⟨value, start, hFirst, hRounds⟩
  refine ⟨(scanNamedBy_eq_ok hFirst).1, ?_⟩
  apply isSome_get?_of_rounds hRounds
  rw [Entries.get?_insert, if_pos rfl]
  rfl

/-
  What is read after a token tells the form of the head. The
  rest has no blanks at its end, so that a flag has no rest.
-/
theorem exists_describes_of_run
    {token rest : List Char}
    {found : Marker}
    (hTrimmed : Text.Blank rest → rest = [])
    (hAhead : cursor.ahead = rest)
    (hName :
      found.name =
        (splitHead registry token
          (cursor.peek = some '=')).1)
    (hRun :
      readArgumentsBy seesColon text marker definition?
          (splitHead registry token
            (cursor.peek = some '=')).2 cursor =
        .ok found.arguments place) :
    ∃ form : HeadForm,
      form.Describes registry token rest found := by
  have hPeek : cursor.peek = rest.head? := by
    rw [← hAhead]
    rfl
  by_cases hSign : rest.head? = some '='
  · rw [hPeek, decide_eq_true hSign] at hName hRun
    rcases splitHead_cases registry token with
      ⟨hWhole, hHead⟩ |
        ⟨hFree, own, argument, hToken, hColon, hHead⟩
    · rw [hHead] at hName hRun
      have hFirst := scanArgumentsBy_first hRun
      exact ⟨.anonymous, hSign, hName, hWhole, hFirst.2⟩
    · rw [hHead] at hName hRun
      have hFirst := scanArgumentsBy_first hRun
      rw [← show found.name = own from hName] at hToken
      exact ⟨.named, hSign, hFree, argument, hToken, hFirst.1,
        hColon, hFirst.2⟩
  · rw [hPeek, decide_eq_false hSign] at hName hRun
    have hEnd := scanNoArguments_eq_ok hRun
    rw [hAhead] at hEnd
    exact ⟨.flag, hTrimmed hEnd.2, hName, hEnd.1⟩

/-
  The head of an accepted line is read in one of three forms.
  The marker has a name, unless its token is nothing but a
  colon and the name of the first argument.
-/
theorem ofLine_head
    {line : String}
    {found : Marker}
    (hFound : ofLine registry line = .ok found) :
    found.text = trimmed line ∧
      ∃ token rest,
        HasHead registry found token rest ∧
          (found.name = "" ↔
            rest ≠ [] ∧ Nameless registry token) := by
  rw [← ofLineBy_seesColon] at hFound
  unfold ofLineBy at hFound
  dsimp only at hFound
  split at hFound
  · cases hFound
  · rename_i token hToken
    have hText := text_of_complete hFound
    rcases exists_token_of_nameToken? hToken with
      ⟨rest, hLine, hNonempty, hName, hEnds⟩
    rcases complete_eq_ok hFound with ⟨place, hRun, _⟩
    have hTrimmed : Text.Blank rest → rest = [] := by
      have hWhole := Text.trim_trim line.toList
      rw [hLine, ← List.cons_append] at hWhole
      exact Text.eq_nil_of_blank_of_trimmed hWhole
    have hAhead := (span_of_token hName hEnds).1
    rw [← hLine] at hAhead
    rcases exists_describes_of_run hTrimmed hAhead
        (name_of_complete hFound) hRun with
      ⟨form, hForm⟩
    refine ⟨hText, token, rest, ?_,
      hForm.name_eq_empty_iff hNonempty⟩
    refine ⟨?_, hNonempty, hName, hEnds, form, hForm, ?_⟩
    · rw [hText, String.toList_ofList, hLine]
    · intro other hOther
      exact hOther.unique hForm

end Accepted

/-
  The token is not the name of a definition, although a part
  of it is; it is divided at the last of its colons.
-/
theorem ofLine_head_of_two_colons :
    ∃ registry found,
      (registry.lookup? "a").isSome ∧
        ofLine registry " +a:b:C=1, D=x " = .ok found ∧
          found.name = "a:b" ∧
            found.text = trimmed " +a:b:C=1, D=x " ∧
              ∃ token rest,
                HasHead registry found token rest ∧
                  (found.name = "" ↔
                    rest ≠ [] ∧ Nameless registry token) := by
  let registry : Registry :=
    (Registry.empty.register (Definition.named "a")).2
  have hFound :
      ofLine registry " +a:b:C=1, D=x " =
        .ok
          ⟨"a:b",
            (Entries.empty.insert "C" (.int 1)).insert "D"
              (.string "x"),
            .nowhere, "+a:b:C=1, D=x"⟩ :=
    rfl
  exact ⟨registry, _, rfl, hFound, rfl, ofLine_head hFound⟩

/-
  A line that is accepted although there is nothing before the
  colon of its head: the marker has an empty name.
-/
theorem ofLine_head_nameless :
    ∃ found,
      ofLine Registry.empty "+:A=1" = .ok found ∧
        found.name = "" :=
  ⟨_, rfl, rfl⟩

end Marker

end Marginalia
