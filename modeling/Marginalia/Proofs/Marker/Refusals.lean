import Marginalia.Proofs.Marker.Heads

/-
  Lines that begin with a plus sign and a name: an accepted
  one yields a marker of which the name is a part of the line,
  and a refused one is refused for another reason than the
  lack of a name.

  Key definitions include:
    * `MarkerError.AfterName`
    * `Marker.FailsAfterName`

  Main statements:
    * `Marker.name_of_ofLine`
    * `Marker.afterName_of_ofLine`
    * `MarkerError.AfterName.message_ne`
-/

namespace Marginalia

/- The reason is another one than the lack of a name. -/
def MarkerError.AfterName
    (error : MarkerError) : Prop :=
  ∀ text, error ≠ .malformed text .noName

namespace Marker

open Literal

------------------------------------------------------------
-- Names
------------------------------------------------------------

section Names

variable {registry : Registry}
variable {line : String}
variable {c : Char}
variable {rest : List Char}

theorem splitAtLastColon?_eq_some
    {token name argument : List Char}
    (hSplit :
      splitAtLastColon? token = some (name, argument)) :
    token = name ++ ':' :: argument := by
  unfold splitAtLastColon? at hSplit
  have hParts :=
    List.takeWhile_append_dropWhile
      (p := fun c => c != ':') (l := token.reverse)
  have hHead :=
    List.head?_dropWhile_not (fun c => c != ':') token.reverse
  cases hDrop :
      token.reverse.dropWhile fun c => c != ':' with
  | nil =>
      rw [hDrop] at hSplit
      cases hSplit
  | cons d front =>
      rw [hDrop] at hSplit hParts hHead
      cases hSplit
      have hColon : d = ':' := by
        simpa using hHead
      subst hColon
      have hToken := congrArg List.reverse hParts
      rw [List.reverse_reverse, List.reverse_append,
        List.reverse_cons, List.append_assoc] at hToken
      have hDropped :
          token.drop (front.length + 1) =
            (token.reverse.takeWhile fun c =>
              c != ':').reverse := by
        conv_lhs => rw [← hToken]
        rw [← List.append_assoc]
        exact List.drop_left' (by simp)
      rw [hDropped]
      exact hToken.symm

/- A token that does not begin with a colon has a name. -/
theorem splitHead_name
    (registry : Registry)
    (hColon : c ≠ ':')
    (rest : List Char)
    (hasArguments : Bool) :
    ∃ name later,
      (splitHead registry (c :: rest)
          hasArguments).1.toList =
          c :: name ∧
        rest = name ++ later := by
  have hWhole :
      (String.ofList (c :: rest)).toList = c :: rest :=
    String.toList_ofList
  unfold splitHead
  dsimp only
  split
  · exact ⟨rest, [], hWhole, by simp⟩
  · split
    · exact ⟨rest, [], hWhole, by simp⟩
    · split
      · rename_i name argument hSplit
        have hToken := splitAtLastColon?_eq_some hSplit
        cases name with
        | nil =>
            rw [List.nil_append] at hToken
            exact absurd (List.cons.inj hToken).1 hColon
        | cons d name =>
            rw [List.cons_append] at hToken
            rcases List.cons.inj hToken with ⟨rfl, hRest⟩
            exact ⟨name, ':' :: argument,
              String.toList_ofList, hRest⟩
      · exact ⟨rest, [], hWhole, by simp⟩

theorem nameToken?_cons
    (hName : isNameChar c = true) :
    nameToken? ('+' :: c :: rest) =
      some (c :: rest.takeWhile isNameChar) := by
  simp [nameToken?, hName]

theorem text_of_complete
    {definition? : Option Definition}
    {marker text : String}
    {run : EStateM.Result MarkerError Cursor Arguments}
    {found : Marker}
    (hComplete :
      complete text marker definition? run = .ok found) :
    found.text = text := by
  rcases complete_eq_ok_iff.mp hComplete with
    ⟨_, _, _, _, rfl⟩
  rfl

/-
  The text of an accepted marker is its line, and the line
  goes on with the name after the plus sign.
-/
theorem name_of_ofLine
    {found : Marker}
    (hLine : Text.trim line.toList = '+' :: c :: rest)
    (hName : isNameChar c = true)
    (hColon : c ≠ ':')
    (hFound : ofLine registry line = .ok found) :
    found.text.toList = '+' :: c :: rest ∧
      ∃ name later,
        found.name.toList = c :: name ∧
          rest = name ++ later := by
  rw [← ofLineBy_seesColon] at hFound
  unfold ofLineBy at hFound
  dsimp only at hFound
  rw [hLine, nameToken?_cons hName] at hFound
  dsimp only at hFound
  refine ⟨?_, ?_⟩
  · rw [text_of_complete hFound]
    exact String.toList_ofList
  · rw [name_of_complete hFound]
    rcases splitHead_name registry hColon
        (rest.takeWhile isNameChar) _ with
      ⟨name, later, hHead, hToken⟩
    refine ⟨name, later ++ rest.dropWhile isNameChar, hHead,
      ?_⟩
    rw [← List.append_assoc, ← hToken,
      List.takeWhile_append_dropWhile]

end Names

------------------------------------------------------------
-- Refusals
------------------------------------------------------------

/- The action fails only for reasons that come after a name. -/
def FailsAfterName
    {α : Type}
    (action : LineScan α) : Prop :=
  ∀ cursor,
    Ends (fun _ _ => True) (fun error _ => error.AfterName)
      (action cursor)

namespace FailsAfterName

variable {α β : Type}

theorem pure
    (result : α) :
    FailsAfterName (Pure.pure result) :=
  fun _ => trivial

theorem throw
    {error : MarkerError}
    (hError : error.AfterName) :
    FailsAfterName (MonadExcept.throw error : LineScan α) :=
  fun _ => hError

theorem bind
    {first : LineScan α}
    {next : α → LineScan β}
    (hFirst : FailsAfterName first)
    (hNext : ∀ result, FailsAfterName (next result)) :
    FailsAfterName (first >>= next) :=
  fun cursor =>
    (hFirst cursor).bind fun result place _ =>
      hNext result place

/- Errors of literals come after a name. -/
theorem onLine
    (action : Scan α) :
    FailsAfterName (liftM action : LineScan α) := by
  intro cursor
  rw [run_onLine]
  cases action cursor with
  | ok result place => trivial
  | error error place => exact nofun

theorem iterate
    {stuck : MarkerError}
    {body : β → LineScan (Step β α)}
    (hStuck : stuck.AfterName)
    (hBody : ∀ round, FailsAfterName (body round))
    (rounds : Nat)
    (round : β) :
    FailsAfterName (Marginalia.iterate stuck body rounds round) :=
  fun cursor =>
    ends_iterate_of_stuck (fun _ _ => True)
      (fun _ _ _ => hStuck)
      (fun round place _ =>
        (hBody round place).imp
          (fun step _ _ => by cases step <;> trivial)
          fun _ _ hError => hError)
      rounds round cursor trivial

end FailsAfterName

section Refusals

variable {look : Scan Bool}
variable {text marker : String}
variable {definition? : Option Definition}

theorem checkValue_failsAfterName
    (parameter? : Option Parameter)
    (value : Value)
    (start : Nat) :
    FailsAfterName (checkValue parameter? value start) := by
  unfold checkValue
  split
  · exact .pure _
  · split
    · exact .pure _
    · exact .throw nofun

theorem scanNamedBy_failsAfterName
    (name : String) :
    FailsAfterName
      (scanNamedBy look text marker definition? name) := by
  unfold scanNamedBy
  split
  · exact .throw nofun
  · refine .bind ?_ fun parameter? => ?_
    · unfold findParameter
      split
      · exact .pure _
      · split
        · exact .pure _
        · exact .throw nofun
    · refine .bind (.onLine _) fun _ => ?_
      refine .bind (.onLine _) fun start => ?_
      refine .bind (.onLine _) fun value => ?_
      exact .bind (checkValue_failsAfterName _ value start)
        fun _ => .pure _

theorem scanName_failsAfterName :
    FailsAfterName (scanName text) := by
  refine .bind (.onLine _) fun _ => ?_
  refine .bind (.onLine _) fun name => ?_
  refine .bind (.onLine _) fun _ => ?_
  refine .bind (.onLine _) fun eaten => ?_
  split
  · exact .pure _
  · exact .throw nofun

theorem nextArgumentBy_failsAfterName :
    FailsAfterName
      (nextArgumentBy look text marker definition?) := by
  refine .bind (.onLine _) fun _ => ?_
  refine .bind (fun _ => trivial) fun cursor => ?_
  split
  · exact .pure _
  · refine .bind (.onLine _) fun eaten => ?_
    split
    · refine .bind scanName_failsAfterName fun name => ?_
      exact .bind (scanNamedBy_failsAfterName name)
        fun _ => .pure _
    · exact .onLine _

theorem readArgumentsBy_failsAfterName
    (first? : Option String) :
    FailsAfterName
      (readArgumentsBy look text marker definition?
        first?) := by
  cases first? with
  | none =>
      refine .bind (.onLine _) fun _ => ?_
      refine .bind (fun _ => trivial) fun cursor => ?_
      split
      · exact .pure _
      · exact .throw nofun
  | some first =>
      refine .bind (.onLine _) fun _ => ?_
      refine .bind (scanNamedBy_failsAfterName first)
        fun value => ?_
      refine .bind (fun _ => trivial) fun cursor => ?_
      refine .iterate ?_ (fun read => ?_) _ _
      · exact nofun
      · refine .bind nextArgumentBy_failsAfterName
          fun argument? => ?_
        cases argument? with
        | none => exact .pure _
        | some argument => exact .pure _

/- What is required is missing only after a name. -/
theorem afterName_of_complete
    {run : EStateM.Result MarkerError Cursor Arguments}
    {error : MarkerError}
    (hRun :
      Ends (fun _ _ => True) (fun error _ => error.AfterName)
        run)
    (hComplete :
      complete text marker definition? run = .error error) :
    error.AfterName := by
  rcases complete_eq_error_iff.mp hComplete with
    ⟨_, rfl⟩ | ⟨_, _, _, _, _, rfl⟩
  · exact hRun
  · exact nofun

/- A line with a name is not refused for the lack of one. -/
theorem afterName_of_ofLine
    {registry : Registry}
    {line : String}
    {c : Char}
    {rest : List Char}
    {error : MarkerError}
    (hLine : Text.trim line.toList = '+' :: c :: rest)
    (hName : isNameChar c = true)
    (hError : ofLine registry line = .error error) :
    error.AfterName := by
  rw [← ofLineBy_seesColon] at hError
  unfold ofLineBy at hError
  dsimp only at hError
  rw [hLine, nameToken?_cons hName] at hError
  exact afterName_of_complete
    (readArgumentsBy_failsAfterName _ _) hError

end Refusals

end Marker

------------------------------------------------------------
-- Messages
------------------------------------------------------------

/- Texts differ if neither of their ends is one of the other. -/
theorem append_ne_append
    {first second : String}
    (hFirst : ¬ first.toList <:+ second.toList)
    (hSecond : ¬ second.toList <:+ first.toList)
    (front front' : String) :
    front ++ first ≠ front' ++ second := by
  intro hSame
  have hSame := congrArg String.toList hSame
  rw [String.toList_append, String.toList_append] at hSame
  rcases List.suffix_or_suffix_of_suffix
      (List.suffix_append front.toList first.toList)
      (hSame ▸ List.suffix_append _ second.toList) with
    hEnd | hEnd
  · exact hFirst hEnd
  · exact hSecond hEnd

/- The text begins with the character. -/
def BeginsWith
    (c : Char)
    (text : String) : Prop :=
  text.toList.head? = some c

theorem BeginsWith.append
    {c : Char}
    {front : String}
    (hFront : BeginsWith c front)
    (rest : String) :
    BeginsWith c (front ++ rest) := by
  unfold BeginsWith at hFront ⊢
  rw [String.toList_append, List.head?_append, hFront]
  rfl

theorem BeginsWith.ne
    {c d : Char}
    {first second : String}
    (hFirst : BeginsWith c first)
    (hSecond : BeginsWith d second)
    (hDifferent : c ≠ d) :
    first ≠ second := by
  rintro rfl
  unfold BeginsWith at hFirst hSecond
  rw [hFirst] at hSecond
  exact hDifferent (Option.some.inj hSecond)

/- Messages about literals begin with a small letter. -/
theorem ReadError.beginsWith_message
    (error : ReadError) :
    ∃ c, BeginsWith c error.message ∧ c ≠ 'I' := by
  cases error with
  | unsupported what =>
      exact ⟨'u', .append (.append (by rfl) _) _, by decide⟩
  | syntaxError expected found position =>
      exact ⟨'s', .append (.append (.append (.append (.append
        (.append (by rfl) _) _) _) _) _) _, by decide⟩
  | overflow literal capacity position =>
      exact ⟨'i', .append (.append (.append (.append
        (.append (by rfl) _) _) _) _) _, by decide⟩
  | unterminated what position =>
      exact ⟨'u', .append (.append (.append (by rfl) _) _) _,
        by decide⟩
  | mismatch destination offer position =>
      exact ⟨'d', .append (.append (.append (.append (.append
        (.append (by rfl) _) _) _) _) _) _, by decide⟩
  | exhausted => exact ⟨'r', rfl, by decide⟩

namespace MarkerError

theorem message_malformed
    (text : String)
    (defect : MarkerDefect) :
    (malformed text defect).message =
      "Invalid marker `" ++ text ++ "`: " ++ defect.text :=
  rfl

theorem beginsWith_malformed
    (text : String)
    (defect : MarkerDefect) :
    BeginsWith 'I' (malformed text defect).message :=
  .append (.append (.append (by rfl) _) _) _

/-
  The message tells the lack of a name from all other reasons,
  whatever the text of the line is.
-/
theorem AfterName.message_ne
    {error : MarkerError}
    (hError : error.AfterName)
    (text : String) :
    error.message ≠ (malformed text .noName).message := by
  have hNoName := beginsWith_malformed text .noName
  cases error with
  | literal error =>
      rcases error.beginsWith_message with ⟨c, hBegins, hOther⟩
      exact hBegins.ne hNoName hOther
  | unknownArgument marker argument =>
      have hBegins :
          BeginsWith 'M'
            (unknownArgument marker argument).message :=
        .append (.append (.append (.append (by rfl) _) _) _) _
      exact hBegins.ne hNoName (by decide)
  | missingArgument marker argument =>
      have hBegins :
          BeginsWith 'M'
            (missingArgument marker argument).message :=
        .append (.append (.append (.append (by rfl) _) _) _) _
      exact hBegins.ne hNoName (by decide)
  | malformed other defect =>
      rw [message_malformed, message_malformed]
      cases defect with
      | noName => exact absurd rfl (hError other)
      | emptyArgument =>
          exact append_ne_append (by decide) (by decide) _ _
      | noEquals argument =>
          unfold MarkerDefect.text
          dsimp only
          rw [← String.append_assoc]
          exact append_ne_append (by decide) (by decide) _ _
      | trailingText =>
          exact append_ne_append (by decide) (by decide) _ _

end MarkerError

end Marginalia
