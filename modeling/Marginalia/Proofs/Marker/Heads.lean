import Marginalia.Proofs.Entries
import Marginalia.Proofs.Marker.Forms
import Marginalia.Proofs.Text

/-
  Heads of marker lines, and what a marker requires.

  Key definitions include:
    * `Marker.IsName`
    * `Marker.argumentLine`

  Main statements:
    * `Marker.ofLineBy_of_flag`
    * `Marker.ofLineBy_of_head`
    * `Marker.complete_eq_ok`
    * `Marker.ofLineBy_argumentLine`
-/

namespace Marginalia

namespace Marker

open Literal

------------------------------------------------------------
-- Names
------------------------------------------------------------

/- All characters may be part of a name. -/
def IsName
    (name : String) : Prop :=
  ∀ c ∈ name.toList, isNameChar c = true

theorem isBlank_of_isNameChar
    {c : Char}
    (hName : isNameChar c = true) :
    Text.isBlank c = false := by
  unfold isNameChar at hName
  simp only [Bool.and_eq_true, Bool.not_eq_true'] at hName
  exact hName.1.1

/- There are no blanks to skip before a name. -/
theorem trimStart_name
    {name : List Char}
    (hName : ∀ c ∈ name, isNameChar c = true)
    (hNonempty : name ≠ [])
    (rest : List Char) :
    Text.trimStart (name ++ rest) = name ++ rest := by
  cases name with
  | nil => exact absurd rfl hNonempty
  | cons c later =>
      exact Text.trimStart_cons
        (isBlank_of_isNameChar
          (hName c List.mem_cons_self)) _

------------------------------------------------------------
-- Tokens
------------------------------------------------------------

section Tokens

variable {token rest : List Char}

/- A token ends where the text does, or at another character. -/
theorem nameToken?_of_token
    (hToken : ∀ c ∈ token, isNameChar c = true)
    (hNonempty : token ≠ [])
    (hRest : ∀ c, rest.head? = some c → isNameChar c = false) :
    nameToken? ('+' :: (token ++ rest)) = some token := by
  rw [nameToken?, Text.takeWhile_front hToken hRest]
  cases token with
  | nil => exact absurd rfl hNonempty
  | cons c token => rfl

/- The plus sign is passed with the token. -/
theorem span_of_token
    (hToken : ∀ c ∈ token, isNameChar c = true)
    (hRest : ∀ c, rest.head? = some c → isNameChar c = false) :
    let cursor :=
      ((Cursor.ofChars ('+' :: (token ++ rest))).span
        isNameChar).2
    cursor.ahead = rest ∧
      cursor.behind.reverse = '+' :: token := by
  have hPass :
      ∀ c ∈ '+' :: token, isNameChar c = true := by
    rw [List.forall_mem_cons]
    exact ⟨by decide, hToken⟩
  have hDrop := Text.dropWhile_front hPass hRest
  constructor
  · rw [Cursor.span_ahead, Cursor.ofChars_ahead]
    exact hDrop
  · simp only [Cursor.span, Cursor.ofChars]
    rw [← List.cons_append, Text.takeWhile_front hPass hRest]
    simp

end Tokens

/- The last colon of the token stands before the argument. -/
theorem splitAtLastColon?_token
    {marker name : List Char}
    (hColon : ':' ∉ name) :
    splitAtLastColon? (marker ++ ':' :: name) =
      some (marker, name) := by
  have hPass :
      ∀ c ∈ name.reverse, (c != ':') = true := by
    intro c hMember
    rw [bne_iff_ne]
    rintro rfl
    exact hColon (List.mem_reverse.mp hMember)
  have hDrop :
      (marker ++ ':' :: name).reverse.dropWhile
          (fun c => c != ':') =
        ':' :: marker.reverse := by
    rw [List.reverse_append, List.reverse_cons,
      List.append_assoc, List.dropWhile_append_of_pos hPass]
    rfl
  unfold splitAtLastColon?
  rw [hDrop]
  simp

theorem splitAtLastColon?_eq_none
    {token : List Char}
    (hColon : ':' ∉ token) :
    splitAtLastColon? token = none := by
  have hDrop :
      token.reverse.dropWhile (fun c => c != ':') = [] := by
    rw [List.dropWhile_eq_nil_iff]
    intro c hMember
    rw [bne_iff_ne]
    rintro rfl
    exact hColon (List.mem_reverse.mp hMember)
  unfold splitAtLastColon?
  rw [hDrop]

section Heads

variable {registry : Registry}
variable {marker name : String}

/- The token has the names and the colon between them. -/
theorem isNameChar_of_mem_token
    (hMarker : IsName marker)
    (hName : IsName name) :
    ∀ c ∈ marker.toList ++ ':' :: name.toList,
      isNameChar c = true := by
  intro c hMember
  rcases List.mem_append.mp hMember with hOwn | hRest
  · exact hMarker c hOwn
  · rcases List.mem_cons.mp hRest with rfl | hOwn
    · decide
    · exact hName c hOwn

/- The token is not the name of a definition, so it is split. -/
theorem splitHead_token
    (hColon : ':' ∉ name.toList)
    (hFree :
      registry.lookup? (marker ++ ":" ++ name) = none) :
    splitHead registry
        (marker.toList ++ ':' :: name.toList) true =
      (marker, some name) := by
  have hWhole :
      String.ofList (marker.toList ++ ':' :: name.toList) =
        marker ++ ":" ++ name := by
    apply String.toList_inj.mp
    simp
  unfold splitHead
  dsimp only
  rw [hWhole, hFree, splitAtLastColon?_token hColon]
  simp

/- The token is the name of the marker and nothing else. -/
theorem splitHead_whole
    (hWhole :
      (registry.lookup? marker).isSome ∨
        ':' ∉ marker.toList) :
    splitHead registry marker.toList true =
      (marker, some valueName) := by
  unfold splitHead
  dsimp only
  rw [String.ofList_toList]
  rcases hWhole with hKnown | hColon
  · simp [hKnown]
  · simp [splitAtLastColon?_eq_none hColon]

end Heads

------------------------------------------------------------
-- Lines
------------------------------------------------------------

section Lines

variable {registry : Registry}
variable {line : String}
variable {token : List Char}

/- A line that is nothing but a plus sign and a name. -/
theorem ofLineBy_of_flag
    (look : Scan Bool)
    (hLine : Text.trim line.toList = '+' :: token)
    (hToken : ∀ c ∈ token, isNameChar c = true)
    (hNonempty : token ≠ []) :
    ∃ place,
      ofLineBy look registry line =
        complete (String.ofList (Text.trim line.toList))
          (String.ofList token)
          (registry.lookup? (String.ofList token))
          (.ok Entries.empty place) := by
  have hRest :
      ∀ c, ([] : List Char).head? = some c →
        isNameChar c = false :=
    nofun
  have hName := nameToken?_of_token hToken hNonempty hRest
  have hSpan := (span_of_token hToken hRest).1
  rw [List.append_nil, ← hLine] at hName hSpan
  unfold ofLineBy
  generalize Text.trim line.toList = chars at hName hSpan ⊢
  have hPeek := Cursor.peek_eq_none_iff.mpr hSpan
  have hRead :
      scanNoArguments (String.ofList chars)
          ((Cursor.ofChars chars).span isNameChar).2 =
        .ok Entries.empty
          ((Cursor.ofChars chars).span
            isNameChar).2.skipBlanks := by
    have hEnd :
        ((Cursor.ofChars chars).span
          isNameChar).2.skipBlanks.atEnd = true := by
      unfold Cursor.atEnd
      rw [Cursor.skipBlanks_ahead, hSpan]
      rfl
    show (if ((Cursor.ofChars chars).span
        isNameChar).2.skipBlanks.atEnd then _ else _ :
      LineScan Arguments) _ = _
    rw [if_pos hEnd]
    rfl
  refine ⟨((Cursor.ofChars chars).span
    isNameChar).2.skipBlanks, ?_⟩
  dsimp only
  rw [hName]
  dsimp only
  rw [hPeek]
  simp [splitHead, readArgumentsBy, hRead]

/- After a head and its sign, the arguments are read. -/
theorem ofLineBy_of_head
    (look : Scan Bool)
    {rest : List Char}
    {marker first : String}
    (hLine :
      Text.trim line.toList = '+' :: (token ++ '=' :: rest))
    (hToken : ∀ c ∈ token, isNameChar c = true)
    (hNonempty : token ≠ [])
    (hHead :
      splitHead registry token true = (marker, some first)) :
    ∃ cursor,
      cursor.ahead = rest ∧
        cursor.behind.reverse = '+' :: (token ++ ['=']) ∧
          ofLineBy look registry line =
            complete (String.ofList (Text.trim line.toList))
              marker (registry.lookup? marker)
              (scanArgumentsBy look
                (String.ofList (Text.trim line.toList))
                marker (registry.lookup? marker) first
                cursor) := by
  have hSign :
      ∀ c, ('=' :: rest).head? = some c →
        isNameChar c = false := by
    rintro c ⟨⟩
    decide
  have hName := nameToken?_of_token hToken hNonempty hSign
  rcases span_of_token hToken hSign with ⟨hAhead, hBehind⟩
  rw [← hLine] at hName hAhead hBehind
  have hPeek := Cursor.peek_eq_some_iff.mpr ⟨_, hAhead⟩
  unfold ofLineBy
  generalize Text.trim line.toList = chars
    at hName hAhead hBehind hPeek ⊢
  refine ⟨((Cursor.ofChars chars).span isNameChar).2.advance,
    ?_, ?_, ?_⟩
  · rw [Cursor.advance_ahead, hAhead]
    rfl
  · rw [Cursor.advance_behind hPeek, List.reverse_cons,
      hBehind, List.cons_append]
  · dsimp only
    rw [hName]
    dsimp only
    rw [hPeek, decide_eq_true rfl, hHead]
    rfl

end Lines

------------------------------------------------------------
-- Complete Markers
------------------------------------------------------------

section Complete

variable {definition? : Option Definition}
variable {marker text : String}

/- Nothing is missing where all that is required was read. -/
theorem missing?_eq_none_iff
    {definition : Definition}
    {read : Arguments} :
    missing? (some definition) read = none ↔
      ∀ parameter ∈ definition.parameters,
        parameter.required = true →
          (read.get? parameter.name).isSome := by
  have hMissing :
      missing? (some definition) read =
        definition.parameters.find? fun parameter =>
          parameter.required &&
            (read.get? parameter.name).isNone :=
    rfl
  rw [hMissing]
  simp [Option.isSome_iff_ne_none]

/- A marker has all that its definition requires. -/
theorem complete_eq_ok
    {run : EStateM.Result MarkerError Cursor Arguments}
    {found : Marker}
    (hComplete :
      complete text marker definition? run = .ok found) :
    ∃ place,
      run = .ok found.arguments place ∧
        missing? definition? found.arguments = none := by
  rcases complete_eq_ok_iff.mp hComplete with
    ⟨read, place, hRun, hMissing, rfl⟩
  exact ⟨place, hRun, hMissing⟩

theorem name_of_complete
    {run : EStateM.Result MarkerError Cursor Arguments}
    {found : Marker}
    (hComplete :
      complete text marker definition? run = .ok found) :
    found.name = marker := by
  rcases complete_eq_ok_iff.mp hComplete with
    ⟨_, _, _, _, rfl⟩
  rfl

end Complete

------------------------------------------------------------
-- Argument Lines
------------------------------------------------------------

/- A line with the name of a marker and of an argument. -/
def argumentLine
    (marker name literal : String) : String :=
  "+" ++ marker ++ ":" ++ name ++ "=" ++ literal

/- The text of a marker is its line without outer blanks. -/
def trimmed
    (line : String) : String :=
  String.ofList (Text.trim line.toList)

section ArgumentLines

variable {marker name literal : String}

theorem toList_argumentLine :
    (argumentLine marker name literal).toList =
      ('+' :: (marker.toList ++ ':' :: name.toList)) ++
        '=' :: literal.toList := by
  unfold argumentLine
  simp

/- The sign after the name keeps the blanks before it. -/
theorem trim_argumentLine :
    Text.trim (argumentLine marker name literal).toList =
      ('+' :: (marker.toList ++ ':' :: name.toList)) ++
        '=' :: Text.trimEnd literal.toList := by
  unfold Text.trim
  rw [toList_argumentLine, List.cons_append,
    Text.trimStart_cons (by decide), ← List.cons_append,
    Text.trimEnd_append_cons (by decide)]

/- Where the literal begins, the arguments are read. -/
theorem ofLineBy_argumentLine
    {registry : Registry}
    (look : Scan Bool)
    (hMarker : IsName marker)
    (hName : IsName name)
    (hColon : ':' ∉ name.toList)
    (hFree :
      registry.lookup? (marker ++ ":" ++ name) = none)
    (literal : String) :
    ∃ cursor,
      cursor.ahead = Text.trimEnd literal.toList ∧
        cursor.behind.reverse =
            (argumentLine marker name "").toList ∧
          ofLineBy look registry
              (argumentLine marker name literal) =
            complete
              (trimmed (argumentLine marker name literal))
              marker (registry.lookup? marker)
              (scanArgumentsBy look
                (trimmed (argumentLine marker name literal))
                marker (registry.lookup? marker) name
                cursor) := by
  have hNonempty :
      marker.toList ++ ':' :: name.toList ≠ [] := by
    simp
  rcases ofLineBy_of_head look trim_argumentLine
      (isNameChar_of_mem_token hMarker hName) hNonempty
      (splitHead_token hColon hFree) with
    ⟨cursor, hAhead, hBehind, hLine⟩
  refine ⟨cursor, hAhead, ?_, hLine⟩
  rw [hBehind, toList_argumentLine]
  simp

end ArgumentLines

end Marker

end Marginalia
