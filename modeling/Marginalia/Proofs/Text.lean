import Marginalia.Text.Blank
import Marginalia.Text.Hex
import Marginalia.Text.Letter
import Mathlib.Data.List.DropRight

/-
  Runs of characters, blanks at the ends of texts, and digits
  of numbers.

  Main statements:
    * `Text.isWordChar_of_isBlank`
    * `Text.takeWhile_front`
    * `Text.trim_append_of_blank`
    * `Text.ends_of_trimmed`
    * `Text.hexValue_toDigits`
-/

namespace Marginalia

/- The code points of a set, one by one. -/
def CodePoints.codes
    (points : CodePoints) : List Nat :=
  points.flatMap fun range =>
    List.range' range.1 (range.2 + 1 - range.1)

theorem CodePoints.mem_codes
    {points : CodePoints}
    {code : Nat}
    (hContains : points.contains code = true) :
    code ∈ points.codes := by
  induction points with
  | nil => cases hContains
  | cons range later ih =>
      rcases range with ⟨first, last⟩
      unfold codes
      rw [List.flatMap_cons, List.mem_append]
      unfold contains at hContains
      split at hContains
      · cases hContains
      · split at hContains
        · left
          rw [List.mem_range'_1]
          dsimp only
          omega
        · exact Or.inr (ih hContains)

namespace Text

------------------------------------------------------------
-- Blank Characters
------------------------------------------------------------

/- Every character of the text is blank. -/
def Blank
    (text : List Char) : Prop :=
  ∀ c ∈ text, isBlank c = true

/-
  Whether something holds of all characters of a text is
  decided by these, not by all characters that there are.
-/
instance decidableForallMem
    (p : Char → Prop)
    [DecidablePred p]
    (text : List Char) :
    Decidable (∀ c ∈ text, p c) :=
  List.decidableBAll p text

instance decidableBlank
    (text : List Char) :
    Decidable (Blank text) :=
  inferInstanceAs
    (Decidable (∀ c ∈ text, isBlank c = true))

/- What holds of all blanks by their code points. -/
theorem forall_isBlank
    {p : Char → Prop}
    (hCodes : ∀ code ∈ blanks.codes, p (Char.ofNat code))
    {c : Char}
    (hBlank : isBlank c = true) :
    p c := by
  have hCode :=
    hCodes c.toNat (CodePoints.mem_codes hBlank)
  rw [Char.ofNat_toNat] at hCode
  exact hCode

/- Blanks separate words. -/
theorem isWordChar_of_isBlank
    {c : Char}
    (hBlank : isBlank c = true) :
    isWordChar c = false :=
  forall_isBlank (p := fun c => isWordChar c = false)
    (by decide +kernel) hBlank

/- They are no digits. -/
theorem isHexDigit_of_isBlank
    {c : Char}
    (hBlank : isBlank c = true) :
    isHexDigit c = false :=
  forall_isBlank (p := fun c => isHexDigit c = false)
    (by decide) hBlank

theorem isDigit_of_isBlank
    {c : Char}
    (hBlank : isBlank c = true) :
    c.isDigit = false :=
  forall_isBlank (p := fun c => c.isDigit = false)
    (by decide) hBlank

/- A blank is none of the characters that are not blank. -/
theorem ne_of_isBlank
    {b c : Char}
    (hBlank : isBlank b = true)
    (hOther : isBlank c = false) :
    b ≠ c := by
  rintro rfl
  rw [hBlank] at hOther
  cases hOther

------------------------------------------------------------
-- Runs of Characters
------------------------------------------------------------

section Runs

variable {p : Char → Bool}
variable {front tail : List Char}

/- What does not go on with a run leaves it as it is. -/
theorem takeWhile_append_of_head
    (hTail : ∀ c, tail.head? = some c → p c = false)
    (text : List Char) :
    (text ++ tail).takeWhile p = text.takeWhile p := by
  induction text with
  | nil =>
      cases tail with
      | nil => rfl
      | cons c rest => simp [hTail c rfl]
  | cons c text ih =>
      rw [List.cons_append, List.takeWhile_cons,
        List.takeWhile_cons, ih]

theorem dropWhile_append_of_head
    (hTail : ∀ c, tail.head? = some c → p c = false)
    (text : List Char) :
    (text ++ tail).dropWhile p =
      text.dropWhile p ++ tail := by
  have hSplit :
      text.takeWhile p ++ (text ++ tail).dropWhile p =
        text.takeWhile p ++ (text.dropWhile p ++ tail) := by
    rw [← List.append_assoc, List.takeWhile_append_dropWhile,
      ← takeWhile_append_of_head hTail text,
      List.takeWhile_append_dropWhile]
  exact List.append_cancel_left hSplit

/- A run of characters ends where another one stands. -/
theorem takeWhile_front
    (hFront : ∀ c ∈ front, p c = true)
    (hTail : ∀ c, tail.head? = some c → p c = false) :
    (front ++ tail).takeWhile p = front := by
  rw [takeWhile_append_of_head hTail]
  exact List.takeWhile_eq_self_iff.mpr hFront

theorem dropWhile_front
    (hFront : ∀ c ∈ front, p c = true)
    (hTail : ∀ c, tail.head? = some c → p c = false) :
    (front ++ tail).dropWhile p = tail := by
  rw [dropWhile_append_of_head hTail,
    List.dropWhile_eq_nil_iff.mpr hFront, List.nil_append]

end Runs

------------------------------------------------------------
-- Trimming
------------------------------------------------------------

theorem trimStart_append_of_blank
    {front : List Char}
    (hFront : Blank front)
    (rest : List Char) :
    trimStart (front ++ rest) = trimStart rest :=
  List.dropWhile_append_of_pos hFront

theorem trimStart_trimStart
    (text : List Char) :
    trimStart (trimStart text) = trimStart text :=
  List.dropWhile_idempotent isBlank text

theorem trimStart_cons
    {c : Char}
    (hOther : isBlank c = false)
    (rest : List Char) :
    trimStart (c :: rest) = c :: rest := by
  unfold trimStart
  rw [List.dropWhile_cons_of_neg]
  rw [hOther]
  exact Bool.false_ne_true

theorem trimStart_of_head
    {c : Char}
    {text : List Char}
    (hHead : text.head? = some c)
    (hOther : isBlank c = false) :
    trimStart text = text := by
  cases text with
  | nil => cases hHead
  | cons d rest =>
      cases hHead
      exact trimStart_cons hOther rest

theorem trimStart_of_blank
    {text : List Char}
    (hText : Blank text) :
    trimStart text = [] :=
  List.dropWhile_eq_nil_iff.mpr hText

/- The first character that is left is not blank. -/
theorem isBlank_head_trimStart
    {text rest : List Char}
    {c : Char}
    (hText : trimStart text = c :: rest) :
    isBlank c = false := by
  have hHead := List.head?_dropWhile_not isBlank text
  unfold trimStart at hText
  rw [hText] at hHead
  simpa using hHead

/- What is trimmed away is blank. -/
theorem exists_blank_append_trimStart
    (text : List Char) :
    ∃ blanks,
      Blank blanks ∧ text = blanks ++ trimStart text :=
  ⟨text.takeWhile isBlank,
    fun _ hMember => List.mem_takeWhile_imp hMember,
    List.takeWhile_append_dropWhile.symm⟩

/- What is left in front shields what follows. -/
theorem trimStart_append_of_ne_nil
    {text : List Char}
    (hText : trimStart text ≠ [])
    (rest : List Char) :
    trimStart (text ++ rest) = trimStart text ++ rest := by
  unfold trimStart at hText ⊢
  rw [List.dropWhile_append]
  cases hTrim : text.dropWhile isBlank with
  | nil => exact absurd hTrim hText
  | cons c tail => rfl

theorem length_trimStart_le
    (text : List Char) :
    (trimStart text).length ≤ text.length :=
  (List.dropWhile_suffix isBlank).length_le

theorem trimEnd_append_of_blank
    {back : List Char}
    (hBack : Blank back)
    (text : List Char) :
    trimEnd (text ++ back) = trimEnd text := by
  unfold trimEnd
  rw [List.reverse_append, List.dropWhile_append_of_pos]
  intro c hMember
  exact hBack c (List.mem_reverse.mp hMember)

/- A character that is not blank shields what is before it. -/
theorem trimEnd_append_cons
    {c : Char}
    (hOther : isBlank c = false)
    (front rest : List Char) :
    trimEnd (front ++ c :: rest) =
      front ++ c :: trimEnd rest := by
  have hStop :
      (c :: front.reverse).dropWhile isBlank =
        c :: front.reverse :=
    trimStart_cons hOther front.reverse
  have hReverse :
      (front ++ c :: rest).reverse =
        rest.reverse ++ c :: front.reverse := by
    simp
  unfold trimEnd
  rw [hReverse, List.dropWhile_append]
  cases hRest : rest.reverse.dropWhile isBlank with
  | nil => simp [hStop]
  | cons d later => simp

/- What is trimmed at the end is blank. -/
theorem exists_trimEnd_append_blank
    (text : List Char) :
    ∃ blanks,
      Blank blanks ∧ text = trimEnd text ++ blanks := by
  rcases exists_blank_append_trimStart text.reverse with
    ⟨blanks, hBlanks, hSplit⟩
  refine ⟨blanks.reverse, ?_, ?_⟩
  · intro c hMember
    exact hBlanks c (List.mem_reverse.mp hMember)
  · have hText := congrArg List.reverse hSplit
    rw [List.reverse_reverse, List.reverse_append] at hText
    exact hText

theorem length_trimEnd_le
    (text : List Char) :
    (trimEnd text).length ≤ text.length := by
  unfold trimEnd
  rw [List.length_reverse]
  calc
    (text.reverse.dropWhile isBlank).length
        ≤ text.reverse.length :=
          (List.dropWhile_suffix isBlank).length_le
    _ = text.length := List.length_reverse

/- Nothing is left to trim after trimming. -/
theorem trim_trim
    (text : List Char) :
    trim (trim text) = trim text := by
  have hEnd :
      ∀ text, trimEnd (trimEnd text) = trimEnd text := by
    intro text
    simp [trimEnd, List.dropWhile_idempotent]
  unfold trim
  cases hText : trimStart text with
  | nil => rfl
  | cons c rest =>
      have hFirst :
          trimEnd (c :: rest) = c :: trimEnd rest :=
        trimEnd_append_cons (isBlank_head_trimStart hText) []
          rest
      have hStart :
          trimStart (trimEnd (c :: rest)) =
            trimEnd (c :: rest) := by
        rw [hFirst]
        exact trimStart_cons (isBlank_head_trimStart hText) _
      rw [hStart, hEnd]

/- A text that has been trimmed has no blanks in front. -/
theorem trimStart_of_trimmed
    {text : List Char}
    (hTrimmed : trim text = text) :
    trimStart text = text := by
  have hLength :
      text.length ≤ (trimStart text).length := by
    calc
      text.length = (trim text).length := by rw [hTrimmed]
      _ ≤ (trimStart text).length := length_trimEnd_le _
  exact (List.dropWhile_suffix isBlank).eq_of_length_le
    hLength

/- Blanks behind a text are trimmed away. -/
theorem trim_append_of_blank
    {back : List Char}
    (hBack : Blank back)
    (text : List Char) :
    trim (text ++ back) = trim text := by
  have hEmpty : back.dropWhile isBlank = [] :=
    trimStart_of_blank hBack
  unfold trim trimStart
  rw [List.dropWhile_append]
  cases hTrim : text.dropWhile isBlank with
  | nil => simp [hEmpty]
  | cons c rest =>
      exact trimEnd_append_of_blank hBack (c :: rest)

/- A text that cannot be trimmed has no blanks behind it. -/
theorem eq_nil_of_blank_of_trimmed
    {front back : List Char}
    (hTrimmed : trim (front ++ back) = front ++ back)
    (hBack : Blank back) :
    back = [] := by
  have hLength :
      (front ++ back).length ≤ front.length := by
    calc
      (front ++ back).length = (trim front).length := by
        rw [← trim_append_of_blank hBack front, hTrimmed]
      _ ≤ (trimStart front).length := length_trimEnd_le _
      _ ≤ front.length := length_trimStart_le front
  rw [List.length_append] at hLength
  exact List.length_eq_zero_iff.mp (by omega)

------------------------------------------------------------
-- Ends
------------------------------------------------------------

/- The last character of the text is not blank. -/
def Ends
    (text : List Char) : Prop :=
  ∃ front c, text = front ++ [c] ∧ isBlank c = false

theorem Ends.append
    {text : List Char}
    (hText : Ends text)
    (front : List Char) :
    Ends (front ++ text) := by
  rcases hText with ⟨middle, c, rfl, hVisible⟩
  exact ⟨front ++ middle, c, by simp, hVisible⟩

theorem Ends.cons
    {text : List Char}
    (hText : Ends text)
    (c : Char) :
    Ends (c :: text) :=
  hText.append [c]

theorem Ends.trimEnd
    {text : List Char}
    (hText : Ends text) :
    Text.trimEnd text = text := by
  rcases hText with ⟨front, c, rfl, hVisible⟩
  exact trimEnd_append_cons hVisible front []

/- A text that is not empty and cannot be trimmed. -/
theorem ends_of_trimmed
    {text : List Char}
    (hNonempty : text ≠ [])
    (hTrimmed : trim text = text) :
    Ends text := by
  rcases List.eq_nil_or_concat text with
    rfl | ⟨front, c, hText⟩
  · exact absurd rfl hNonempty
  · rw [List.concat_eq_append] at hText
    refine ⟨front, c, hText, ?_⟩
    rw [← Bool.not_eq_true]
    intro hBlank
    have hBack : Blank [c] := by
      simpa [Blank] using hBlank
    have hShort : (trim text).length ≤ front.length := by
      rw [hText, trim_append_of_blank hBack]
      calc
        (trim front).length ≤ (trimStart front).length :=
          length_trimEnd_le _
        _ ≤ front.length := length_trimStart_le _
    rw [hTrimmed, hText, List.length_append,
      List.length_singleton] at hShort
    omega

/- After trimming, neither end of the text is blank. -/
theorem isBlank_head_trim
    {text : List Char}
    {c : Char}
    (hHead : (trim text).head? = some c) :
    isBlank c = false := by
  rcases List.head?_eq_some_iff.mp hHead with ⟨rest, hText⟩
  have hStart := trimStart_of_trimmed (trim_trim text)
  exact isBlank_head_trimStart (hStart.trans hText)

theorem isBlank_getLast_trim
    {text : List Char}
    {c : Char}
    (hLast : (trim text).getLast? = some c) :
    isBlank c = false := by
  have hNonempty : trim text ≠ [] := by
    intro hEmpty
    rw [hEmpty] at hLast
    cases hLast
  rcases ends_of_trimmed hNonempty (trim_trim text) with
    ⟨front, last, hText, hVisible⟩
  rw [hText, List.getLast?_concat] at hLast
  cases hLast
  exact hVisible

------------------------------------------------------------
-- Digits
------------------------------------------------------------

/- What holds of the ten digits holds of each digit. -/
theorem forall_isDigit
    {p : Char → Prop}
    (hDigits : ∀ code ∈ List.range' 48 10,
      p (Char.ofNat code))
    {c : Char}
    (hDigit : c.isDigit = true) :
    p c := by
  have hRange : 48 ≤ c.toNat ∧ c.toNat ≤ 57 := by
    simpa [Char.isDigit, UInt32.le_iff_toNat_le] using hDigit
  have hCode := hDigits c.toNat
    (List.mem_range'_1.mpr (by omega))
  rw [Char.ofNat_toNat] at hCode
  exact hCode

/- Hexadecimal digits denote the number they come from. -/
theorem hexDigitValue_digitChar :
    ∀ digit < 16,
      hexDigitValue (Nat.digitChar digit) = digit := by
  decide

theorem isHexDigit_digitChar :
    ∀ digit < 16, isHexDigit (Nat.digitChar digit) = true := by
  decide

theorem isHexDigit_of_mem_toDigits
    {n : Nat}
    {c : Char}
    (hMember : c ∈ Nat.toDigits 16 n) :
    isHexDigit c = true := by
  induction n using Nat.strongRecOn with
  | ind n ih =>
      by_cases hLess : n < 16
      · rw [Nat.toDigits_of_lt_base hLess,
          List.mem_singleton] at hMember
        rw [hMember]
        exact isHexDigit_digitChar n hLess
      · rw [Nat.toDigits_of_base_le (by decide) (by omega),
          List.mem_append, List.mem_singleton] at hMember
        rcases hMember with hFront | rfl
        · exact ih (n / 16) (by omega) hFront
        · exact isHexDigit_digitChar _ (by omega)

/- Hexadecimal notation is read back. -/
theorem hexValue_toDigits
    (n : Nat) :
    hexValue (Nat.toDigits 16 n) = n := by
  induction n using Nat.strongRecOn with
  | ind n ih =>
      by_cases hLess : n < 16
      · rw [Nat.toDigits_of_lt_base hLess]
        unfold hexValue
        rw [List.foldl_cons, List.foldl_nil,
          hexDigitValue_digitChar n hLess]
        omega
      · have hFront := ih (n / 16) (by omega)
        rw [Nat.toDigits_of_base_le (by decide) (by omega)]
        unfold hexValue at hFront ⊢
        rw [List.foldl_append, hFront, List.foldl_cons,
          List.foldl_nil,
          hexDigitValue_digitChar _ (by omega)]
        omega

end Text

end Marginalia
