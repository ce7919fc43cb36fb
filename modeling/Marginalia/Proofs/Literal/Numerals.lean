import Marginalia.Proofs.Numerals
import Marginalia.Proofs.Literal.Whole

/-
  Reading integers into the integer types: exactly the decimal
  numerals of the members of a type are read, each one as the
  number that it denotes.

  Key definitions include:
    * `IntegerText`
    * `Literal.Writes`

  Main statements:
    * `Literal.fillInteger_writes`
    * `Literal.onlyTakes_fillInteger`
    * `Target.read_integer`
-/

namespace Marginalia

------------------------------------------------------------
-- Integers as Texts
------------------------------------------------------------

/-
  The text is a decimal numeral that denotes the integer. A
  minus sign may stand before the digits if signs are allowed.
-/
inductive IntegerText
    (signed : Bool) :
    List Char → Int → Prop
  | plain
      {digits : List Char}
      {n : Nat}
      (hDigits : Text.Numeral 10 digits n) :
      IntegerText signed digits n
  | minus
      {digits : List Char}
      {n : Nat}
      (hSigned : signed = true)
      (hDigits : Text.Numeral 10 digits n) :
      IntegerText signed ('-' :: digits) (-n)

namespace Literal

/- A run of decimal digits, of which there is at least one. -/
structure Digits
    (digits : List Char) : Prop where
  nonempty : digits ≠ []
  all : ∀ c ∈ digits, c.isDigit = true

/- Digits after a minus sign or none. -/
def signedDigits
    (negative : Bool)
    (digits : List Char) : List Char :=
  (if negative then ['-'] else []) ++ digits

/- The text begins with digits, which may have a sign. -/
def BeginsWithInteger
    (signed : Bool)
    (text rest : List Char) : Prop :=
  ∃ negative digits,
    (negative = true → signed = true) ∧
      Digits digits ∧
        text = signedDigits negative digits ++ rest

/- The text of an integer is nothing but digits and a sign. -/
theorem exists_integerText_iff
    {signed : Bool}
    {text : List Char} :
    (∃ n, IntegerText signed text n) ↔
      BeginsWithInteger signed text [] := by
  constructor
  · rintro ⟨n, hText⟩
    cases hText with
    | plain hDigits =>
        have hForm := Text.numeral_ten_iff.mp hDigits
        exact ⟨false, _, nofun, ⟨hForm.1, hForm.2.1⟩,
          (List.append_nil _).symm⟩
    | minus hSigned hDigits =>
        have hForm := Text.numeral_ten_iff.mp hDigits
        exact ⟨true, _, fun _ => hSigned,
          ⟨hForm.1, hForm.2.1⟩, (List.append_nil _).symm⟩
  · rintro ⟨negative, digits, hSigned, hDigits, rfl⟩
    have hNumeral :=
      Text.numeral_ten_iff.mpr
        ⟨hDigits.nonempty, hDigits.all, rfl⟩
    rw [List.append_nil]
    cases negative with
    | false => exact ⟨_, .plain hNumeral⟩
    | true => exact ⟨_, .minus (hSigned rfl) hNumeral⟩

/- The integer of a text is the one that its digits denote. -/
theorem exists_signedValue
    {signed : Bool}
    {text : List Char}
    {n : Int}
    (hText : IntegerText signed text n) :
    ∃ negative digits,
      (negative = true → signed = true) ∧
        Digits digits ∧
          text = signedDigits negative digits ∧
            n = signedValue negative digits := by
  cases hText with
  | plain hDigits =>
      rcases Text.numeral_ten_iff.mp hDigits with
        ⟨hNonempty, hAll, rfl⟩
      exact ⟨false, _, nofun, ⟨hNonempty, hAll⟩, rfl, rfl⟩
  | minus hSigned hDigits =>
      rcases Text.numeral_ten_iff.mp hDigits with
        ⟨hNonempty, hAll, rfl⟩
      exact ⟨true, _, fun _ => hSigned, ⟨hNonempty, hAll⟩,
        rfl, rfl⟩

------------------------------------------------------------
-- Writing
------------------------------------------------------------

/-
  How writing an integer to an integer type ends: a member is
  written, and another one is reported as too wide, with its
  literal and the place of it.
-/
structure Writes
    (type : IntType)
    (n : Int)
    (literal : String)
    (start : Nat)
    (cursor : Cursor)
    (run :
      EStateM.Result ReadError (Cursor × type.Member) Unit) :
    Prop where
  member :
    ∀ hMember : type.low ≤ n ∧ n ≤ type.high,
      run = .ok () (cursor, ⟨n, hMember⟩)
  beyond :
    ¬ (type.low ≤ n ∧ n ≤ type.high) →
      ∃ word state,
        run = .error (.overflow literal (.word word) start)
          state

variable {type : IntType}

theorem setMember_writes
    (n : Int)
    (literal : String)
    (start : Nat)
    (cursor : Cursor)
    (content : type.Member) :
    Writes type n literal start cursor
      (Fill.store (Target.setMember type n) literal start
        (cursor, content)) := by
  constructor
  · intro hMember
    rw [Fill.run_store, setMember_of_member hMember]
  · intro hBeyond
    rw [Fill.run_store, setMember_of_beyond hBeyond]
    exact ⟨type, (cursor, content), rfl⟩

-- The words below are variables: reduction must not meet the
-- powers of two by which a word of an integer is computed.

theorem setSigned_writes
    {value : Int64}
    {n : Int}
    (hValue : value.toInt = n)
    (literal : String)
    (start : Nat)
    (cursor : Cursor)
    (content : type.Member) :
    Writes type n literal start cursor
      (Fill.store (Target.setSigned (.int type) value) literal
        start (cursor, content)) := by
  subst hValue
  exact setMember_writes _ literal start cursor content

theorem setUnsigned_writes
    {value : UInt64}
    {n : Nat}
    (hValue : value.toNat = n)
    (literal : String)
    (start : Nat)
    (cursor : Cursor)
    (content : type.Member) :
    Writes type n literal start cursor
      (Fill.store (Target.setUnsigned (.int type) value)
        literal start (cursor, content)) := by
  subst hValue
  exact setMember_writes _ literal start cursor content

/- Every member of a type with a sign has 64 bits. -/
theorem storeSigned_writes
    (hSigned : type.signed = true)
    (negative : Bool)
    (digits : List Char)
    (start : Nat)
    (cursor : Cursor)
    (content : type.Member) :
    Writes type (signedValue negative digits)
      (signedText negative digits) start cursor
      (storeSigned (.int type) negative digits start
        (cursor, content)) := by
  unfold storeSigned
  by_cases hFits :
    fitsSigned 64 (signedValue negative digits) = true
  · rw [if_pos hFits]
    exact setSigned_writes (toInt_ofInt_of_fits hFits) _ start
      cursor content
  · rw [if_neg hFits]
    refine ⟨?_, fun _ => ⟨.i64, (cursor, content), rfl⟩⟩
    intro hMember
    exact absurd
      ((Target.fits_of_member hMember).1 hSigned) hFits

/- Every member of a type without a sign has 64 bits. -/
theorem storeUnsigned_writes
    (hSigned : type.signed = false)
    (digits : List Char)
    (start : Nat)
    (cursor : Cursor)
    (content : type.Member) :
    Writes type (decimalValue digits) (String.ofList digits)
      start cursor
      (storeUnsigned (.int type) digits start
        (cursor, content)) := by
  unfold storeUnsigned
  by_cases hFits :
    fitsUnsigned 64 (decimalValue digits) = true
  · rw [if_pos hFits]
    exact setUnsigned_writes (toNat_ofNat_of_fits hFits) _
      start cursor content
  · rw [if_neg hFits]
    refine ⟨?_, fun _ => ⟨.u64, (cursor, content), rfl⟩⟩
    intro hMember
    exact absurd
      ((Target.fits_of_member hMember).2 hSigned) hFits

------------------------------------------------------------
-- Reading
------------------------------------------------------------

/- The kind of the integers of a type. -/
def integerKind
    (type : IntType) : Kind :=
  if type.signed then .signed else .unsigned

/- The grammar of the integers of a type. -/
def fillInteger
    (type : IntType) :
    Fill (Target.int type).Content Unit :=
  if type.signed then
    fillSigned (.int type)
  else
    fillUnsigned (.int type)

theorem Digits.exists_cons
    {digits : List Char}
    (hDigits : Digits digits) :
    ∃ c tail, digits = c :: tail ∧ c.isDigit = true := by
  rcases List.exists_cons_of_ne_nil hDigits.nonempty with
    ⟨c, tail, rfl⟩
  exact ⟨c, tail, rfl, hDigits.all c List.mem_cons_self⟩

theorem Digits.head_ne_minus
    {digits : List Char}
    (hDigits : Digits digits)
    (rest : List Char) :
    (digits ++ rest).head? ≠ some '-' := by
  rcases hDigits.exists_cons with ⟨c, tail, rfl, hDigit⟩
  rintro ⟨⟩
  exact absurd hDigit (by decide)

theorem Digits.ends
    {digits : List Char}
    (hDigits : Digits digits)
    (negative : Bool) :
    Text.Ends (signedDigits negative digits) := by
  rcases List.eq_nil_or_concat digits with
    rfl | ⟨front, c, rfl⟩
  · exact absurd rfl hDigits.nonempty
  · rw [List.concat_eq_append] at hDigits ⊢
    have hLast : c.isDigit = true := hDigits.all c (by simp)
    have hOwn : Text.Ends (front ++ [c]) :=
      ⟨front, c, rfl, Text.forall_isDigit
        (p := fun c => Text.isBlank c = false) (by decide)
        hLast⟩
    exact hOwn.append _

theorem Digits.isEmpty_ne
    {digits : List Char}
    (hDigits : Digits digits) :
    digits.isEmpty ≠ true := by
  rw [ne_eq, List.isEmpty_iff]
  exact hDigits.nonempty

theorem Digits.takes
    {digits rest : List Char}
    (hDigits : Digits digits)
    (hRest : ∀ c, rest.head? = some c → isDigit c = false) :
    Scan.Takes (Scan.takeWhile isDigit) (digits ++ rest)
      digits rest :=
  .takeWhile_append hDigits.all hRest

/- A minus sign is taken where there is one. -/
theorem Digits.takes_sign
    {digits : List Char}
    (hDigits : Digits digits)
    (negative : Bool)
    (rest : List Char) :
    Scan.Takes (Scan.eat '-')
      (signedDigits negative digits ++ rest) negative
      (digits ++ rest) := by
  cases negative with
  | true => exact .eat
  | false => exact .eat_other (hDigits.head_ne_minus rest)

/- What follows a reading action that succeeds. -/
theorem run_lift_bind
    {δ α β : Type}
    {first : Scan α}
    {next : α → Fill δ β}
    {cursor cursor' : Cursor}
    {result : α}
    (hFirst : first cursor = .ok result cursor')
    (content : δ) :
    ((liftM first : Fill δ α) >>= next) (cursor, content) =
      next result (cursor', content) := by
  rw [run_bind, Fill.run_lift, hFirst]

section Runs

variable {negative : Bool}
variable {digits rest : List Char}
variable {cursor : Cursor}

/- Digits with a sign are read up to what is no digit. -/
theorem run_fillSigned
    (hDigits : Digits digits)
    (hRest : ∀ c, rest.head? = some c → isDigit c = false)
    (hAhead :
      cursor.ahead = signedDigits negative digits ++ rest)
    (target : Target)
    (content : target.Content) :
    ∃ cursor',
      cursor'.ahead = rest ∧
        fillSigned target (cursor, content) =
          storeSigned target negative digits cursor.position
            (cursor', content) := by
  rcases hDigits.takes_sign negative rest cursor hAhead with
    ⟨middle, hSign, hMiddle⟩
  rcases hDigits.takes hRest middle hMiddle with
    ⟨cursor', hTaken, hAfter⟩
  refine ⟨cursor', hAfter, ?_⟩
  rw [fillSigned_eq, run_lift_bind (Scan.run_position _),
    run_lift_bind hSign, run_lift_bind (Scan.run_position _),
    run_lift_bind hTaken, if_neg hDigits.isEmpty_ne]

/- Digits without a sign are read up to what is no digit. -/
theorem run_fillUnsigned
    (hDigits : Digits digits)
    (hRest : ∀ c, rest.head? = some c → isDigit c = false)
    (hAhead : cursor.ahead = digits ++ rest)
    (target : Target)
    (content : target.Content) :
    ∃ cursor',
      cursor'.ahead = rest ∧
        fillUnsigned target (cursor, content) =
          storeUnsigned target digits cursor.position
            (cursor', content) := by
  rcases hDigits.takes hRest cursor hAhead with
    ⟨cursor', hTaken, hAfter⟩
  have hPeek : cursor.peek ≠ some '-' := by
    unfold Cursor.peek
    rw [hAhead]
    exact hDigits.head_ne_minus rest
  refine ⟨cursor', hAfter, ?_⟩
  rw [fillUnsigned_eq, run_lift_bind (Scan.run_position _),
    run_lift_bind (Scan.run_peek _), if_neg hPeek,
    run_lift_bind hTaken, if_neg hDigits.isEmpty_ne]

/-
  Digits with a sign, where signs are allowed, are written or
  reported as the integer that they denote.
-/
theorem fillInteger_writes
    (hSign : negative = true → type.signed = true)
    (hDigits : Digits digits)
    (hRest : ∀ c, rest.head? = some c → isDigit c = false)
    (hAhead :
      cursor.ahead = signedDigits negative digits ++ rest)
    (content : type.Member) :
    ∃ cursor',
      cursor'.ahead = rest ∧
        Writes type (signedValue negative digits)
          (String.ofList (signedDigits negative digits))
          cursor.position cursor'
          (fillInteger type (cursor, content)) := by
  unfold fillInteger
  cases hSigned : type.signed with
  | true =>
      rcases run_fillSigned hDigits hRest hAhead (.int type)
        content with ⟨cursor', hAfter, hRun⟩
      refine ⟨cursor', hAfter, ?_⟩
      rw [if_pos rfl, hRun]
      exact storeSigned_writes hSigned negative digits _
        cursor' content
  | false =>
      have hNone : negative = false := by
        rw [← Bool.not_eq_true]
        intro hNegative
        rw [hSign hNegative] at hSigned
        cases hSigned
      subst hNone
      rcases run_fillUnsigned hDigits hRest hAhead (.int type)
        content with ⟨cursor', hAfter, hRun⟩
      refine ⟨cursor', hAfter, ?_⟩
      rw [if_neg Bool.false_ne_true, hRun]
      exact storeUnsigned_writes hSigned digits _ cursor'
        content

end Runs

/- A run of characters that are digits. -/
theorem digits_takeWhile
    {text : List Char}
    (hSome : ¬ (text.takeWhile isDigit).isEmpty = true) :
    Digits (text.takeWhile isDigit) := by
  rw [List.isEmpty_iff] at hSome
  exact ⟨hSome, fun c hMember =>
    List.mem_takeWhile_imp hMember⟩

/- Writing an integer takes nothing. -/
theorem onlyTakes_storeSigned
    {target : Target}
    {negative : Bool}
    {digits before : List Char}
    {start : Nat}
    {post : List Char → Prop}
    (hPost : post before) :
    OnlyTakes Prod.fst
      (storeSigned target negative digits start) before
      fun _ after => post after := by
  unfold storeSigned
  split
  · exact .store fun _ => hPost
  · exact .throw _

theorem onlyTakes_storeUnsigned
    {target : Target}
    {digits before : List Char}
    {start : Nat}
    {post : List Char → Prop}
    (hPost : post before) :
    OnlyTakes Prod.fst (storeUnsigned target digits start)
      before fun _ after => post after := by
  unfold storeUnsigned
  split
  · exact .store fun _ => hPost
  · exact .throw _

/- Nothing else than digits after a sign or none is read. -/
theorem onlyTakes_fillInteger
    (before : List Char) :
    OnlyTakes Prod.fst (fillInteger type) before
      fun _ after =>
        BeginsWithInteger type.signed before after := by
  unfold fillInteger
  cases hSigned : type.signed with
  | true =>
      rw [if_pos rfl, fillSigned_eq]
      refine .positionFill fun start => ?_
      have hSign :
          OnlyTakes id (Scan.eat '-') before
            fun negative after =>
              before = signedDigits negative after := by
        refine OnlyTakes.eat.imp fun negative after hEaten => ?_
        cases negative with
        | true => exact hEaten
        | false => exact hEaten.1.symm
      refine .read hSign fun negative after hBefore => ?_
      refine .positionFill fun digitsStart => ?_
      refine .takesFill (.takeWhile _) ?_
      refine .ite (fun _ => .lift (.unexpected _ _))
        fun hSome => ?_
      refine onlyTakes_storeSigned ⟨negative, _, fun _ => rfl,
        digits_takeWhile hSome, ?_⟩
      unfold signedDigits at hBefore ⊢
      rw [List.append_assoc, List.takeWhile_append_dropWhile]
      exact hBefore
  | false =>
      rw [if_neg Bool.false_ne_true, fillUnsigned_eq]
      refine .positionFill fun start => ?_
      refine .takesFill .peek ?_
      refine .ite (fun _ => .lift (.unexpected _ _)) fun _ => ?_
      refine .takesFill (.takeWhile _) ?_
      refine .ite (fun _ => .lift (.unexpected _ _))
        fun hSome => ?_
      refine onlyTakes_storeUnsigned ⟨false, _, nofun,
        digits_takeWhile hSome, ?_⟩
      unfold signedDigits
      rw [List.append_assoc, List.takeWhile_append_dropWhile]
      rfl

end Literal

namespace Target

open Literal

variable {type : IntType}
variable {text : String}

------------------------------------------------------------
-- Integer Types
------------------------------------------------------------

theorem ofShape_int
    (type : IntType) :
    Descriptor.ofShape (Target.int type).shape =
      .ok (.plain (integerKind type)) := by
  cases type <;> rfl

theorem fill_int
    (type : IntType)
    (frame : Frame) :
    Descriptor.fill (σ := Cursor)
        (.plain (integerKind type)) frame (.int type) = (do
      Scan.skipBlanks (σ := Cursor)
      fillInteger type) := by
  rw [Descriptor.fill_eq]
  unfold integerKind fillInteger
  cases type.signed <;> rfl

/- Where the text begins that is left of it without blanks. -/
def trimmedStart
    (text : String) : Nat :=
  Text.byteLength (text.toList.takeWhile Text.isBlank)

/-
  The text of an integer is read as this integer if it is a
  member of the type, or else reported at its place.
-/
theorem read_of_integerText
    {n : Int}
    (hText :
      IntegerText type.signed (Text.trim text.toList) n) :
    (∀ hMember : type.low ≤ n ∧ n ≤ type.high,
      Target.read (.int type) text = .ok ⟨n, hMember⟩) ∧
      (¬ (type.low ≤ n ∧ n ≤ type.high) →
        ∃ word,
          Target.read (.int type) text =
            .error (.overflow
              (String.ofList (Text.trim text.toList))
              (.word word) (trimmedStart text))) := by
  rcases exists_signedValue hText with
    ⟨negative, digits, hSign, hDigits, hTrim, rfl⟩
  rcases Text.exists_trimEnd_append_blank
    (Text.trimStart text.toList) with
    ⟨blanks, hBlanks, hSplit⟩
  have hAhead :
      (Cursor.ofText text).skipBlanks.ahead =
        signedDigits negative digits ++ blanks := by
    rw [← hTrim]
    exact hSplit
  have hStart :
      (Cursor.ofText text).skipBlanks.position =
        trimmedStart text :=
    Nat.zero_add _
  have hNoDigit :
      ∀ c, blanks.head? = some c → isDigit c = false := by
    intro c hHead
    exact Text.isDigit_of_isBlank
      (hBlanks c (List.mem_of_head? hHead))
  rcases fillInteger_writes hSign hDigits hNoDigit hAhead
    type.zero with ⟨cursor, hAfter, hWrites⟩
  rw [hStart, ← hTrim] at hWrites
  have hRun :
      Descriptor.fill (.plain (integerKind type)) .whole
          (.int type) (.ofText text, type.zero) =
        fillInteger type
          ((Cursor.ofText text).skipBlanks, type.zero) := by
    rw [fill_int]
    rfl
  constructor
  · intro hMember
    apply (read_eq_ok_iff (ofShape_int type)).mpr
    rw [hWrites.member hMember] at hRun
    refine Descriptor.read_of_run hRun ?_
    rw [hAfter]
    exact hBlanks
  · intro hBeyond
    rcases hWrites.beyond hBeyond with ⟨word, state, hError⟩
    rw [hError] at hRun
    exact ⟨word, read_eq_error (ofShape_int type)
      (Descriptor.read_of_error hRun)⟩

/- Only texts of integers are read. -/
theorem exists_integerText_of_read
    {member : type.Member}
    (hRead : Target.read (.int type) text = .ok member) :
    ∃ n,
      IntegerText type.signed (Text.trim text.toList) n := by
  have hFill :
      OnlyTakes Prod.fst
        (Descriptor.fill (.plain (integerKind type)) .whole
          (.int type))
        text.toList fun _ after =>
          BeginsWithInteger type.signed
            (Text.trimStart text.toList) after := by
    rw [fill_int]
    exact .takesFill .skipBlanks (onlyTakes_fillInteger _)
  have hResult :=
    (read_eq_ok_iff (ofShape_int type)).mp hRead
  rcases Descriptor.read_eq_ok hFill hResult.1 with
    ⟨after, ⟨negative, digits, hSign, hDigits, hText⟩,
      hBlank⟩
  refine exists_integerText_iff.mpr
    ⟨negative, digits, hSign, hDigits, ?_⟩
  have hEnds := hDigits.ends negative
  unfold Text.trim
  rw [hText, Text.trimEnd_append_of_blank hBlank,
    hEnds.trimEnd, List.append_nil]

/-
  Reading a text into an integer type. Exactly the texts of
  its members are read, as the integers they denote; the text
  of an integer out of range is reported with its place, and
  any other text is an error. Blanks at the ends do not count.
-/
theorem read_integer
    (type : IntType)
    (text : String) :
    (∀ member : type.Member,
      Target.read (.int type) text = .ok member ↔
        IntegerText type.signed (Text.trim text.toList)
          member.val) ∧
      (∀ n,
        IntegerText type.signed (Text.trim text.toList) n →
          ¬ (type.low ≤ n ∧ n ≤ type.high) →
            ∃ word,
              Target.read (.int type) text =
                .error (.overflow
                  (String.ofList (Text.trim text.toList))
                  (.word word) (trimmedStart text))) ∧
      ((∀ n,
          ¬ IntegerText type.signed
            (Text.trim text.toList) n) →
        ∃ error,
          Target.read (.int type) text = .error error) := by
  refine ⟨?_, ?_, ?_⟩
  · intro member
    constructor
    · intro hRead
      rcases exists_integerText_of_read hRead with ⟨n, hText⟩
      have hOutcome := read_of_integerText hText
      by_cases hMember : type.low ≤ n ∧ n ≤ type.high
      · rw [hOutcome.1 hMember] at hRead
        cases hRead
        exact hText
      · rcases hOutcome.2 hMember with ⟨word, hError⟩
        rw [hError] at hRead
        cases hRead
    · intro hText
      exact (read_of_integerText hText).1 member.property
  · intro n hText
    exact (read_of_integerText hText).2
  · intro hForm
    cases hRead : Target.read (.int type) text with
    | ok member =>
        rcases exists_integerText_of_read hRead with ⟨n, hText⟩
        exact absurd hText (hForm n)
    | error error => exact ⟨error, rfl⟩

/- A member with a zero in front, and a number too large. -/
theorem read_integer_narrow :
    (∃ member : IntType.i8.Member,
      member.val = -128 ∧
        Target.read (.int .i8) " -0128 " = .ok member) ∧
      ∃ word,
        Target.read (.int .u8) " 300" =
          .error (.overflow "300" (.word word) 1) := by
  have hMember :
      IntegerText true (Text.trim " -0128 ".toList) (-128) :=
    .minus rfl ⟨1, by decide⟩
  have hBeyond :
      IntegerText false (Text.trim " 300".toList) 300 :=
    .plain ⟨0, by decide⟩
  constructor
  · refine ⟨⟨-128, by decide⟩, rfl, ?_⟩
    exact ((read_integer .i8 " -0128 ").1 _).mpr hMember
  · exact (read_integer .u8 " 300").2.1 300 hBeyond
      (by decide)

end Target

end Marginalia
