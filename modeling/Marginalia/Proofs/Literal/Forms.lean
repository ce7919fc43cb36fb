import Marginalia.Proofs.Moves
import Marginalia.Literal.Grammar

/-
  The grammars in the forms that proofs use: the rounds of
  their loops have names, and nothing follows a failure.

  Key definitions include:
    * `Fill.closing`
    * `Fill.groupRound`
    * `Literal.quotedRound`
    * `Literal.balancedRound`
    * `Literal.sliceRound`
    * `Literal.fillUnder`
    * `Literal.storeBool`
    * `Literal.runRound`
    * `Literal.inferGroup`
    * `Literal.storeSigned`
    * `Literal.storeUnsigned`

  Main statements:
    * `Fill.group_eq`
    * `Literal.fillSlice_eq`
    * `Literal.fillMap_eq`
    * `Literal.fillEntry_eq`
-/

namespace Marginalia

variable {σ δ : Type}
variable [Reader σ]

namespace Fill

------------------------------------------------------------
-- Groups
------------------------------------------------------------

/- What follows an element, and whether that is another. -/
def closing
    (start : Nat) : Filling σ δ Bool := do
  Scan.skipBlanks (σ := σ)
  match ← Scan.peek (σ := σ) with
  | some ',' =>
      Scan.skip (σ := σ)
      return true
  | some '}' =>
      Scan.skip (σ := σ)
      return false
  | none => throw (.unterminated .group start)
  | some _ =>
      let place ← Scan.position (σ := σ)
      Scan.unexpected (σ := σ) .commaOrBrace place

/- One element of a group and what follows it. -/
def groupRound
    (element : Filling σ δ Unit)
    (start : Nat) : Filling σ δ Bool := do
  Scan.skipBlanks (σ := σ)
  if (← Scan.peek (σ := σ)).isNone then
    throw (.unterminated .group start)
  else
    element
    closing start

/- A group is empty, or it is read round by round. -/
theorem group_eq
    (element : Filling σ δ Unit) :
    Fill.group element = (do
      let start ← Scan.position (σ := σ)
      Scan.skip (σ := σ)
      Scan.skipBlanks (σ := σ)
      if ← Scan.eat (σ := σ) '}' then
        return
      else
        loopWhile (groupRound element start)) := by
  have hRound :
      ∀ start,
        groupRound element start = (do
          Scan.skipBlanks (σ := σ)
          if (← Scan.peek (σ := σ)).isNone then
            throw (.unterminated .group start)
          element
          closing start) := by
    intro start
    funext ⟨place, content⟩
    unfold groupRound
    simp only [run_bind, run_lift]
    show
      (if (Reader.peek (Reader.skipBlanks place)).isNone then
        _
      else
        _ : Filling σ δ Bool) _ =
          (if (Reader.peek (Reader.skipBlanks place)).isNone
          then
            _
          else
            _ : Filling σ δ Bool) _
    split <;> rfl
  simp only [hRound]
  rfl

/- The end of a group is near, or there is an element. -/
theorem run_group
    (element : Fill δ Unit)
    (cursor : Cursor)
    (content : δ) :
    Fill.group element (cursor, content) =
      if cursor.advance.skipBlanks.peek = some '}' then
        .ok ()
          (cursor.advance.skipBlanks.advance, content)
      else
        loopWhile (groupRound element cursor.position)
          (cursor.advance.skipBlanks, content) := by
  have hRun :
      Fill.group element (cursor, content) =
        (do
          if ← Scan.eat (σ := Cursor) '}' then
            return
          else
            loopWhile (groupRound element cursor.position) :
          Fill δ Unit)
          (cursor.advance.skipBlanks, content) := by
    rw [group_eq]
    rfl
  rw [hRun, run_bind, run_lift, Scan.run_eat]
  by_cases hPeek :
    cursor.advance.skipBlanks.peek = some '}'
  · rw [if_pos hPeek, if_pos hPeek]
    rfl
  · rw [if_neg hPeek, if_neg hPeek]
    rfl

end Fill

namespace Literal

------------------------------------------------------------
-- Strings
------------------------------------------------------------

/- The round of the loop that reads a quoted string. -/
def quotedRound
    (start : Nat)
    (read : List Char) : Reading σ (Step (List Char) String) := do
  let place ← Scan.position
  match ← Scan.next with
  | none => throw (.unterminated .quoted start)
  | some '"' => return .done (String.ofList read.reverse)
  | some '\\' =>
      match ← Scan.next with
      | none => throw (.unterminated .quoted start)
      | some letter =>
          return .again ((← escape letter place) :: read)
  | some c => return .again (c :: read)

theorem quoted_eq :
    quoted (σ := σ) = (do
      let start ← Scan.position
      Scan.skip
      Scan.loop (quotedRound start) []) :=
  rfl

------------------------------------------------------------
-- Raw Text
------------------------------------------------------------

/-
  Pass what the character begins in raw text, at the depth of
  the groups that are open.
-/
def balancedStep
    (depth : Nat)
    (c : Char) : Reading σ (Step Nat Unit) :=
  match c with
  | '"' => do
      let _ ← quoted
      return .again depth
  | '`' => do
      let _ ← backtick
      return .again depth
  | '{' | '[' => do
      Scan.skip
      return .again (depth + 1)
  | '}' | ']' => do
      Scan.skip
      return .again (depth - 1)
  | _ => do
      Scan.skip
      return .again depth

/- The round of the loop that reads raw text. -/
def balancedRound
    (stops : List Char)
    (depth : Nat) : Reading σ (Step Nat Unit) := do
  match ← Scan.peek with
  | none => return .done ()
  | some c =>
      if depth = 0 && stops.contains c then
        return .done ()
      else
        balancedStep depth c

theorem balanced_eq
    (stops : List Char) :
    balanced (σ := σ) stops = (do
      let start ← get
      Scan.loop (balancedRound stops) 0
      return String.ofList
        (Text.trimEnd (← passedSince start))) :=
  rfl

------------------------------------------------------------
-- Slices and Maps
------------------------------------------------------------

/- One item of a run and whether another one follows. -/
def sliceRound
    (item : ItemReader σ)
    (frame : Frame)
    (target : Target) : Filling σ target.Content Bool := do
  fillItem item .run target
  Scan.skipBlanks (σ := σ)
  if frame = .run then
    return false
  else
    Scan.eat (σ := σ) ';'

/- A slice is a group, empty, or a run. -/
theorem fillSlice_eq
    (item : ItemReader σ)
    (frame : Frame)
    (target : Target) :
    fillSlice item frame target = (do
      let start ← Scan.position (σ := σ)
      Fill.store target.beginSlice "" start
      match ← Scan.peek (σ := σ) with
      | some '{' => Fill.group (fillItem item .group target)
      | none | some ',' | some '}' | some ']' => return
      | some _ =>
          Fill.loopWhile (sliceRound item frame target)) :=
  rfl

/- Renew the entry of a key and read into it. -/
def fillUnder
    (item : ItemReader σ)
    (target : Target)
    (key : String)
    (start : Nat) : Filling σ target.Content Unit := do
  let child ← Fill.store (target.mapEntry key) "" start
  Fill.within child (item .group child.inner)

/- A key without a colon is no entry. -/
theorem fillEntry_eq
    (item : ItemReader σ)
    (target : Target) :
    fillEntry item target = (do
      let keyStart ← Scan.position (σ := σ)
      let key ← string (σ := σ) keyStops
      Scan.skipBlanks (σ := σ)
      let colonStart ← Scan.position (σ := σ)
      if ← Scan.eat (σ := σ) ':' then
        fillUnder item target key keyStart
      else
        Scan.unexpected (σ := σ) (.character ':') colonStart) := by
  unfold fillEntry fillUnder
  simp only [Fill.unexpected_bind]

/- A map without a brace is none. -/
theorem fillMap_eq
    (item : ItemReader σ)
    (target : Target) :
    fillMap item target = (do
      let start ← Scan.position (σ := σ)
      if (← Scan.peek (σ := σ)) = some '{' then
        Fill.store target.beginMap "" start
        Fill.group (fillEntry item target)
      else
        Scan.unexpected (σ := σ) (.character '{') start) := by
  unfold fillMap
  simp only [Fill.unexpected_bind]

/- At a brace a map begins. -/
theorem run_fillMap
    (item : ItemReader)
    (target : Target)
    {cursor : Cursor}
    (hOpen : cursor.peek = some '{')
    (content : target.Content) :
    fillMap item target (cursor, content) =
      (do
        Fill.store target.beginMap "" cursor.position
        Fill.group (fillEntry item target) :
        Fill target.Content Unit) (cursor, content) := by
  have hRun :
      fillMap item target (cursor, content) =
        (if cursor.peek = some '{' then (do
          Fill.store target.beginMap "" cursor.position
          Fill.group (fillEntry item target) :
          Fill target.Content Unit)
        else
          Scan.unexpected (σ := Cursor) (.character '{')
            cursor.position)
          (cursor, content) := by
    rw [fillMap_eq]
    rfl
  rw [hRun, if_pos hOpen]

/- The place of an item decides how the item is read. -/
theorem run_fillItem
    (item : ItemReader)
    (frame : Frame)
    (target : Target)
    (cursor : Cursor)
    (content : target.Content) :
    fillItem item frame target (cursor, content) =
      match target.nextItem content with
      | .ok child =>
          Fill.within child (item frame child.inner)
            (cursor, child.put child.inner.fresh)
      | .error rejection =>
          .error (rejection.error "" cursor.position)
            (cursor, content) := by
  unfold fillItem Target.pushItem Target.enter
  simp only [run_bind, Fill.run_lift, Scan.run_position,
    Fill.run_store, run_get]
  cases target.nextItem content with
  | ok child => rfl
  | error rejection => rfl

/- The place under a key decides how what follows is read. -/
theorem run_fillUnder
    (item : ItemReader)
    (target : Target)
    (key : String)
    (start : Nat)
    (cursor : Cursor)
    (content : target.Content) :
    fillUnder item target key start (cursor, content) =
      match target.entryOf key content with
      | .ok child =>
          Fill.within child (item .group child.inner)
            (cursor, child.put child.inner.fresh)
      | .error rejection =>
          .error (rejection.error "" start)
            (cursor, content) := by
  unfold fillUnder Target.mapEntry Target.enter
  simp only [run_bind, Fill.run_store, run_get]
  cases target.entryOf key content with
  | ok child => rfl
  | error rejection => rfl

/- The place after the items of a slice that is a value. -/
def itemPlace
    (items : List Value) : Child .dynamic :=
  ⟨.dynamic, fun (value : Value) =>
    Value.slice (items ++ [value])⟩

/- The place under a key of a map that is a value. -/
def entryPlace
    (key : String)
    (entries : List (String × Value)) : Child .dynamic :=
  ⟨.dynamic, fun (value : Value) =>
    Value.map (insertByKey key value entries)⟩

/- A value has a place for an item if it is a slice. -/
theorem nextItem_dynamic
    (content : Value) :
    (∃ items,
      Target.nextItem .dynamic content =
        .ok (itemPlace items)) ∨
      ∃ destination offer,
        Target.nextItem .dynamic content =
          .error (.mismatch destination offer) := by
  cases content with
  | slice items => exact Or.inl ⟨items, rfl⟩
  | _ => exact Or.inr ⟨_, _, rfl⟩

/- A value has a place under a key if it is a map. -/
theorem entryOf_dynamic
    (key : String)
    (content : Value) :
    (∃ entries,
      Target.entryOf .dynamic key content =
        .ok (entryPlace key entries)) ∨
      ∃ destination offer,
        Target.entryOf .dynamic key content =
          .error (.mismatch destination offer) := by
  cases content with
  | map entries => exact Or.inl ⟨entries, rfl⟩
  | _ => exact Or.inr ⟨_, _, rfl⟩

------------------------------------------------------------
-- Scalars
------------------------------------------------------------

/- Write the truth value that a word denotes. -/
def storeBool
    (target : Target)
    (word : String)
    (start : Nat) : Filling σ target.Content Unit :=
  match word with
  | "true" => Fill.store (target.setBool true) word start
  | "false" => Fill.store (target.setBool false) word start
  | "" => Scan.unexpected (σ := σ) .boolean start
  | _ => Scan.wrong (σ := σ) .boolean word start

/- The integer that digits after an optional sign denote. -/
def signedValue
    (negative : Bool)
    (digits : List Char) : Int :=
  if negative then
    -(decimalValue digits : Int)
  else
    decimalValue digits

/- Digits after an optional sign. -/
def signedText
    (negative : Bool)
    (digits : List Char) : String :=
  String.ofList ((if negative then ['-'] else []) ++ digits)

-- The two actions below must not be unfolded by reduction,
-- which would count up to the powers of two that they test.

/- Write an integer with a sign, if it has 64 bits. -/
@[irreducible]
def storeSigned
    (target : Target)
    (negative : Bool)
    (digits : List Char)
    (start : Nat) : Filling σ target.Content Unit :=
  if fitsSigned 64 (signedValue negative digits) then
    Fill.store
      (target.setSigned
        (Int64.ofInt (signedValue negative digits)))
      (signedText negative digits) start
  else
    throw (.overflow (signedText negative digits)
      (.word .i64) start)

/- Write an integer without a sign, if it has 64 bits. -/
@[irreducible]
def storeUnsigned
    (target : Target)
    (digits : List Char)
    (start : Nat) : Filling σ target.Content Unit :=
  if fitsUnsigned 64 (decimalValue digits) then
    Fill.store
      (target.setUnsigned
        (UInt64.ofNat (decimalValue digits)))
      (String.ofList digits) start
  else
    throw (.overflow (String.ofList digits)
      (.word .u64) start)

/- A truth value is a word. -/
theorem fillBool_eq
    (target : Target) :
    fillBool (σ := σ) target = (do
      let start ← Scan.position (σ := σ)
      let word ← Scan.word (σ := σ)
      storeBool target (String.ofList word) start) :=
  rfl

/- A sign without digits is no integer. -/
theorem fillSigned_eq
    (target : Target) :
    fillSigned (σ := σ) target = (do
      let start ← Scan.position (σ := σ)
      let negative ← Scan.eat (σ := σ) '-'
      let digitsStart ← Scan.position (σ := σ)
      let digits ← Scan.takeWhile (σ := σ) isDigit
      if digits.isEmpty then
        Scan.unexpected (σ := σ) .digits digitsStart
      else
        storeSigned target negative digits start) := by
  unfold fillSigned storeSigned signedText signedValue
  simp only [Fill.unexpected_bind]

/- A sign is not part of an integer that must have none. -/
theorem fillUnsigned_eq
    (target : Target) :
    fillUnsigned (σ := σ) target = (do
      let start ← Scan.position (σ := σ)
      if (← Scan.peek (σ := σ)) = some '-' then
        Scan.unexpected (σ := σ) .unsignedInteger start
      else
        let digits ← Scan.takeWhile (σ := σ) isDigit
        if digits.isEmpty then
          Scan.unexpected (σ := σ) .digits start
        else
          storeUnsigned target digits start) := by
  unfold fillUnsigned storeUnsigned
  simp only [Fill.unexpected_bind]

------------------------------------------------------------
-- Inference
------------------------------------------------------------

/- The reader of items whose form is found out. -/
def anyItem
    (depth : Nat) : ItemReader σ :=
  fun frame target => do
    Scan.skipBlanks (σ := σ)
    fillAny (inferElement depth) frame target

/- One more element of a run, if a `;` stands before it. -/
def runRound
    (element : Reading σ Value)
    (items : List Value) :
    Reading σ (Step (List Value) Value) := do
  if ← Scan.eat ';' then
    let item ← element
    Scan.skipBlanks
    return .again (item :: items)
  else
    return .done (.slice items.reverse)

/- A group is a map if it has a colon at its top level. -/
def inferGroup
    (item : ItemReader σ) : Reading σ Value := do
  if ← Scan.hasTopLevel ':' then
    Fill.collect (δ := Target.dynamic.Content) Value.null
      (fillMap item .dynamic)
  else
    Fill.collect (δ := Target.dynamic.Content) Value.null
      (fillSlice item .group .dynamic)

theorem inferElement_succ
    (depth : Nat) :
    inferElement (σ := σ) (depth + 1) = (do
      Scan.skipBlanks
      match ← Scan.peek with
      | some '{' => inferGroup (anyItem depth)
      | some '"' => return .string (← quoted)
      | some '`' => return .string (← backtick)
      | _ =>
          let start ← Scan.position
          let token ← bare Scan.delimiters
          inferToken token start) := by
  have hGroup :
      inferGroup (σ := σ) (anyItem depth) = (do
        Fill.collect Value.null
          (if ← Scan.hasTopLevel ':' then
            fillMap (anyItem depth) .dynamic
          else
            fillSlice (anyItem depth) .group .dynamic)) := by
    funext place
    unfold inferGroup
    rw [run_bind, run_bind]
    cases Scan.hasTopLevel ':' place with
    | error error place' => rfl
    | ok isMap place' =>
        cases isMap with
        | true => rfl
        | false => rfl
  rw [hGroup]
  rfl

end Literal

end Marginalia
