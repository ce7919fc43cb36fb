import Marginalia.Literal.Fill
import Marginalia.Descriptor.Classification

/-
  The grammars of literals, one for each kind of descriptor,
  and the complete reading of a literal.

  Key definitions include:
    * `Frame`
    * `Literal.inferElement`
    * `Literal.inferRun`
    * `Descriptor.fill`
    * `Descriptor.readAt`
    * `Descriptor.read`
    * `Target.read`
-/

namespace Marginalia

/-
  Where a literal stands: alone, as an element of a group or
  of an argument list, or in a run `a;b;c` without braces.
  Runs do not nest, and raw text has to know where it ends.
-/
inductive Frame where
  | whole
  | group
  | run
deriving DecidableEq

namespace Literal

variable {σ : Type}
variable [Reader σ]

------------------------------------------------------------
-- Scalars
------------------------------------------------------------

/- Read `true` or `false`. -/
def fillBool
    (target : Target) : Filling σ target.Content Unit := do
  let start ← Scan.position (σ := σ)
  let word := String.ofList (← Scan.word (σ := σ))
  match word with
  | "true" => Fill.store (target.setBool true) word start
  | "false" => Fill.store (target.setBool false) word start
  | "" => Scan.unexpected (σ := σ) .boolean start
  | _ => Scan.wrong (σ := σ) .boolean word start

/- Decimal digits, the only ones that integers have. -/
def isDigit
    (c : Char) : Bool :=
  c.isDigit

/- The number that decimal digits denote. -/
def decimalValue
    (digits : List Char) : Nat :=
  Nat.ofDigitChars 10 digits 0

/- Read digits with an optional minus sign. -/
def fillSigned
    (target : Target) : Filling σ target.Content Unit := do
  let start ← Scan.position (σ := σ)
  let negative ← Scan.eat (σ := σ) '-'
  let digitsStart ← Scan.position (σ := σ)
  let digits ← Scan.takeWhile (σ := σ) isDigit
  if digits.isEmpty then
    Scan.unexpected (σ := σ) .digits digitsStart
  let sign := if negative then ['-'] else []
  let literal := String.ofList (sign ++ digits)
  let magnitude : Int := decimalValue digits
  let n := if negative then -magnitude else magnitude
  if fitsSigned 64 n then
    Fill.store (target.setSigned (Int64.ofInt n))
      literal start
  else
    throw (.overflow literal (.word .i64) start)

/- Read digits. -/
def fillUnsigned
    (target : Target) : Filling σ target.Content Unit := do
  let start ← Scan.position (σ := σ)
  if (← Scan.peek (σ := σ)) = some '-' then
    Scan.unexpected (σ := σ) .unsignedInteger start
  let digits ← Scan.takeWhile (σ := σ) isDigit
  if digits.isEmpty then
    Scan.unexpected (σ := σ) .digits start
  let literal := String.ofList digits
  let n := decimalValue digits
  if fitsUnsigned 64 n then
    Fill.store (target.setUnsigned (UInt64.ofNat n))
      literal start
  else
    throw (.overflow literal (.word .u64) start)

/- Read a string; delimiters end a bare one. -/
def fillString
    (target : Target) : Filling σ target.Content Unit := do
  let start ← Scan.position (σ := σ)
  let value ← string (σ := σ) Scan.delimiters
  Fill.store (target.setString value) "" start

/- The characters that end raw text outside of groups. -/
def rawStops : Frame → List Char
  | .whole => []
  | .group => [',', '}', ']']
  | .run => Scan.delimiters

/- Read raw text. Where it stands alone, it is all the rest. -/
def fillRaw
    (frame : Frame)
    (target : Target) : Filling σ target.Content Unit := do
  let start ← Scan.position (σ := σ)
  let raw ←
    match frame with
    | .whole => remainder (σ := σ)
    | frame => balanced (σ := σ) (rawStops frame)
  Fill.store (target.setRaw raw.toUTF8.data.toList) raw start

------------------------------------------------------------
-- Slices and Maps
------------------------------------------------------------

/- A reader for the items of a group or run. -/
abbrev ItemReader (σ : Type := Cursor) : Type :=
  Frame → (target : Target) → Filling σ target.Content Unit

/- Append an item and read into it. -/
def fillItem
    (item : ItemReader σ)
    (frame : Frame)
    (target : Target) : Filling σ target.Content Unit := do
  let start ← Scan.position (σ := σ)
  let child ← Fill.store target.pushItem "" start
  Fill.within child (item frame child.inner)

/-
  Read a slice: a group, or a run of items separated by `;`.
  Inside another run it has one item. Before a comma, a
  closing delimiter or the end it is empty.
-/
def fillSlice
    (item : ItemReader σ)
    (frame : Frame)
    (target : Target) : Filling σ target.Content Unit := do
  let start ← Scan.position (σ := σ)
  Fill.store target.beginSlice "" start
  match ← Scan.peek (σ := σ) with
  | some '{' => Fill.group (fillItem item .group target)
  | none | some ',' | some '}' | some ']' => return
  | some _ =>
      Fill.loopWhile do
        fillItem item .run target
        Scan.skipBlanks (σ := σ)
        if frame = .run then
          return false
        else
          Scan.eat (σ := σ) ';'

/- The characters that end a bare key. -/
def keyStops : List Char :=
  Scan.delimiters ++ [':']

/- Read a key, a colon and an item. -/
def fillEntry
    (item : ItemReader σ)
    (target : Target) : Filling σ target.Content Unit := do
  let keyStart ← Scan.position (σ := σ)
  let key ← string (σ := σ) keyStops
  Scan.skipBlanks (σ := σ)
  let colonStart ← Scan.position (σ := σ)
  unless ← Scan.eat (σ := σ) ':' do
    Scan.unexpected (σ := σ) (.character ':') colonStart
  let child ← Fill.store (target.mapEntry key) "" keyStart
  Fill.within child (item .group child.inner)

/-
  Read a map, a group of entries. A key that comes again
  renews its entry.
-/
def fillMap
    (item : ItemReader σ)
    (target : Target) : Filling σ target.Content Unit := do
  let start ← Scan.position (σ := σ)
  unless (← Scan.peek (σ := σ)) = some '{' do
    Scan.unexpected (σ := σ) (.character '{') start
  Fill.store target.beginMap "" start
  Fill.group (fillEntry item target)

------------------------------------------------------------
-- Inference
------------------------------------------------------------

/- A token of digits with an optional minus sign. -/
def integerToken?
    (token : List Char) : Option Int :=
  match token with
  | '-' :: digits =>
      if digits.all isDigit && !digits.isEmpty then
        some (-(decimalValue digits : Int))
      else
        none
  | digits =>
      if digits.all isDigit && !digits.isEmpty then
        some (decimalValue digits)
      else
        none

/-
  What a bare token denotes: a truth value, an integer, or
  otherwise the string itself.
-/
def inferToken
    (token : String)
    (start : Nat) : Reading σ Value :=
  match token with
  | "true" => return .bool true
  | "false" => return .bool false
  | token =>
      match integerToken? token.toList with
      | some n =>
          if fitsSigned 64 n then
            return .int (Int64.ofInt n)
          else
            throw (.overflow token (.word .i64) start)
      | none => return .string token

/-
  Read elements while a `;` stands before them, after the
  first one, and put them into a slice.
-/
def inferRun
    (element : Reading σ Value)
    (first : Value) : Reading σ Value :=
  Scan.loop
    (fun items => do
      if ← Scan.eat ';' then
        let item ← element
        Scan.skipBlanks
        return .again (item :: items)
      else
        return .done (.slice items.reverse))
    [first]

/-
  Read a value by the form of its text, given a reader for
  single elements. Unless the value stands in a run, it may
  itself be one.
-/
def inferWith
    (element : Reading σ Value)
    (frame : Frame) : Reading σ Value := do
  let first ← element
  if frame = .run then
    return first
  Scan.skipBlanks
  if (← Scan.peek) = some ';' then
    inferRun element first
  else
    return first

/- Read a value by the form of its text and write it. -/
def fillAny
    (element : Reading σ Value) : ItemReader σ :=
  fun frame target => do
    let start ← Scan.position (σ := σ)
    let value ← inferWith (σ := σ) element frame
    Fill.store (target.setValue value) "" start

/-
  Read one element by the form of its text, in which groups
  are nested less deeply than the number says. A group with a
  colon at its top level is a map, any other a slice.
-/
def inferElement : Nat → Reading σ Value
  | 0 => throw .exhausted
  | depth + 1 => do
      Scan.skipBlanks
      match ← Scan.peek with
      | some '{' =>
          let item : ItemReader σ := fun frame target => do
            Scan.skipBlanks (σ := σ)
            fillAny (inferElement depth) frame target
          Fill.collect Value.null
            (if ← Scan.hasTopLevel ':' then
              fillMap item .dynamic
            else
              fillSlice item .group .dynamic)
      | some '"' => return .string (← quoted)
      | some '`' => return .string (← backtick)
      | _ =>
          let start ← Scan.position
          let token ← bare Scan.delimiters
          inferToken token start

/- Read one element, however deeply its groups are nested. -/
def element : Reading σ Value := do
  inferElement (Reader.left (← get) + 1)

end Literal

------------------------------------------------------------
-- Descriptors
------------------------------------------------------------

namespace Descriptor

open Literal

variable {σ : Type}
variable [Reader σ]

/-
  Read a literal into a destination by the grammar that the
  descriptor selects. What follows the literal is left.
-/
def fill : Descriptor → ItemReader σ
  | nested .slice item, frame, target => do
      Scan.skipBlanks (σ := σ)
      fillSlice item.fill frame target
  | nested .map item, _, target => do
      Scan.skipBlanks (σ := σ)
      fillMap item.fill target
  | descriptor, frame, target => do
      Scan.skipBlanks (σ := σ)
      match descriptor.kind with
      | .bool => fillBool target
      | .signed => fillSigned target
      | .unsigned => fillUnsigned target
      | .string => fillString target
      | .raw => fillRaw frame target
      | .any => fillAny element frame target
      | .slice | .map =>
          throw (.unsupported (.itemless descriptor))
      | .invalid =>
          throw (.unsupported (.descriptor descriptor))

/- What came of reading a literal into a destination. -/
structure Outcome (δ : Type) where
  result : Except ReadError Unit
  cursor : Cursor
  content : δ

/- Run an action on a cursor and a destination. -/
def outcomeOf
    {δ : Type}
    (action : Fill δ Unit)
    (cursor : Cursor)
    (content : δ) : Outcome δ :=
  match action (cursor, content) with
  | .ok _ (cursor, content) => ⟨.ok (), cursor, content⟩
  | .error error (cursor, content) =>
      ⟨.error error, cursor, content⟩

/- Read a literal at a cursor into a destination. -/
def readAt
    (descriptor : Descriptor)
    (cursor : Cursor)
    (target : Target)
    (content : target.Content) : Outcome target.Content :=
  outcomeOf (descriptor.fill .whole target) cursor content

/- Require that only blanks are left. -/
def expectEnd : Scan Unit := do
  Scan.skipBlanks
  unless (← get).atEnd do
    Scan.unexpected .endOfInput (← Scan.position)

/- Read a text that is one literal into a destination. -/
def read
    (descriptor : Descriptor)
    (text : String)
    (target : Target)
    (content : target.Content) : Outcome target.Content :=
  outcomeOf
    (do
      descriptor.fill .whole target
      expectEnd)
    (Cursor.ofText text)
    content

/-
  The value that a text denotes as a literal. On failure it is
  what had been read until then.
-/
def readValue
    (descriptor : Descriptor)
    (text : String) : Outcome Value :=
  descriptor.read text .dynamic Value.null

end Descriptor

/-
  Read a text as a literal of the type. The contents of a
  failed reading are not returned.
-/
def Target.read
    (target : Target)
    (text : String) :
    Except ReadError target.Content := do
  let descriptor ← Descriptor.ofShape target.shape
  let outcome := descriptor.read text target target.fresh
  outcome.result
  return outcome.content

end Marginalia
