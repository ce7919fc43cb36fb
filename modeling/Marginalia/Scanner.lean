import Marginalia.Literal.Grammar

/-
  Scanners: a text, a byte offset into it, and the next
  character, which is kept at hand. Texts are cut at byte
  offsets, and a cut inside a character ends everything.

  Key definitions include:
    * `Text.slice?`
    * `Scanner`
    * `Scanner.Trace`
    * `Scanner.Action`
    * `Scanner.advance`
    * `Scanner.advanceWhile`
    * `Scanner.takeWhile`
    * `Scanner.parse`
    * `Scanner.runAll`
-/

namespace Marginalia

------------------------------------------------------------
-- Cuts at Byte Offsets
------------------------------------------------------------

/-
  The part of a text between two byte offsets. There is none
  if one of them is not between characters of the text.
-/
def Text.slice?
    (text : String)
    (first last : Nat) : Option String :=
  if first ≤ last ∧
      String.Pos.Raw.IsValid text ⟨first⟩ ∧
        String.Pos.Raw.IsValid text ⟨last⟩ then
    String.fromUTF8? (text.toByteArray.extract first last)
  else
    none

------------------------------------------------------------
-- Scanners
------------------------------------------------------------

/-
  The offset counts the bytes that were consumed. That it is
  between characters, and that the next character is the one
  there, is up to those who move the scanner.
-/
structure Scanner where
  text : String
  cursor : Nat
  lookahead : Option Char

namespace Scanner

/- A scanner before the first character of a text. -/
def new
    (text : String) : Scanner :=
  { text := text
    cursor := 0
    lookahead := text.toList.head? }

/- The text from the offset on. -/
def rest?
    (scanner : Scanner) : Option String :=
  Text.slice? scanner.text scanner.cursor
    scanner.text.utf8ByteSize

/- No character is left. -/
def atEnd
    (scanner : Scanner) : Bool :=
  scanner.lookahead.isNone

/-
  A scanner with the characters that it has handed out. They
  are recorded for what is said about scanners; no operation
  looks at them.
-/
structure Trace where
  scanner : Scanner
  consumed : List Char

/- Nothing has been consumed yet. -/
def Trace.start
    (text : String) : Trace :=
  { scanner := new text
    consumed := [] }

/- What moves a scanner. There is no result if a cut fails. -/
abbrev Action : Type → Type :=
  StateT Trace Option

------------------------------------------------------------
-- Moves
------------------------------------------------------------

/- Consume and return the next character. -/
def advance : Action (Option Char) :=
  fun trace =>
    match trace.scanner.lookahead with
    | none => some (none, trace)
    | some c =>
        let moved :=
          { trace.scanner with
            cursor := trace.scanner.cursor + c.utf8Size }
        match moved.rest? with
        | none => none
        | some rest =>
            some (some c,
              { scanner :=
                  { moved with lookahead := rest.toList.head? }
                consumed := trace.consumed ++ [c] })

/- Consume the given character, if it comes next. -/
def eat
    (c : Char) : Action Bool := do
  if (← get).scanner.lookahead = some c then
    let _ ← advance
    return true
  else
    return false

/- The bytes from the offset to the end of the text. -/
def Trace.bytesLeft
    (trace : Trace) : Nat :=
  trace.scanner.text.utf8ByteSize - trace.scanner.cursor

/- A cut does not reach beyond the text. -/
theorem le_of_rest?
    {scanner : Scanner}
    {rest : String}
    (hRest : scanner.rest? = some rest) :
    scanner.cursor ≤ scanner.text.utf8ByteSize := by
  unfold rest? Text.slice? at hRest
  split at hRest
  · rename_i hOffsets
    exact hOffsets.1
  · cases hRest

/- A move past a character leaves fewer bytes. -/
theorem bytesLeft_advance
    {trace next : Trace}
    {c : Char}
    {result : Option Char}
    (hLookahead : trace.scanner.lookahead = some c)
    (hAdvance : advance trace = some (result, next)) :
    next.bytesLeft < trace.bytesLeft := by
  have hSize := c.utf8Size_pos
  unfold advance at hAdvance
  simp only [hLookahead] at hAdvance
  split at hAdvance
  · cases hAdvance
  · rename_i rest hRest
    have hLast := le_of_rest? hRest
    cases hAdvance
    unfold Trace.bytesLeft
    dsimp only at hLast ⊢
    omega

/- Advance as long as the next character satisfies it. -/
def advanceWhile
    (p : Char → Bool) : Action Unit :=
  fun trace =>
    match _hLookahead : trace.scanner.lookahead with
    | none => some ((), trace)
    | some c =>
        if p c then
          match _hAdvance : advance trace with
          | none => none
          | some (_, next) => advanceWhile p next
        else
          some ((), trace)
termination_by trace => trace.bytesLeft
decreasing_by
  exact bytesLeft_advance _hLookahead _hAdvance

/- Consume blanks. -/
def skipWhitespace : Action Unit :=
  advanceWhile Text.isBlank

/- The part of the text between an offset and the scanner. -/
def sliceFrom
    (start : Nat) : Action String := do
  let scanner := (← get).scanner
  Text.slice? scanner.text start scanner.cursor

/- Consume characters while they satisfy the predicate. -/
def takeWhile
    (p : Char → Bool) : Action String := do
  let start := (← get).scanner.cursor
  advanceWhile p
  sliceFrom start

/- The text from the scanner on. -/
def rest : Action String := do
  (← get).scanner.rest?

/- Consume all the rest of the text. -/
def takeRest : Action String := do
  let rest ← rest
  advanceWhile fun _ => true
  return rest

/-
  Whether the group that comes next has the character at its
  top level, outside of strings and of nested groups.
-/
def hasTopLevel
    (target : Char) : Action Bool := do
  return Cursor.probe target .plain 0 (← rest).toList

------------------------------------------------------------
-- Literals
------------------------------------------------------------

/-
  Act on a scanner that may have failed: what has failed
  stays so, and its results do not matter.
-/
def Action.run
    {α : Type}
    [Inhabited α]
    (action : Action α) : Option Trace → α × Option Trace
  | none => (default, none)
  | some trace =>
      match action trace with
      | none => (default, none)
      | some (result, next) => (result, some next)

/- The offset of a scanner. -/
def offset
    (place : Option Trace) : Nat :=
  place.elim 0 fun trace => trace.scanner.cursor

instance : Reader (Option Trace) where
  position := offset
  peek place := do (← place).scanner.lookahead
  left place :=
    (do (← place).scanner.rest?).elim 0 String.length
  next := advance.run
  eat c := (eat c).run
  skipBlanks place := (skipWhitespace.run place).2
  takeWhile p := (String.toList <$> takeWhile p).run
  remainder := takeRest.run
  since start :=
    (String.toList <$> sliceFrom (offset start)).run
  hasTopLevel target := (hasTopLevel target).run

/-
  Read a literal into a destination. The result is returned,
  whether reading succeeds or fails, with what is then in the
  destination.
-/
def parse
    (descriptor : Descriptor)
    (target : Target)
    (content : target.Content) :
    Action (Except ReadError Unit × target.Content) :=
  fun trace =>
    match
      descriptor.fill .whole target (some trace, content)
    with
    | .ok _ (place, content) =>
        place.map fun next => ((.ok (), content), next)
    | .error error (place, content) =>
        place.map fun next => ((.error error, content), next)

------------------------------------------------------------
-- Sequences of Steps
------------------------------------------------------------

/- What is done with a scanner, one step after another. -/
inductive Step where
  | advance
  | eat (c : Char)
  | skipWhitespace
  | takeWhile (p : Char → Bool)
  | hasTopLevel (target : Char)
  | parse
      (descriptor : Descriptor)
      (target : Target)
      (content : target.Content)

/- Do one step; what it returns is not looked at. -/
def Step.run : Step → Action Unit
  | advance => do
      let _ ← Scanner.advance
  | eat c => do
      let _ ← Scanner.eat c
  | skipWhitespace => Scanner.skipWhitespace
  | takeWhile p => do
      let _ ← Scanner.takeWhile p
  | hasTopLevel target => do
      let _ ← Scanner.hasTopLevel target
  | parse descriptor target content => do
      let _ ← Scanner.parse descriptor target content

/- Do one step after another. -/
def runAll : List Step → Action Unit
  | [] => return ()
  | step :: later => do
      step.run
      runAll later

end Scanner

end Marginalia
