import Marginalia.Loop
import Marginalia.ReadError
import Marginalia.Reader
import Marginalia.Text.Letter

/-
  Reading from a text: actions that move ahead in it and
  return a result or the reason why there is none. The place
  stays where a failed action left it.

  Key definitions include:
    * `Reading`
    * `Scan`
    * `Scan.loop`
    * `Scan.takeWhile`
    * `Scan.offending`
    * `Scan.unexpected`
-/

namespace Marginalia

------------------------------------------------------------
-- Actions on a Text
------------------------------------------------------------

/- An action that reads from a place in a text. -/
abbrev Reading (σ : Type) : Type → Type :=
  EStateM ReadError σ

/- An action that reads from a cursor. -/
abbrev Scan : Type → Type :=
  Reading Cursor

namespace Scan

variable {σ : Type}
variable [Reader σ]

/-
  Repeat an action until it is done. Every round but the last
  has to consume a character, so that one round for each of
  them and one more are enough.
-/
def loop
    {α β : Type}
    (body : β → Reading σ (Step β α))
    (start : β) : Reading σ α := do
  let place ← get
  iterate .exhausted body (Reader.left place + 1) start

/- The bytes before the place. -/
def position : Reading σ Nat := do
  return Reader.position (← get)

/- The next character, left where it is. -/
def peek : Reading σ (Option Char) := do
  return Reader.peek (← get)

/- Consume the next character and return it. -/
def next : Reading σ (Option Char) :=
  modifyGet Reader.next

/- Consume the next character. -/
def skip : Reading σ Unit :=
  modify fun place => (Reader.next place).2

/- Consume the given character, if it comes next. -/
def eat
    (c : Char) : Reading σ Bool :=
  modifyGet (Reader.eat c)

/- Consume blanks. -/
def skipBlanks : Reading σ Unit :=
  modify Reader.skipBlanks

/- Consume the longest run that satisfies the predicate. -/
def takeWhile
    (p : Char → Bool) : Reading σ (List Char) :=
  modifyGet (Reader.takeWhile p)

/-
  Whether the group that comes next has the character at its
  top level; it is left where it is.
-/
def hasTopLevel
    (target : Char) : Reading σ Bool :=
  modifyGet (Reader.hasTopLevel target)

/- Consume a run of letters, numerals and underscores. -/
def word : Reading σ (List Char) :=
  takeWhile Text.isWordChar

/- The characters that end a bare literal. -/
def delimiters : List Char :=
  [',', ';', '}', ']']

/-
  What a message shows of the text at the place: the token
  there, or the one character if it starts no token. The
  token is consumed.
-/
def offending : Reading σ String := do
  let token ← takeWhile fun c =>
    !Text.isBlank c && !delimiters.contains c
  if token.isEmpty then
    match ← peek with
    | some c => return c.toString
    | none => return "end of input"
  else
    return String.ofList token

/- Fail because the given text does not fit. -/
def wrong
    {α : Type}
    (expected : Expected)
    (found : String)
    (start : Nat) : Reading σ α :=
  throw (.syntaxError expected found start)

/- Fail because the token at the place does not fit. -/
def unexpected
    {α : Type}
    (expected : Expected)
    (start : Nat) : Reading σ α := do
  wrong expected (← offending) start

/-
  Fail because the next character does not fit; at the end of
  the text the message shows nothing.
-/
def unexpectedNext
    {α : Type}
    (expected : Expected) : Reading σ α := do
  let found :=
    match ← peek with
    | some c => c.toString
    | none => ""
  wrong expected found (← position)

/-
  Read a whole text: what the action leaves, apart from
  blanks, is an error.
-/
def whole
    {α : Type}
    (action : Scan α)
    (atRest : Scan Unit)
    (text : String) : Except ReadError α :=
  let complete : Scan α := do
    let result ← action
    skipBlanks
    unless (← get).atEnd do
      atRest
    return result
  match complete.run (Cursor.ofText text) with
  | .ok result _ => .ok result
  | .error error _ => .error error

end Scan

end Marginalia
