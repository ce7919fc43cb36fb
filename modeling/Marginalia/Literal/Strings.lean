import Marginalia.Scan
import Marginalia.Text.Hex

/-
  String literals: bare, between double quotes with escapes,
  and verbatim between backticks; and raw text, in which they
  may occur.

  Key definitions include:
    * `Literal.escape`
    * `Literal.quoted`
    * `Literal.backtick`
    * `Literal.bare`
    * `Literal.string`
    * `Literal.balanced`
-/

namespace Marginalia

namespace Literal

variable {σ : Type}
variable [Reader σ]

------------------------------------------------------------
-- Escapes
------------------------------------------------------------

/-
  The character with the given code point, or an error at the
  start of its escape.
-/
def scalarOf
    (digits : List Char)
    (start : Nat) : Reading σ Char :=
  match Text.scalar? digits with
  | some c => return c
  | none =>
      Scan.wrong .scalarValue (String.ofList digits) start

/- Consume hexadecimal digits, at most so many. -/
def hexDigits : Nat → Reading σ (List Char)
  | 0 => return []
  | count + 1 => do
      match ← Scan.peek with
      | some c =>
          if Text.isHexDigit c then
            Scan.skip
            return c :: (← hexDigits count)
          else
            return []
      | none => return []

/- Read a character as exactly so many hexadecimal digits. -/
def scalarOfLength
    (count : Nat)
    (start : Nat) : Reading σ Char := do
  let digits ← hexDigits count
  if digits.length < count then
    Scan.wrong (.hexDigits count) (String.ofList digits) start
  else
    scalarOf digits start

/- The characters that a single letter stands for. -/
def simpleEscape? : Char → Option Char
  | 'n' => some '\n'
  | 't' => some '\t'
  | 'r' => some '\r'
  | '0' => some '\x00'
  | 'a' => some '\x07'
  | 'b' => some '\x08'
  | 'f' => some '\x0C'
  | 'v' => some '\x0B'
  | '\\' => some '\\'
  | '"' => some '"'
  | '\x27' => some '\x27'
  | _ => none

/-
  Read what follows the backslash and the given letter of an
  escape that started there.
-/
def escape
    (letter : Char)
    (start : Nat) : Reading σ Char := do
  match simpleEscape? letter with
  | some c => return c
  | none =>
      match letter with
      | 'x' => scalarOfLength 2 start
      | 'u' =>
          if ← Scan.eat '{' then
            let digits ← Scan.takeWhile Text.isHexDigit
            if ← Scan.eat '}' then
              scalarOf digits start
            else
              Scan.unexpected .closedEscape start
          else
            scalarOfLength 4 start
      | 'U' => scalarOfLength 8 start
      | other =>
          Scan.wrong .escape
            (String.ofList ['\\', other]) start

------------------------------------------------------------
-- Strings
------------------------------------------------------------

/- Read a string between double quotes. -/
def quoted : Reading σ String := do
  let start ← Scan.position
  Scan.skip
  Scan.loop (β := List Char)
    (fun read => do
      let place ← Scan.position
      match ← Scan.next with
      | none => throw (.unterminated .quoted start)
      | some '"' =>
          return .done (String.ofList read.reverse)
      | some '\\' =>
          match ← Scan.next with
          | none => throw (.unterminated .quoted start)
          | some letter =>
              return .again ((← escape letter place) :: read)
      | some c => return .again (c :: read))
    []

/- Read a string between backticks; it has no escapes. -/
def backtick : Reading σ String := do
  let start ← Scan.position
  Scan.skip
  let body ← Scan.takeWhile fun c => c != '`'
  if ← Scan.eat '`' then
    return String.ofList body
  else
    throw (.unterminated .backtick start)

/-
  Read a string without quotes. It ends before the first stop,
  and blanks at its ends do not belong to it.
-/
def bare
    (stops : List Char) : Reading σ String := do
  let body ← Scan.takeWhile fun c => !stops.contains c
  return String.ofList (Text.trim body)

/- Read a string in any of its forms. -/
def string
    (stops : List Char) : Reading σ String := do
  match ← Scan.peek with
  | some '"' => quoted
  | some '`' => backtick
  | _ => bare stops

------------------------------------------------------------
-- Raw Text
------------------------------------------------------------

/- The characters passed since an earlier place. -/
def passedSince
    (start : σ) : Reading σ (List Char) :=
  modifyGet (Reader.since start)

/-
  Read raw text up to the first stop that is neither in a
  string nor in a nested group. Blanks at its end are passed
  but do not belong to it.
-/
def balanced
    (stops : List Char) : Reading σ String := do
  let start ← get
  Scan.loop (β := Nat)
    (fun depth => do
      match ← Scan.peek with
      | none => return .done ()
      | some c =>
          if depth = 0 && stops.contains c then
            return .done ()
          match c with
          | '"' =>
              let _ ← quoted
              return .again depth
          | '`' =>
              let _ ← backtick
              return .again depth
          | '{' | '[' =>
              Scan.skip
              return .again (depth + 1)
          | '}' | ']' =>
              Scan.skip
              return .again (depth - 1)
          | _ =>
              Scan.skip
              return .again depth)
    0
  return String.ofList
    (Text.trimEnd (← passedSince start))

/- Read all the rest as raw text, with the blanks at its end. -/
def remainder : Reading σ String :=
  modifyGet Reader.remainder

end Literal

end Marginalia
