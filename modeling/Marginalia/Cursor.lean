import Marginalia.Text.Blank
import Marginalia.Text.Bytes

/-
  Places between the characters of a text, and the moves from
  one place to a later one.

  Key definitions include:
    * `Cursor`
    * `Cursor.ofText`
    * `Cursor.position`
    * `Cursor.peek`
    * `Cursor.advance`
    * `Cursor.eat?`
    * `Cursor.span`
    * `Cursor.skipBlanks`
    * `Cursor.hasTopLevel`
-/

namespace Marginalia

------------------------------------------------------------
-- Cursors
------------------------------------------------------------

/-
  A place in a text: the characters behind it, the nearest
  first, and the characters ahead of it. The number of bytes
  behind it is kept at hand.
-/
structure Cursor where
  behind : List Char
  ahead : List Char
  position : Nat := Text.byteLength behind
  position_eq : position = Text.byteLength behind := by rfl

namespace Cursor

/- A cursor is determined by the texts on its two sides. -/
theorem ext
    {first second : Cursor}
    (hBehind : first.behind = second.behind)
    (hAhead : first.ahead = second.ahead) :
    first = second := by
  cases first with
  | mk behind ahead position hPosition =>
      cases second
      simp_all

/- The place before the first character. -/
def ofChars
    (text : List Char) : Cursor :=
  { behind := [], ahead := text }

/- The place before the first character of a string. -/
def ofText
    (text : String) : Cursor :=
  ofChars text.toList

/- All characters of the text in which the cursor stands. -/
def chars
    (cursor : Cursor) : List Char :=
  cursor.behind.reverse ++ cursor.ahead

/- The text in which the cursor stands. -/
def source
    (cursor : Cursor) : String :=
  String.ofList cursor.chars

/- The text ahead of the cursor. -/
def rest
    (cursor : Cursor) : String :=
  String.ofList cursor.ahead

/- The next character, if any is left. -/
def peek
    (cursor : Cursor) : Option Char :=
  cursor.ahead.head?

/- No character is left. -/
def atEnd
    (cursor : Cursor) : Bool :=
  cursor.ahead.isEmpty

------------------------------------------------------------
-- Moves
------------------------------------------------------------

/- The place after the next character; the end stays put. -/
def advance
    (cursor : Cursor) : Cursor :=
  match cursor with
  | ⟨_, [], _, _⟩ => cursor
  | ⟨behind, c :: ahead, position, hPosition⟩ =>
      { behind := c :: behind
        ahead := ahead
        position := position + c.utf8Size
        position_eq := by
          simp [hPosition, Nat.add_comm] }

/- The place after the next character, if it is the given one. -/
def eat?
    (cursor : Cursor)
    (c : Char) : Option Cursor :=
  if cursor.peek = some c then
    some cursor.advance
  else
    none

/-
  The longest run of characters ahead that satisfy the
  predicate, and the place after it.
-/
def span
    (cursor : Cursor)
    (p : Char → Bool) : List Char × Cursor :=
  let taken := cursor.ahead.takeWhile p
  (taken,
    { behind := taken.reverse ++ cursor.behind
      ahead := cursor.ahead.dropWhile p
      position := cursor.position + Text.byteLength taken
      position_eq := by
        simp [cursor.position_eq, Nat.add_comm] })

/- The place before the next character that is not blank. -/
def skipBlanks
    (cursor : Cursor) : Cursor :=
  (cursor.span Text.isBlank).2

/- The place after the last character. -/
def toEnd
    (cursor : Cursor) : Cursor :=
  (cursor.span fun _ => true).2

------------------------------------------------------------
-- Looking Ahead
------------------------------------------------------------

/-
  How a probe reads the next character: as part of the group
  structure, inside a quoted string, right after a backslash
  in one, or inside a backtick string.
-/
inductive ProbeMode where
  | plain
  | quoted
  | escaped
  | backtick
deriving DecidableEq

/-
  Look for a character at nesting depth one, outside of
  strings. The probe ends where the outermost group does.
-/
def probe
    (target : Char) :
    ProbeMode → Nat → List Char → Bool
  | _, _, [] => false
  | .escaped, depth, _ :: rest =>
      probe target .quoted depth rest
  | .quoted, depth, c :: rest =>
      if c = '\\' then
        probe target .escaped depth rest
      else if c = '"' then
        probe target .plain depth rest
      else
        probe target .quoted depth rest
  | .backtick, depth, c :: rest =>
      if c = '`' then
        probe target .plain depth rest
      else
        probe target .backtick depth rest
  | .plain, depth, c :: rest =>
      if c = '"' then
        probe target .quoted depth rest
      else if c = '`' then
        probe target .backtick depth rest
      else if c = '{' ∨ c = '[' then
        probe target .plain (depth + 1) rest
      else if c = '}' ∨ c = ']' then
        if depth ≤ 1 then
          false
        else
          probe target .plain (depth - 1) rest
      else if c = target ∧ depth = 1 then
        true
      else
        probe target .plain depth rest

/-
  Whether the group at the cursor has the target at its top
  level, outside of strings and of nested groups.
-/
def hasTopLevel
    (cursor : Cursor)
    (target : Char) : Bool :=
  probe target .plain 0 cursor.ahead

end Cursor

end Marginalia
