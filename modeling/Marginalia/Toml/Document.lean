import Marginalia.Loop
import Marginalia.Toml.Layout
import Marginalia.Toml.Lexeme

/-
  Texts in TOML, and the tables that they denote.

  Key definitions include:
    * `Toml.Scan`
    * `Toml.value`
    * `Toml.Section`
    * `Toml.ofText?`
-/

namespace Marginalia

namespace Toml

------------------------------------------------------------
-- Actions on a Text
------------------------------------------------------------

/- The only reason for which a text is not accepted. -/
inductive Malformed where
  | malformed
deriving DecidableEq

/- An action that reads from the beginning of a text. -/
abbrev Scan (α : Type) : Type :=
  EStateM Malformed (List Char) α

namespace Scan

/- Refuse the text. -/
def refuse
    {α : Type} : Scan α :=
  throw .malformed

/- A result that may be missing. -/
def require
    {α : Type} : Option α → Scan α
  | some result => return result
  | none => refuse

/-
  Repeat an action until it is done. Every round but the last
  has to consume a character.
-/
def loop
    {α β : Type}
    (body : β → Scan (Step β α))
    (start : β) : Scan α := do
  let text ← get
  iterate .malformed body (text.length + 1) start

/- The next character. -/
def peek : Scan (Option Char) := do
  return (← get).head?

/- Consume the given character, if it comes next. -/
def eat
    (c : Char) : Scan Bool := do
  match ← get with
  | next :: rest =>
      if next = c then
        set rest
        return true
      else
        return false
  | [] => return false

/- Consume the given character, which has to come next. -/
def expect
    (c : Char) : Scan Unit := do
  unless ← eat c do
    refuse

/- Consume the longest run that satisfies the predicate. -/
def takeWhile
    (p : Char → Bool) : Scan (List Char) :=
  modifyGet fun text => (text.takeWhile p, text.dropWhile p)

/- Consume blanks within the line. -/
def skipSpaces : Scan Unit := do
  let _ ← takeWhile isSpace

/- Consume a comment, up to the end of the line. -/
def skipComment : Scan Unit := do
  let _ ← takeWhile isCommentChar

/- Read a string after its opening quote. -/
def lexed
    (read : List Char → Lexed) : Scan String := do
  let (text, rest) ← require (read (← get))
  set rest
  return String.ofList text

/- Consume the end of a line. -/
def lineEnd : Scan Unit := do
  match ← get with
  | '\n' :: rest => set rest
  | '\r' :: '\n' :: rest => set rest
  | _ => refuse

/- Consume what may stand after an entry on its line. -/
def entryEnd : Scan Unit := do
  skipSpaces
  if (← peek) = some '#' then
    skipComment
  unless (← get).isEmpty do
    lineEnd

/- Consume blanks, line ends and comments with a line end. -/
def skipLines : Scan Unit :=
  loop (β := Unit)
    (fun _ => do
      skipSpaces
      match ← peek with
      | some '#' =>
          skipComment
          lineEnd
          return .again ()
      | some '\n' | some '\r' =>
          lineEnd
          return .again ()
      | _ => return .done ())
    ()

end Scan

------------------------------------------------------------
-- Keys and Strings
------------------------------------------------------------

/- Read one part of a key. -/
def simpleKey : Scan String := do
  if ← Scan.eat '"' then
    Scan.lexed basicString?
  else if ← Scan.eat '\x27' then
    Scan.lexed literalString?
  else
    match ← Scan.takeWhile isKeyChar with
    | [] => Scan.refuse
    | key => return String.ofList key

/- The greatest number of parts that a key may have. -/
def maxKeyParts : Nat :=
  79

/- Read a key: the parts before the last dot, and the last one. -/
def key : Scan (List String × String) := do
  let (path, last) ←
    Scan.loop
      (fun path => do
        Scan.skipSpaces
        let part ← simpleKey
        Scan.skipSpaces
        if ← Scan.eat '.' then
          return .again (part :: path)
        else
          return .done (path, part))
      []
  if path.length < maxKeyParts then
    return (path.reverse, last)
  else
    Scan.refuse

/- Read a string that begins with a double quote. -/
def basicValue : Scan Toml := do
  match ← get with
  | '"' :: '"' :: '"' :: rest =>
      set (dropLineEnd rest)
      return .string (← Scan.lexed (blockString? false))
  | _ =>
      Scan.expect '"'
      return .string (← Scan.lexed basicString?)

/- Read a string that begins with a single quote. -/
def literalValue : Scan Toml := do
  match ← get with
  | '\x27' :: '\x27' :: '\x27' :: rest =>
      set (dropLineEnd rest)
      return .string (← Scan.lexed blockLiteral?)
  | _ =>
      Scan.expect '\x27'
      return .string (← Scan.lexed literalString?)

------------------------------------------------------------
-- Values
------------------------------------------------------------

/- A date may be followed by a blank and a time. -/
def dateValue
    (date : List Char) : Scan Toml := do
  match ← get with
  | ' ' :: c :: rest =>
      if c.isDigit then
        set (c :: rest)
        let time ← Scan.takeWhile isTokenChar
        unless isZonedTime time do
          Scan.refuse
        return .datetime (String.ofList (date ++ ' ' :: time))
      else
        return .datetime (String.ofList date)
  | _ => return .datetime (String.ofList date)

/- Read a word, a number or a date. -/
def plainValue : Scan Toml := do
  let token ← Scan.takeWhile isTokenChar
  let text := String.ofList token
  if text = "true" then
    return .boolean true
  else if text = "false" then
    return .boolean false
  else if isDate token then
    dateValue token
  else if isDatetime token then
    return .datetime text
  else if isFloat token then
    return .float text
  else
    return .integer (← Scan.require (integer? token))

/- Read the items of an array after its opening bracket. -/
def arrayItems
    (item : Scan Toml) : Scan (List Toml) :=
  Scan.loop
    (fun items => do
      Scan.skipLines
      if ← Scan.eat ']' then
        return .done items.reverse
      let items := (← item) :: items
      Scan.skipLines
      if ← Scan.eat ',' then
        return .again items
      Scan.expect ']'
      return .done items.reverse)
    []

/- Read a key, an equals sign and a value. -/
def assignment
    (value : Scan Toml) : Scan Assignment := do
  let (path, key) ← key
  Scan.expect '='
  Scan.skipSpaces
  return ⟨path, key, ← value⟩

/-
  Read the entries of a table in braces after the opening
  one. They stand on one line, and none follows the last one.
-/
def braceEntries
    (value : Scan Toml) : Scan (List Assignment) := do
  Scan.skipSpaces
  if ← Scan.eat '}' then
    return []
  Scan.loop
    (fun entries => do
      let entries := (← assignment value) :: entries
      Scan.skipSpaces
      if ← Scan.eat ',' then
        return .again entries
      Scan.expect '}'
      return .done entries.reverse)
    []

/- Read a value, given a reader for what is nested in it. -/
def valueWith
    (nested : Scan Toml) : Scan Toml := do
  match ← Scan.peek with
  | some '"' => basicValue
  | some '\x27' => literalValue
  | some '[' =>
      Scan.expect '['
      return .array (← arrayItems nested)
  | some '{' =>
      Scan.expect '{'
      let entries ← braceEntries nested
      let nodes ← Scan.require (assign entries [])
      return .table (entriesToToml nodes)
  | _ => plainValue

/-
  Read a value in which arrays and tables are nested at most
  as deeply as the number says.
-/
def value : Nat → Scan Toml
  | 0 => do
      match ← Scan.peek with
      | some '[' | some '{' => Scan.refuse
      | _ => valueWith Scan.refuse
  | depth + 1 => valueWith (value depth)

/- The depth to which values may be nested. -/
def maxDepth : Nat :=
  79

------------------------------------------------------------
-- Documents
------------------------------------------------------------

/- What the entries after a header belong to. -/
inductive Header where
  | table (path : List String) (key : String)
  | element (path : List String) (key : String)

/- A header and the entries up to the next one. -/
structure Section where
  header : Header
  assignments : List Assignment

/- Read a header after its first bracket. -/
def header : Scan Header := do
  if ← Scan.eat '[' then
    let (path, key) ← key
    Scan.expect ']'
    Scan.expect ']'
    Scan.entryEnd
    return .element path key
  else
    let (path, key) ← key
    Scan.expect ']'
    Scan.entryEnd
    return .table path key

/- Read the entries up to the next header or the end. -/
def assignments : Scan (List Assignment) :=
  Scan.loop
    (fun entries => do
      Scan.skipSpaces
      match ← Scan.peek with
      | none | some '[' => return .done entries.reverse
      | some '#' =>
          Scan.entryEnd
          return .again entries
      | some '\n' | some '\r' =>
          Scan.lineEnd
          return .again entries
      | _ =>
          let entry ← assignment (value maxDepth)
          Scan.entryEnd
          return .again (entry :: entries))
    []

/- Read the headers, each with the entries after it. -/
def sections : Scan (List Section) :=
  Scan.loop
    (fun read => do
      if ← Scan.eat '[' then
        let header ← header
        return .again (⟨header, ← assignments⟩ :: read)
      else
        return .done read.reverse)
    []

/- Add the entries of a section to the document. -/
def Section.addTo
    (entries : Nodes)
    (part : Section) : Option Nodes :=
  match part.header with
  | .table path key =>
      openTable path key part.assignments entries
  | .element path key =>
      openElement path key part.assignments entries

/-
  The entries of the table that a text denotes. A mark of the
  byte order at its beginning is not part of it.
-/
def ofText?
    (text : String) :
    Option (List (String × Toml)) := do
  let chars :=
    match text.toList with
    | '\uFEFF' :: rest => rest
    | chars => chars
  let reading : Scan (List Assignment × List Section) := do
    let first ← assignments
    let parts ← sections
    return (first, parts)
  match reading.run chars with
  | .error _ _ => none
  | .ok (first, parts) rest =>
      if rest.isEmpty then
        let entries ← assign first []
        let entries ← parts.foldlM Section.addTo entries
        return entriesToToml entries
      else
        none

end Toml

end Marginalia
