/-
  Documents in JSON, and the two ways of writing them.

  Key definitions include:
    * `Json`
    * `Json.quoted`
    * `Json.compact`
    * `Json.pretty`
-/

namespace Marginalia

/- A document; the members of an object keep their order. -/
inductive Json where
  | null
  | bool (value : Bool)
  | number (value : Int)
  | string (value : String)
  | array (items : List Json)
  | object (members : List (String × Json))
deriving Inhabited

namespace Json

------------------------------------------------------------
-- Strings
------------------------------------------------------------

/-
  The escaped form of a character. Quotes, backslashes and
  control characters are escaped, seven of them by a letter.
-/
def escape
    (c : Char) : List Char :=
  if c = '"' then ['\\', '"']
  else if c = '\\' then ['\\', '\\']
  else if c = '\x08' then ['\\', 'b']
  else if c = '\x0C' then ['\\', 'f']
  else if c = '\n' then ['\\', 'n']
  else if c = '\r' then ['\\', 'r']
  else if c = '\t' then ['\\', 't']
  else if c.toNat < 0x20 then
    ['\\', 'u', '0', '0', Nat.digitChar (c.toNat / 16),
      Nat.digitChar (c.toNat % 16)]
  else [c]

/- A string as a document. -/
def quoted
    (text : String) : String :=
  String.ofList
    ('"' :: text.toList.flatMap escape ++ ['"'])

------------------------------------------------------------
-- Compact Form
------------------------------------------------------------

mutual

/- The document without any blanks. -/
def compact : Json → String
  | null => "null"
  | bool true => "true"
  | bool false => "false"
  | number value => value.repr
  | string value => quoted value
  | array items =>
      "[" ++ String.intercalate "," (compactItems items)
        ++ "]"
  | object members =>
      "\x7b"
        ++ String.intercalate "," (compactMembers members)
        ++ "\x7d"

/- The items without any blanks. -/
def compactItems : List Json → List String
  | [] => []
  | item :: rest => item.compact :: compactItems rest

/- The members without any blanks. -/
def compactMembers : List (String × Json) → List String
  | [] => []
  | (key, value) :: rest =>
      (quoted key ++ ":" ++ value.compact)
        :: compactMembers rest

end

------------------------------------------------------------
-- Pretty Form
------------------------------------------------------------

/- A new line at the given depth, two blanks a level. -/
def newLine
    (depth : Nat) : String :=
  String.ofList ('\n' :: List.replicate (2 * depth) ' ')

/-
  Parts between delimiters, each on a line of its own; no
  parts at all stay on the line.
-/
def block
    (opener closer : String)
    (depth : Nat)
    (parts : List String) : String :=
  if parts.isEmpty then
    opener ++ closer
  else
    opener ++ newLine (depth + 1)
      ++ String.intercalate ("," ++ newLine (depth + 1)) parts
      ++ newLine depth ++ closer

mutual

/- The document at the given depth, over several lines. -/
def prettyAt : Nat → Json → String
  | _, null => "null"
  | _, bool true => "true"
  | _, bool false => "false"
  | _, number value => value.repr
  | _, string value => quoted value
  | depth, array items =>
      block "[" "]" depth (prettyItems (depth + 1) items)
  | depth, object members =>
      block "\x7b" "\x7d" depth
        (prettyMembers (depth + 1) members)

/- The items at the given depth. -/
def prettyItems : Nat → List Json → List String
  | _, [] => []
  | depth, item :: rest =>
      prettyAt depth item :: prettyItems depth rest

/- The members at the given depth. -/
def prettyMembers :
    Nat → List (String × Json) → List String
  | _, [] => []
  | depth, (key, value) :: rest =>
      (quoted key ++ ": " ++ prettyAt depth value)
        :: prettyMembers depth rest

end

/- The document over several lines. -/
def pretty
    (document : Json) : String :=
  document.prettyAt 0

end Json

end Marginalia
