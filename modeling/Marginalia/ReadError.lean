import Marginalia.Descriptor

/-
  The reasons for which a type or a literal cannot be read.

  Key definitions include:
    * `Expected`
    * `Enclosure`
    * `Offer`
    * `Capacity`
    * `ReadError`
    * `ReadError.position?`
    * `ReadError.message`
-/

namespace Marginalia

------------------------------------------------------------
-- Causes
------------------------------------------------------------

/- What a text should have had where something else stands. -/
inductive Expected where
  | character (c : Char)
  | typeName
  | endOfType
  | boolean
  | unsignedInteger
  | digits
  | commaOrBrace
  | closedEscape
  | hexDigits (count : Nat)
  | scalarValue
  | escape
  | commaBetweenArguments
  | endOfInput
deriving DecidableEq

namespace Expected

/- The wording of an expectation. -/
def text : Expected → String
  | character c => "`" ++ c.toString ++ "`"
  | typeName => "type name"
  | endOfType => "end of type"
  | boolean => "`true` or `false`"
  | unsignedInteger => "unsigned integer"
  | digits => "decimal digits"
  | commaOrBrace => "`,` or `\x7d`"
  | closedEscape => "`\x7d` closing \\u\x7b...\x7d"
  | hexDigits count => toString count ++ " hex digits"
  | scalarValue => "unicode scalar value"
  | escape => "escape sequence"
  | commaBetweenArguments => "`,` between arguments"
  | endOfInput => "end of input"

end Expected

/- The parts of a text that need a closing delimiter. -/
inductive Enclosure where
  | group
  | quoted
  | backtick
deriving DecidableEq

namespace Enclosure

/- The wording for an enclosed part. -/
def text : Enclosure → String
  | group => "brace group"
  | quoted => "quoted string"
  | backtick => "backtick string"

/- The character with which an enclosed part begins. -/
def opener : Enclosure → Char
  | group => '{'
  | quoted => '"'
  | backtick => '`'

end Enclosure

/- What a destination is asked to take. -/
inductive Offer where
  | null
  | bool
  | integer
  | string
  | rawBytes
  | slice
  | map
  | sliceItem
  | mapEntry
deriving DecidableEq

namespace Offer

/- The wording for what is offered. -/
def text : Offer → String
  | null => "null"
  | bool => "bool"
  | integer => "integer"
  | string => "string"
  | rawBytes => "raw bytes"
  | slice => "slice"
  | map => "map"
  | sliceItem => "slice item"
  | mapEntry => "map entry"

end Offer

/- What sets the range that an integer has to be in. -/
inductive Capacity where
  | word (type : IntType)
  | shape (limit : Shape)
deriving DecidableEq

namespace Capacity

/- The wording for what sets the range. -/
def text : Capacity → String
  | .word type => type.name
  | .shape limit => limit.text

end Capacity

/-
  A type that no argument can have: one of another sort, a
  descriptor without a grammar, or one for groups that lacks
  the type of the items.
-/
inductive Unsupported where
  | shape (other : Shape)
  | descriptor (other : Descriptor)
  | itemless (other : Descriptor)
deriving DecidableEq

namespace Unsupported

/- The wording for a type that is not supported. -/
def text : Unsupported → String
  | .shape other => other.text
  | .descriptor other => other.text
  | .itemless other => other.text ++ " without item type"

end Unsupported

------------------------------------------------------------
-- Errors
------------------------------------------------------------

/-
  The reason why a type or a literal cannot be read. Positions
  count bytes from the start of the text.

  The last reason is that reading took more steps than the
  text has characters. The steps granted are always enough.
-/
inductive ReadError where
  | unsupported (what : Unsupported)
  | syntaxError
      (expected : Expected)
      (found : String)
      (position : Nat)
  | overflow
      (literal : String)
      (capacity : Capacity)
      (position : Nat)
  | unterminated
      (what : Enclosure)
      (position : Nat)
  | mismatch
      (destination : String)
      (offer : Offer)
      (position : Nat)
  | exhausted
deriving DecidableEq

namespace ReadError

/- Where in the text the reason was found, if it lies there. -/
def position? : ReadError → Option Nat
  | unsupported _ => none
  | syntaxError _ _ position => some position
  | overflow _ _ position => some position
  | unterminated _ position => some position
  | mismatch _ _ position => some position
  | exhausted => none

/- The wording of the reason. -/
def message : ReadError → String
  | unsupported what =>
      "unsupported argument type `" ++ what.text ++ "`"
  | syntaxError expected found position =>
      "syntax error at offset " ++ toString position
        ++ ": expected " ++ expected.text
        ++ ", found `" ++ found ++ "`"
  | overflow literal capacity position =>
      "integer literal `" ++ literal
        ++ "` at offset " ++ toString position
        ++ " overflows " ++ capacity.text
  | unterminated what position =>
      "unterminated " ++ what.text
        ++ " starting at offset " ++ toString position
  | mismatch destination offer position =>
      "destination " ++ destination
        ++ " cannot hold " ++ offer.text
        ++ " (offset " ++ toString position ++ ")"
  | exhausted => "reading took too many steps"

end ReadError

end Marginalia
