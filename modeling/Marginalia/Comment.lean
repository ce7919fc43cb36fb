import Marginalia.Language
import Marginalia.Text.Blank
import Marginalia.Text.Bytes
import Marginalia.Text.Letter
import Marginalia.Text.Lines

/-
  The comments of a source text, line by line.

  Key definitions include:
    * `CommentLine`
    * `CommentLine.isMarker`
    * `CommentBlock`
    * `Comment.Part`
    * `Comment.columnAt`
    * `Comment.LineContent`
    * `Comment.contents`
    * `Comment.Gathering`
    * `CommentBlock.ofSource`
-/

namespace Marginalia

------------------------------------------------------------
-- Comment Lines
------------------------------------------------------------

/-
  What a comment has on one line, without delimiters and
  without blanks at its ends, and where it begins.
-/
structure CommentLine where
  number : Nat
  column : Nat
  content : List Char
deriving DecidableEq

namespace CommentLine

/- A marker line begins with a plus sign right before a name. -/
def isMarker
    (line : CommentLine) : Bool :=
  match line.content with
  | '+' :: c :: _ => Text.isLetter c || c == '_'
  | _ => false

end CommentLine

/-
  Comment lines with nothing but blank lines between them, and
  the numbers of the first and the last one.
-/
structure CommentBlock where
  lines : List CommentLine
  start : Nat
  finish : Nat
deriving DecidableEq

namespace CommentBlock

/- A block that begins with the line. -/
def single
    (line : CommentLine) : CommentBlock :=
  { lines := [line]
    start := line.number
    finish := line.number }

/- The block with one more line, which is then its last one. -/
def extend
    (block : CommentBlock)
    (line : CommentLine) : CommentBlock :=
  { block with
    lines := block.lines ++ [line]
    finish := line.number }

/- The lines that may be markers. -/
def markerLines
    (block : CommentBlock) : List CommentLine :=
  block.lines.filter CommentLine.isMarker

end CommentBlock

------------------------------------------------------------
-- Single Lines
------------------------------------------------------------

namespace Comment

/- The text before the first occurrence of another. -/
def before?
    (text : List Char) : List Char → Option (List Char)
  | [] => if text.isEmpty then some [] else none
  | c :: rest =>
      if text.isPrefixOf (c :: rest) then
        some []
      else
        (before? text rest).map fun front => c :: front

/- The bytes of the blanks with which a text begins. -/
def indentBytes
    (text : List Char) : Nat :=
  Text.byteLength text
    - Text.byteLength (Text.trimStart text)

/- A part of a line, and the number of bytes before it. -/
structure Part where
  offset : Nat
  text : List Char

/- The part without blanks at its ends. -/
def Part.trim
    (part : Part) : Part :=
  ⟨part.offset + indentBytes part.text,
    Text.trim part.text⟩

/- The rest of a part after a text with which it begins. -/
def Part.after?
    (part : Part)
    (opener : List Char) : Option Part :=
  if opener.isPrefixOf part.text then
    some ⟨part.offset + Text.byteLength opener,
      part.text.drop opener.length⟩
  else
    none

/- A line from its first character that is not blank. -/
def indented
    (line : List Char) : Part :=
  ⟨indentBytes line, Text.trimStart line⟩

/-
  The text of a comment up to the end of the line. The first
  opener in the list with which the line begins is taken.
-/
def lineComment?
    (style : CommentStyle)
    (line : List Char) : Option Part :=
  style.line.findSome? fun opener =>
    (indented line).after? opener.toList

/-
  The text before a closer and, if the closer is not there,
  the closer itself, which is still awaited.
-/
def upTo
    (closer : List Char)
    (part : Part) : Part × Option (List Char) :=
  match before? closer part.text with
  | some front => (⟨part.offset, front⟩, none)
  | none => (part, some closer)

/- The first line of a comment with an opener and a closer. -/
def blockOpening?
    (style : CommentStyle)
    (line : List Char) :
    Option (Part × Option (List Char)) := do
  let (opener, closer) ← style.block?
  let part ← (indented line).after? opener.toList
  return upTo closer.toList part

/-
  A later line of such a comment. A star before the text is
  ornament and does not belong to it.
-/
def blockContinuation
    (closer : List Char)
    (line : List Char) : Part × Option (List Char) :=
  let (part, awaited) := upTo closer ⟨0, line⟩
  let body := indented part.text
  ((body.after? ['*']).getD body, awaited)

/-
  The comment on a line, and the closer that is awaited after
  it, given the one that is awaited before it.
-/
def onLine
    (style : CommentStyle)
    (awaited : Option (List Char))
    (line : List Char) :
    Option Part × Option (List Char) :=
  match awaited with
  | some closer =>
      let (part, awaited) := blockContinuation closer line
      (some part, awaited)
  | none =>
      match lineComment? style line with
      | some part => (some part, none)
      | none =>
          match blockOpening? style line with
          | some (part, awaited) => (some part, awaited)
          | none => (none, none)

------------------------------------------------------------
-- Texts
------------------------------------------------------------

/- What a line of a source text holds. -/
inductive LineContent where
  | comment (line : CommentLine)
  | blank
  | code
deriving DecidableEq

/-
  The column at a byte offset: one more than the characters
  before it. There is none inside a character.
-/
def columnAt
    (line : List Char)
    (offset : Nat) : Nat :=
  match Text.upToByte? offset line with
  | some front => front.length + 1
  | none => 0

/- A part of a line as the comment line of the given number. -/
def commentLine
    (number : Nat)
    (line : List Char)
    (part : Part) : CommentLine :=
  { number := number
    column := columnAt line part.trim.offset
    content := part.trim.text }

/- What the lines hold; the first has the given number. -/
def contents
    (style : CommentStyle) :
    Option (List Char) → Nat → List (List Char) →
      List LineContent
  | _, _, [] => []
  | awaited, number, line :: rest =>
      let (part?, awaited) := onLine style awaited line
      let content : LineContent :=
        match part? with
        | some part => .comment (commentLine number line part)
        | none =>
            if line.all Text.isBlank then .blank else .code
      content :: contents style awaited (number + 1) rest

/- The blocks that are closed, and the one that is open. -/
structure Gathering where
  closed : List CommentBlock
  current? : Option CommentBlock

namespace Gathering

/- Nothing has been gathered yet. -/
def empty : Gathering :=
  ⟨[], none⟩

/- All blocks, where the open one is closed. -/
def blocks
    (gathering : Gathering) : List CommentBlock :=
  gathering.closed ++ gathering.current?.toList

/-
  Gather what one more line holds. A comment goes on with the
  open block or opens one, and code closes it.
-/
def step
    (gathering : Gathering) : LineContent → Gathering
  | .comment line =>
      match gathering.current? with
      | some block =>
          { gathering with
            current? := block.extend line }
      | none =>
          { gathering with
            current? := CommentBlock.single line }
  | .blank => gathering
  | .code => ⟨gathering.blocks, none⟩

end Gathering

/- The blocks of lines that hold the contents. -/
def gather
    (held : List LineContent) : List CommentBlock :=
  (held.foldl Gathering.step .empty).blocks

end Comment

/- The comment blocks of a source text, in order. -/
def CommentBlock.ofSource
    (language : Language)
    (source : String) : List CommentBlock :=
  Comment.gather
    (Comment.contents language.comments none 1
      (Text.lines source.toList))

end Marginalia
