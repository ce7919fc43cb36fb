import Marginalia.Cursor

/-
  What reading needs of a place in a text: to look at the next
  character, to move ahead and to cut out what was passed.

  Key definitions include:
    * `Reader`
-/

namespace Marginalia

/-
  Places in a text from which can be read. What moves ahead
  returns the place that it reaches.

    * `position`: the bytes before the place
    * `peek`: the next character, if any is left
    * `left`: a bound on the characters that are left
    * `next`: consume the next character
    * `eat`: consume the given character, if it comes next
    * `skipBlanks`: consume blanks
    * `takeWhile`: consume the longest run that satisfies the
      predicate
    * `remainder`: consume all that is left
    * `since`: the characters passed since an earlier place
    * `hasTopLevel`: whether the group that comes next has the
      character at its top level
-/
class Reader (σ : Type) where
  position : σ → Nat
  peek : σ → Option Char
  left : σ → Nat
  next : σ → Option Char × σ
  eat : Char → σ → Bool × σ
  skipBlanks : σ → σ
  takeWhile : (Char → Bool) → σ → List Char × σ
  remainder : σ → String × σ
  since : σ → σ → List Char × σ
  hasTopLevel : Char → σ → Bool × σ

instance : Reader Cursor where
  position := Cursor.position
  peek := Cursor.peek
  left cursor := cursor.ahead.length
  next cursor := (cursor.peek, cursor.advance)
  eat c cursor :=
    ((cursor.eat? c).isSome, (cursor.eat? c).getD cursor)
  skipBlanks := Cursor.skipBlanks
  takeWhile p cursor := cursor.span p
  remainder cursor := (cursor.rest, cursor.toEnd)
  since start now :=
    (start.ahead.take
      (start.ahead.length - now.ahead.length), now)
  hasTopLevel target cursor :=
    (cursor.hasTopLevel target, cursor)

end Marginalia
