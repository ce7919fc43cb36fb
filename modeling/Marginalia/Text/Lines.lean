/-
  Division of a text into lines.

  Key definitions include:
    * `Text.lines`
-/

namespace Marginalia

namespace Text

/-
  The lines of a text, without their ends. A line ends with a
  line feed, before which one carriage return is dropped; the
  last line may lack its end, and is not counted when empty.
-/
def lines : List Char → List (List Char)
  | [] => []
  | '\n' :: rest => [] :: lines rest
  | '\r' :: '\n' :: rest => [] :: lines rest
  | c :: rest =>
      match lines rest with
      | [] => [[c]]
      | line :: later =>
          (c :: line) :: later

end Text

end Marginalia
