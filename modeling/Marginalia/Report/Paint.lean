/-
  Styles in which parts of a text are set off on a terminal.

  Key definitions include:
    * `Report.Style`
    * `Report.Paint`
    * `Report.Paint.apply`
-/

namespace Marginalia

namespace Report

/-
  How a text is set off on a terminal; each style has its
  display codes.
-/
inductive Style where
  | bold
  | dimmed
  | yellow
  | cyan
  | boldRed
  | boldGreen
  | boldYellow
deriving DecidableEq

/- The display codes of a style. -/
def Style.codes : Style → String
  | bold => "1"
  | dimmed => "2"
  | yellow => "33"
  | cyan => "36"
  | boldRed => "1;31"
  | boldGreen => "1;32"
  | boldYellow => "1;33"

/- Whether colors are used. -/
inductive Paint where
  | plain
  | colored
deriving DecidableEq

namespace Paint

/- The control sequence that starts a style. -/
def start
    (style : Style) : List Char :=
  '\x1B' :: '[' :: style.codes.toList ++ ['m']

/- The control sequence that ends all styles. -/
def reset : List Char :=
  ['\x1B', '[', '0', 'm']

/-
  A text in which every end of styles is followed by a new
  start of the given one.
-/
def resume
    (style : Style) : List Char → List Char
  | '\x1B' :: '[' :: '0' :: 'm' :: rest =>
      reset ++ start style ++ resume style rest
  | c :: rest => c :: resume style rest
  | [] => []

/- The text in the given style, if colors are used. -/
def apply
    (paint : Paint)
    (style : Style)
    (text : String) : String :=
  match paint with
  | plain => text
  | colored =>
      String.ofList
        (start style ++ resume style text.toList ++ reset)

end Paint

end Report

end Marginalia
