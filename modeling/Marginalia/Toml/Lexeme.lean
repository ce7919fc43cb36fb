import Marginalia.Integers
import Marginalia.Text.Hex

/-
  The smallest parts of a TOML text: strings, keys, numbers,
  and dates.

  Key definitions include:
    * `Toml.basicString?`
    * `Toml.literalString?`
    * `Toml.blockString?`
    * `Toml.blockLiteral?`
    * `Toml.integer?`
    * `Toml.isFloat`
    * `Toml.isDatetime`
-/

namespace Marginalia

namespace Toml

------------------------------------------------------------
-- Character Classes
------------------------------------------------------------

/- Blanks within a line. -/
def isSpace
    (c : Char) : Bool :=
  c == ' ' || c == '\t'

/- Characters that comments may hold: no controls but tabs. -/
def isCommentChar
    (c : Char) : Bool :=
  c == '\t' || (0x20 ≤ c.toNat && c.toNat != 0x7F)

/- Characters that a string with escapes may hold as such. -/
def isBasicChar
    (c : Char) : Bool :=
  isCommentChar c && c != '"' && c != '\\'

/- Characters that a string without escapes may hold. -/
def isLiteralChar
    (c : Char) : Bool :=
  isCommentChar c && c != '\x27'

/- Characters of keys without quotes. -/
def isKeyChar
    (c : Char) : Bool :=
  c.isAlphanum || c == '_' || c == '-'

/- Characters of numbers, dates and words. -/
def isTokenChar
    (c : Char) : Bool :=
  c.isAlphanum || ['_', '-', '+', '.', ':'].contains c

------------------------------------------------------------
-- Strings
------------------------------------------------------------

/- What a reader of a string returns: the string and the rest. -/
abbrev Lexed : Type :=
  Option (List Char × List Char)

/- Put a character before what is still to be read. -/
def Lexed.cons
    (c : Char)
    (lexed : Lexed) : Lexed :=
  lexed.map fun (text, rest) => (c :: text, rest)

/- Put a character before the rest, if there is one to put. -/
def Lexed.consOf
    (c? : Option Char)
    (lexed : Lexed) : Lexed := do
  lexed.cons (← c?)

/- The characters that a single letter stands for. -/
def simpleEscape? : Char → Option Char
  | 'b' => some '\x08'
  | 't' => some '\t'
  | 'n' => some '\n'
  | 'f' => some '\x0C'
  | 'r' => some '\r'
  | '"' => some '"'
  | '\\' => some '\\'
  | _ => none

/- The character with the given hexadecimal code point. -/
def codedChar?
    (digits : List Char) : Option Char :=
  if digits.all Text.isHexDigit then
    Text.scalar? digits
  else
    none

/- Read a string after its opening double quote. -/
def basicString? : List Char → Lexed
  | '"' :: rest => some ([], rest)
  | '\\' :: 'u' :: a :: b :: c :: d :: rest =>
      (basicString? rest).consOf (codedChar? [a, b, c, d])
  | '\\' :: 'U' :: a :: b :: c :: d :: e :: f :: g :: h
      :: rest =>
      (basicString? rest).consOf
        (codedChar? [a, b, c, d, e, f, g, h])
  | '\\' :: c :: rest =>
      (basicString? rest).consOf (simpleEscape? c)
  | c :: rest =>
      if isBasicChar c then
        (basicString? rest).cons c
      else
        none
  | [] => none

/- Read a string after its opening single quote. -/
def literalString? : List Char → Lexed
  | '\x27' :: rest => some ([], rest)
  | c :: rest =>
      if isLiteralChar c then
        (literalString? rest).cons c
      else
        none
  | [] => none

/- A text without the line end at its beginning. -/
def dropLineEnd : List Char → List Char
  | '\n' :: rest => rest
  | '\r' :: '\n' :: rest => rest
  | text => text

/- Only blanks are left on the line. -/
def endsLine
    (text : List Char) : Bool :=
  match text.dropWhile isSpace with
  | '\n' :: _ => true
  | '\r' :: '\n' :: _ => true
  | _ => false

/-
  The end of a string over several lines, after three quotes.
  One or two more quotes still belong to the string.
-/
def blockEnd
    (quote : Char)
    (rest : List Char) : List Char × List Char :=
  let extra := (rest.takeWhile fun c => c == quote).take 2
  (extra, rest.drop extra.length)

/-
  Read a string over several lines. After a backslash at the
  end of a line, blanks and line ends are skipped.
-/
def blockString? : Bool → List Char → Lexed
  | true, ' ' :: rest => blockString? true rest
  | true, '\t' :: rest => blockString? true rest
  | true, '\n' :: rest => blockString? true rest
  | true, '\r' :: '\n' :: rest => blockString? true rest
  | _, '"' :: '"' :: '"' :: rest => some (blockEnd '"' rest)
  | _, '"' :: rest => (blockString? false rest).cons '"'
  | _, '\\' :: 'u' :: a :: b :: c :: d :: rest =>
      (blockString? false rest).consOf
        (codedChar? [a, b, c, d])
  | _, '\\' :: 'U' :: a :: b :: c :: d :: e :: f :: g :: h
      :: rest =>
      (blockString? false rest).consOf
        (codedChar? [a, b, c, d, e, f, g, h])
  | _, '\\' :: c :: rest =>
      if endsLine (c :: rest) then
        blockString? true (c :: rest)
      else
        (blockString? false rest).consOf (simpleEscape? c)
  | _, '\r' :: '\n' :: rest =>
      (blockString? false rest).cons '\n'
  | _, '\n' :: rest => (blockString? false rest).cons '\n'
  | _, c :: rest =>
      if isBasicChar c then
        (blockString? false rest).cons c
      else
        none
  | _, [] => none

/- Read a string over several lines, without escapes. -/
def blockLiteral? : List Char → Lexed
  | '\x27' :: '\x27' :: '\x27' :: rest =>
      some (blockEnd '\x27' rest)
  | '\x27' :: rest => (blockLiteral? rest).cons '\x27'
  | '\r' :: '\n' :: rest => (blockLiteral? rest).cons '\n'
  | '\n' :: rest => (blockLiteral? rest).cons '\n'
  | c :: rest =>
      if isLiteralChar c then
        (blockLiteral? rest).cons c
      else
        none
  | [] => none

------------------------------------------------------------
-- Numbers
------------------------------------------------------------

/-
  The digits of a number. Single underscores may stand between
  them and are left out.
-/
def digits?
    (isDigit : Char → Bool) :
    List Char → Option (List Char)
  | [] => none
  | [c] => if isDigit c then some [c] else none
  | c :: '_' :: rest =>
      if isDigit c then
        (digits? isDigit rest).map fun digits => c :: digits
      else
        none
  | c :: rest =>
      if isDigit c then
        (digits? isDigit rest).map fun digits => c :: digits
      else
        none

/- The number that digits denote to a base. -/
def valueOf
    (base : Nat)
    (digits : List Char) : Nat :=
  digits.foldl
    (fun value digit =>
      value * base + Text.hexDigitValue digit)
    0

/- A sign, and what follows it. -/
def splitSign : List Char → Bool × List Char
  | '-' :: rest => (true, rest)
  | '+' :: rest => (false, rest)
  | rest => (false, rest)

/- Decimal digits without a zero before other ones. -/
def decimal?
    (text : List Char) : Option (List Char) := do
  let digits ← digits? Char.isDigit text
  if text.head? = some '0' && text != ['0'] then
    none
  else
    return digits

/- A signed decimal number of 64 bits. -/
def decimalInteger?
    (token : List Char) : Option Int := do
  let (negative, text) := splitSign token
  let magnitude : Int := valueOf 10 (← decimal? text)
  let n := if negative then -magnitude else magnitude
  if fitsSigned 64 n then
    return n
  else
    none

/- A number to another base, which has no sign. -/
def basedInteger?
    (base : Nat)
    (isDigit : Char → Bool)
    (text : List Char) : Option Int := do
  let n : Int := valueOf base (← digits? isDigit text)
  if fitsSigned 64 n then
    return n
  else
    none

/- The integer that a token denotes. -/
def integer? : List Char → Option Int
  | '0' :: 'x' :: rest =>
      basedInteger? 16 Text.isHexDigit rest
  | '0' :: 'o' :: rest =>
      basedInteger? 8 (fun c => '0' ≤ c && c ≤ '7') rest
  | '0' :: 'b' :: rest =>
      basedInteger? 2 (fun c => c == '0' || c == '1') rest
  | token => decimalInteger? token

/-
  Whether the number `digits * 10 ^ exponent` rounds to a
  finite float of 64 bits. It does below the middle between
  the greatest one and the next power of two.
-/
def isFinite
    (digits : List Char)
    (exponent : Int) : Bool :=
  let significant := digits.dropWhile fun c => c == '0'
  let magnitude := (significant.length : Int) + exponent
  if significant.isEmpty || magnitude < 300 then
    true
  else if 400 < magnitude then
    false
  else
    valueOf 10 significant * Nat.pow 10 exponent.toNat
      < (twoPow 1024 - twoPow 970)
        * Nat.pow 10 (-exponent).toNat

/- The exponent of a float, after its letter. -/
def exponent?
    (text : List Char) : Option Int := do
  let (negative, text) := splitSign text
  let magnitude : Int :=
    valueOf 10 (← digits? Char.isDigit text)
  return if negative then -magnitude else magnitude

/- The parts of a text around the first of some characters. -/
def cut
    (p : Char → Bool)
    (text : List Char) : List Char × Option (List Char) :=
  let front := text.takeWhile fun c => !p c
  match text.dropWhile fun c => !p c with
  | [] => (front, none)
  | _ :: back => (front, some back)

/- The letter before an exponent. -/
def isExponentSign
    (c : Char) : Bool :=
  c == 'e' || c == 'E'

/-
  Whether a token denotes a float: a number with a fraction
  or an exponent, which must not be too great, or a name.
-/
def isFloat
    (token : List Char) : Bool :=
  let (negative, text) := splitSign token
  if text == ['i', 'n', 'f'] || text == ['n', 'a', 'n'] then
    true
  else
    let (mantissa, exponentText?) := cut isExponentSign text
    let (whole, fraction?) := cut (fun c => c == '.') mantissa
    let number? : Option (List Char × Int) := do
      let whole ← decimal? whole
      let fraction ←
        match fraction? with
        | none => some []
        | some fraction => digits? Char.isDigit fraction
      let exponent ←
        match exponentText? with
        | none => some 0
        | some text => exponent? text
      return (whole ++ fraction,
        exponent - fraction.length)
    match number? with
    | none => false
    | some (digits, exponent) =>
        (fraction?.isSome || exponentText?.isSome)
          && (negative || isFinite digits exponent)

------------------------------------------------------------
-- Dates and Times
------------------------------------------------------------

/- The number that exactly so many digits denote. -/
def fixedNumber?
    (digits : List Char) : Option Nat :=
  if digits.all Char.isDigit then
    some (valueOf 10 digits)
  else
    none

/- The number of days in a month. -/
def daysIn
    (year month : Nat) : Nat :=
  if month = 2 then
    if year % 4 = 0 && (year % 100 != 0 || year % 400 = 0)
    then 29
    else 28
  else if [4, 6, 9, 11].contains month then
    30
  else
    31

/- What follows a date at the beginning of a text. -/
def afterDate? : List Char → Option (List Char)
  | a :: b :: c :: d :: '-' :: e :: f :: '-' :: g :: h
      :: rest => do
      let year ← fixedNumber? [a, b, c, d]
      let month ← fixedNumber? [e, f]
      let day ← fixedNumber? [g, h]
      if 1 ≤ month && month ≤ 12 && 1 ≤ day
          && day ≤ daysIn year month then
        return rest
      else
        none
  | _ => none

/- What follows hours and minutes at the beginning of a text. -/
def afterMinutes? : List Char → Option (List Char)
  | a :: b :: ':' :: c :: d :: rest => do
      let hour ← fixedNumber? [a, b]
      let minute ← fixedNumber? [c, d]
      if hour ≤ 23 && minute ≤ 59 then return rest else none
  | _ => none

/- What follows the fraction of a second, if there is one. -/
def afterFraction : List Char → List Char
  | '.' :: c :: rest =>
      if c.isDigit then
        rest.dropWhile Char.isDigit
      else
        '.' :: c :: rest
  | text => text

/- What follows a time at the beginning of a text. -/
def afterTime?
    (text : List Char) : Option (List Char) := do
  match ← afterMinutes? text with
  | ':' :: a :: b :: rest =>
      let second ← fixedNumber? [a, b]
      if second ≤ 60 then
        return afterFraction rest
      else
        none
  | _ => none

/- A text that is nothing, or a distance from universal time. -/
def isOffset : List Char → Bool
  | [] => true
  | ['Z'] | ['z'] => true
  | '+' :: text | '-' :: text => afterMinutes? text == some []
  | _ => false

/- A time, with or without a distance from universal time. -/
def isZonedTime
    (token : List Char) : Bool :=
  match afterTime? token with
  | some rest => isOffset rest
  | none => false

/- A date without a time. -/
def isDate
    (token : List Char) : Bool :=
  afterDate? token == some []

/- A date, a time, or both with a letter between them. -/
def isDatetime
    (token : List Char) : Bool :=
  match afterDate? token with
  | some [] => true
  | some ('T' :: time) => isZonedTime time
  | some ('t' :: time) => isZonedTime time
  | some _ => false
  | none => afterTime? token == some []

end Toml

end Marginalia
