import Marginalia.Scan

/-
  The notation in which types are written.

  Key definitions include:
    * `Shape.ofName?`
    * `Shape.scan`
    * `Shape.ofText`
-/

namespace Marginalia

namespace Shape

------------------------------------------------------------
-- Names
------------------------------------------------------------

/- The types that a single word denotes; several have synonyms. -/
def ofName? : String → Option Shape
  | "bool" => some bool
  | "i8" | "int8" => some (signed 8)
  | "i16" | "int16" => some (signed 16)
  | "i32" | "int32" | "rune" => some (signed 32)
  | "i64" | "int64" | "isize" | "int" => some (signed 64)
  | "u8" | "uint8" | "byte" => some (unsigned 8)
  | "u16" | "uint16" => some (unsigned 16)
  | "u32" | "uint32" => some (unsigned 32)
  | "u64" | "uint64" | "usize" | "uint" => some (unsigned 64)
  | "f32" | "float32" => some (float 32)
  | "f64" | "float64" => some (float 64)
  | "char" => some char
  | "String" | "string" | "str" => some string
  | "any" | "Value" | "interface" => some any
  | "fn" | "func" => some function
  | "chan" => some channel
  | _ => none

------------------------------------------------------------
-- Types
------------------------------------------------------------

/- Consume blanks and then the given character. -/
def expect
    (c : Char) : Scan Unit := do
  Scan.skipBlanks
  unless ← Scan.eat c do
    Scan.unexpectedNext (.character c)

/-
  Consume the word `mut` if a blank follows it; otherwise it
  begins the name of a type.
-/
def skipMutable : Scan Unit := do
  match (← get).ahead with
  | 'm' :: 'u' :: 't' :: c :: _ =>
      if Text.isBlank c then
        Scan.skip
        Scan.skip
        Scan.skip
  | _ => return

/-
  Read a type, nested at most as deeply as the number says.
  Apart from names there are pointers `&T` and `*T`, slices
  `[T]`, `[]T` and `Vec<T>`, boxes, and maps in two forms.
-/
def scan : Nat → Scan Shape
  | 0 => throw .exhausted
  | depth + 1 => do
      Scan.skipBlanks
      match ← Scan.peek with
      | some '&' | some '*' =>
          Scan.skip
          skipMutable
          return pointer (← scan depth)
      | some '[' =>
          Scan.skip
          if ← Scan.eat ']' then
            return slice (← scan depth)
          let item ← scan depth
          expect ']'
          return slice item
      | _ =>
          let name := String.ofList (← Scan.word)
          match name with
          | "" => Scan.unexpectedNext .typeName
          | "Vec" =>
              expect '<'
              let item ← scan depth
              expect '>'
              return slice item
          | "Box" =>
              expect '<'
              let inner ← scan depth
              expect '>'
              return pointer inner
          | "HashMap" | "BTreeMap" | "Map" =>
              expect '<'
              let key ← scan depth
              expect ','
              let value ← scan depth
              expect '>'
              return map key value
          | "map" =>
              expect '['
              let key ← scan depth
              expect ']'
              return map key (← scan depth)
          | name =>
              return (ofName? name).getD (struct name)

/- The type that a text denotes. -/
def ofText
    (text : String) : Except ReadError Shape :=
  Scan.whole
    (scan (text.length + 1))
    (Scan.unexpectedNext .endOfType)
    text

end Shape

end Marginalia
