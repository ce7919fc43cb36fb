import Marginalia.Proofs.Literal.Fitting
import Marginalia.Proofs.Text

/-
  The texts in which a type can be written: by any of its
  names, in either of two styles, and with blanks between the
  words and signs.

  Key definitions include:
    * `Shape.BuiltFrom`
    * `Shape.Elementary`
    * `Shape.Named`
    * `Shape.Spells`

  Main statements:
    * `Shape.Spells.begins`
    * `Shape.spells_text`
    * `Shape.builtFrom_elementary_of_ofShape`
-/

namespace Marginalia

namespace Shape

------------------------------------------------------------
-- Elementary Types
------------------------------------------------------------

/- All types of which the shape is put together satisfy it. -/
def BuiltFrom
    (p : Shape → Prop) : Shape → Prop
  | slice item => item.BuiltFrom p
  | map key value => key.BuiltFrom p ∧ value.BuiltFrom p
  | pointer inner => inner.BuiltFrom p
  | shape => p shape

/- The types with a name and, if they are numbers, a width. -/
def Elementary : Shape → Prop
  | bool | char | string | any | function => True
  | signed bits | unsigned bits => bits ∈ [8, 16, 32, 64]
  | float bits => bits ∈ [32, 64]
  | slice _ | map _ _ | pointer _ | struct _ | channel => False

/- The names of the elementary types. -/
def names : List (Shape × List String) := [
  (bool, ["bool"]),
  (signed 8, ["i8", "int8"]),
  (signed 16, ["i16", "int16"]),
  (signed 32, ["i32", "int32", "rune"]),
  (signed 64, ["i64", "int64", "isize", "int"]),
  (unsigned 8, ["u8", "uint8", "byte"]),
  (unsigned 16, ["u16", "uint16"]),
  (unsigned 32, ["u32", "uint32"]),
  (unsigned 64, ["u64", "uint64", "usize", "uint"]),
  (float 32, ["f32", "float32"]),
  (float 64, ["f64", "float64"]),
  (char, ["char"]),
  (string, ["String", "string", "str"]),
  (any, ["any", "Value", "interface"]),
  (function, ["fn", "func"])]

/- The type has the name. -/
def Named
    (shape : Shape)
    (name : String) : Prop :=
  ∃ entry ∈ names, shape = entry.1 ∧ name ∈ entry.2

/- What holds of all names, one by one. -/
theorem Named.of_forall
    {p : Shape → String → Prop}
    (hNames :
      ∀ entry ∈ names, ∀ name ∈ entry.2, p entry.1 name)
    {shape : Shape}
    {name : String}
    (hName : Named shape name) :
    p shape name := by
  rcases hName with ⟨entry, hEntry, rfl, hMember⟩
  exact hNames entry hEntry name hMember

/- The written form of an elementary type is one of its names. -/
theorem Elementary.named_text
    {shape : Shape}
    (hShape : shape.Elementary) :
    Named shape shape.text := by
  have hNumber :
      ∀ bits ∈ [8, 16, 32, 64],
        Named (signed bits) (signed bits).text ∧
          Named (unsigned bits) (unsigned bits).text := by
    unfold Named
    decide
  have hFloat :
      ∀ bits ∈ [32, 64],
        Named (float bits) (float bits).text := by
    unfold Named
    decide
  cases shape with
  | signed bits => exact (hNumber bits hShape).1
  | unsigned bits => exact (hNumber bits hShape).2
  | float bits => exact hFloat bits hShape
  | slice _ | map _ _ | pointer _ | struct _ | channel =>
      exact hShape.elim
  | bool | char | string | any | function =>
      unfold Named
      decide

------------------------------------------------------------
-- Spellings
------------------------------------------------------------

/-
  The text is a spelling of the shape. Slices, maps and
  pointers each have several forms, which may be mixed. There
  may be blanks at the ends of a type and behind a word, but
  none in `[]` or between the sign of a pointer and `mut`.
-/
inductive Spells : Shape → List Char → Prop where
  | padded
      {shape : Shape}
      {text front back : List Char}
      (hText : Spells shape text)
      (hFront : Text.Blank front)
      (hBack : Text.Blank back) :
      Spells shape (front ++ (text ++ back))
  | name
      {shape : Shape}
      {name : String}
      (hName : Named shape name) :
      Spells shape name.toList
  | vec
      {item : Shape}
      {gap text : List Char}
      (hGap : Text.Blank gap)
      (hItem : Spells item text) :
      Spells (slice item)
        ("Vec".toList ++ (gap ++ '<' :: (text ++ ['>'])))
  | bracketed
      {item : Shape}
      {text : List Char}
      (hItem : Spells item text) :
      Spells (slice item) ('[' :: (text ++ [']']))
  | brackets
      {item : Shape}
      {text : List Char}
      (hItem : Spells item text) :
      Spells (slice item) ('[' :: ']' :: text)
  | angledMap
      {key value : Shape}
      {name : String}
      {gap first second : List Char}
      (hName : name ∈ ["HashMap", "BTreeMap", "Map"])
      (hGap : Text.Blank gap)
      (hKey : Spells key first)
      (hValue : Spells value second) :
      Spells (map key value)
        (name.toList ++
          (gap ++
            '<' :: (first ++ ',' :: (second ++ ['>']))))
  | bracketMap
      {key value : Shape}
      {gap first second : List Char}
      (hGap : Text.Blank gap)
      (hKey : Spells key first)
      (hValue : Spells value second) :
      Spells (map key value)
        ("map".toList ++
          (gap ++ '[' :: (first ++ ']' :: second)))
  | box
      {inner : Shape}
      {gap text : List Char}
      (hGap : Text.Blank gap)
      (hInner : Spells inner text) :
      Spells (pointer inner)
        ("Box".toList ++ (gap ++ '<' :: (text ++ ['>'])))
  | pointer
      {inner : Shape}
      {sign : Char}
      {text : List Char}
      (hSign : sign ∈ ['&', '*'])
      (hInner : Spells inner text) :
      Spells (pointer inner) (sign :: text)
  | mutable
      {inner : Shape}
      {sign blank : Char}
      {text : List Char}
      (hSign : sign ∈ ['&', '*'])
      (hBlank : Text.isBlank blank = true)
      (hInner : Spells inner text) :
      Spells (pointer inner)
        (sign :: 'm' :: 'u' :: 't' :: blank :: text)

/-
  A text that begins neither with a closing bracket nor with
  the word `mut`.
-/
def Begins
    (text : List Char) : Prop :=
  ∃ c d rest,
    text = c :: d :: rest ∧ c ≠ ']' ∧ (c = 'm' → d ≠ 'u')

theorem Begins.append
    {text : List Char}
    (hText : Begins text)
    (rest : List Char) :
    Begins (text ++ rest) := by
  rcases hText with ⟨c, d, later, rfl, hStart⟩
  exact ⟨c, d, later ++ rest, rfl, hStart⟩

theorem Begins.padded
    {front text : List Char}
    (hText : Begins text)
    (hFront : Text.Blank front) :
    Begins (front ++ text) := by
  cases front with
  | nil => exact hText
  | cons blank front =>
      have hBlank := hFront blank List.mem_cons_self
      rcases hText with ⟨c, d, rest, rfl, _⟩
      rcases List.exists_cons_of_ne_nil
          (List.append_ne_nil_of_right_ne_nil front
            (List.cons_ne_nil c (d :: rest))) with
        ⟨e, later, hLater⟩
      refine ⟨blank, e, later, congrArg _ hLater,
        Text.ne_of_isBlank hBlank (by decide), ?_⟩
      exact fun hWord =>
        absurd hWord (Text.ne_of_isBlank hBlank (by decide))

/- Words other than `mut` begin so. -/
theorem begins_of_name
    {shape : Shape}
    {name : String}
    (hName : Named shape name) :
    Begins name.toList :=
  hName.of_forall (p := fun _ name => Begins name.toList)
    (by simp [names, Begins])

theorem begins_of_sign
    {sign c : Char}
    (hSign : sign ∈ ['&', '*'])
    (rest : List Char) :
    Begins (sign :: c :: rest) := by
  have hOther :
      ∀ sign ∈ ['&', '*'], sign ≠ ']' ∧ sign ≠ 'm' := by
    decide
  rcases hOther sign hSign with ⟨hClosing, hWord⟩
  exact ⟨sign, c, rest, rfl, hClosing,
    fun hEqual => absurd hEqual hWord⟩

theorem Spells.begins
    {shape : Shape}
    {text : List Char}
    (hText : Spells shape text) :
    Begins text := by
  induction hText with
  | padded hText hFront hBack ih =>
      exact (ih.append _).padded hFront
  | name hName => exact begins_of_name hName
  | vec => exact ⟨'V', 'e', _, rfl, by decide⟩
  | bracketed hItem ih =>
      rcases ih with ⟨c, d, rest, rfl, _⟩
      exact ⟨'[', c, _, rfl, by decide, nofun⟩
  | brackets => exact ⟨'[', ']', _, rfl, by decide⟩
  | angledMap hName =>
      have hBegins :
          ∀ name ∈ ["HashMap", "BTreeMap", "Map"],
            Begins name.toList := by
        simp [Begins]
      exact (hBegins _ hName).append _
  | bracketMap => exact ⟨'m', 'a', _, rfl, by decide⟩
  | box => exact ⟨'B', 'o', _, rfl, by decide⟩
  | pointer hSign hInner ih =>
      rcases ih with ⟨c, d, rest, rfl, _⟩
      exact begins_of_sign hSign _
  | mutable hSign => exact begins_of_sign hSign _

------------------------------------------------------------
-- Written Forms
------------------------------------------------------------

/- The written form of a shape is a spelling of it. -/
theorem spells_text
    {shape : Shape}
    (hShape : shape.BuiltFrom Elementary) :
    Spells shape shape.text.toList := by
  induction shape with
  | slice item ih =>
      have hEmpty : Text.Blank [] := nofun
      have hText := Spells.vec hEmpty (ih hShape)
      simpa [text] using hText
  | map key value ihKey ihValue =>
      rcases hShape with ⟨hKey, hValue⟩
      have hEmpty : Text.Blank [] := nofun
      have hSpace : Text.Blank [' '] := by
        unfold Text.Blank
        decide
      have hName : "Map" ∈ ["HashMap", "BTreeMap", "Map"] := by
        decide
      have hText :=
        Spells.angledMap hName hEmpty (ihKey hKey)
          ((ihValue hValue).padded hSpace hEmpty)
      simpa [text] using hText
  | pointer inner ih =>
      have hSign : '&' ∈ ['&', '*'] := by
        decide
      have hText := Spells.pointer hSign (ih hShape)
      simpa [text] using hText
  | _ => exact .name (Elementary.named_text hShape)

------------------------------------------------------------
-- Classified Types
------------------------------------------------------------

/- The types that a word denotes. -/
def Denotable : Shape → Prop
  | struct _ | channel => True
  | shape => shape.Elementary

/- Types without a literal are not put together with others. -/
theorem builtFrom_elementary_of_ofPointee
    {shape : Shape}
    {descriptor : Descriptor}
    (hPointee :
      Descriptor.ofPointee? shape = some descriptor)
    (hShape : shape.BuiltFrom Denotable) :
    shape.BuiltFrom Elementary := by
  fun_induction Descriptor.ofPointee? shape
      generalizing descriptor with
  | case7 item ih | case8 item _ _ ih =>
      rcases Option.map_eq_some_iff.mp hPointee with
        ⟨inner, hInner, _⟩
      exact ih hInner hShape
  | case9 item ih | case10 item _ ih =>
      rcases Option.map_eq_some_iff.mp hPointee with
        ⟨inner, hInner, _⟩
      exact ⟨trivial, ih hInner hShape.2⟩
  | case11 => cases hPointee
  | _ => exact hShape

theorem builtFrom_elementary_of_ofShape
    {shape : Shape}
    {descriptor : Descriptor}
    (hClassified : Descriptor.ofShape shape = .ok descriptor)
    (hShape : shape.BuiltFrom Denotable) :
    shape.BuiltFrom Elementary := by
  have hPointee := Descriptor.ofPointee_of_ofShape hClassified
  cases shape with
  | pointer inner =>
      have hInner : inner.BuiltFrom Elementary :=
        builtFrom_elementary_of_ofPointee hPointee hShape
      exact hInner
  | _ =>
      exact builtFrom_elementary_of_ofPointee hPointee hShape

end Shape

end Marginalia
