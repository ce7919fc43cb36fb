import Marginalia.ReadError
import Marginalia.Text.Bytes
import Marginalia.Value

/-
  Destinations: the types of the places into which literals
  are read, and what can be written there.

  Key definitions include:
    * `MapKind`
    * `Target`
    * `Target.Content`
    * `Target.fresh`
    * `Target.shape`
    * `Rejection`
    * `Write`
    * `Child`
    * `Target.setBool`
    * `Target.setSigned`
    * `Target.setUnsigned`
    * `Target.setString`
    * `Target.setRaw`
    * `Target.beginSlice`
    * `Target.pushItem`
    * `Target.beginMap`
    * `Target.mapEntry`
    * `Target.setValue`
-/

namespace Marginalia

------------------------------------------------------------
-- Targets
------------------------------------------------------------

/- Maps differ in name only; both list their keys in order. -/
inductive MapKind where
  | hashed
  | ordered
deriving DecidableEq

/- The type of a destination. -/
inductive Target where
  | bool
  | int (type : IntType)
  | string
  | dynamic
  | list (item : Target)
  | map (kind : MapKind) (item : Target)
  | box (inner : Target)
deriving DecidableEq

namespace Target

/- What a destination holds. -/
def Content : Target → Type
  | bool => Bool
  | int type => type.Member
  | string => String
  | dynamic => Value
  | list item => List item.Content
  | map _ item => Entries item.Content
  | box inner => inner.Content

/- What a new destination holds. -/
def fresh : (target : Target) → target.Content
  | bool => false
  | int type => type.zero
  | string => ""
  | dynamic => Value.null
  | list item => ([] : List item.Content)
  | map _ item => (Entries.empty : Entries item.Content)
  | box inner => inner.fresh

/- The name of a destination in messages. -/
def name : Target → String
  | bool => "bool"
  | int type => type.name
  | string => "String"
  | dynamic => "any"
  | list _ => "Vec"
  | map .hashed _ => "HashMap<String, _>"
  | map .ordered _ => "BTreeMap<String, _>"
  | box inner => inner.name

/- The shape of a destination. -/
def shape : Target → Shape
  | bool => .bool
  | int type => type.shape
  | string => .string
  | dynamic => .any
  | list item => .slice item.shape
  | map _ item => .map .string item.shape
  | box inner => .pointer inner.shape

end Target

------------------------------------------------------------
-- Writing
------------------------------------------------------------

/- Why a destination does not take what it is offered. -/
inductive Rejection where
  | overflow (type : IntType)
  | mismatch (destination : String) (offer : Offer)
deriving DecidableEq

/-
  An action that writes to a destination. What was written
  before a rejection stays there.
-/
abbrev Write (δ α : Type) : Type :=
  EStateM Rejection δ α

/-
  A place inside a destination: its own type, and what the
  whole holds when the place holds something.
-/
structure Child (target : Target) where
  inner : Target
  put : inner.Content → target.Content

namespace Child

variable {target : Target}

/- Write to the place, which is new. -/
def write
    {α : Type}
    (child : Child target)
    (action : Write child.inner.Content α) :
    Write target.Content α :=
  fun _ =>
    match action child.inner.fresh with
    | .ok result content =>
        .ok result (child.put content)
    | .error rejection content =>
        .error rejection (child.put content)

end Child

namespace Target

/- Replace the contents. -/
def store
    {δ : Type}
    (content : δ) : Write δ Unit :=
  set content

/- Refuse what a destination of this type cannot hold. -/
def refuse
    {α : Type}
    (target : Target)
    (offer : Offer) : Write target.Content α :=
  throw (.mismatch target.name offer)

/- Write a truth value. -/
def setBool :
    (target : Target) → Bool → Write target.Content Unit
  | bool, value => store value
  | dynamic, value => store (Value.bool value)
  | box inner, value => inner.setBool value
  | target, _ => target.refuse .bool

/- Write an integer to a destination of an integer type. -/
def setMember
    (type : IntType)
    (n : Int) : Write type.Member Unit :=
  match type.member? n with
  | some member => set member
  | none => throw (.overflow type)

/- Write a signed integer. -/
def setSigned :
    (target : Target) → Int64 → Write target.Content Unit
  | int type, value => setMember type value.toInt
  | dynamic, value => store (Value.int value)
  | box inner, value => inner.setSigned value
  | target, _ => target.refuse .integer

/- Write an unsigned integer. -/
def setUnsigned :
    (target : Target) → UInt64 → Write target.Content Unit
  | int type, value => setMember type value.toNat
  | dynamic, value => store (Value.ofUnsigned value)
  | box inner, value => inner.setUnsigned value
  | target, _ => target.refuse .integer

/- Write a string. -/
def setString :
    (target : Target) → String → Write target.Content Unit
  | string, value => store value
  | dynamic, value => store (Value.string value)
  | box inner, value => inner.setString value
  | target, _ => target.refuse .string

/- Drop the contents and prepare for items. -/
def beginSlice :
    (target : Target) → Write target.Content Unit
  | list item => store ([] : List item.Content)
  | dynamic => store (Value.slice [])
  | box inner => inner.beginSlice
  | target => target.refuse .slice

/- The place after the items of a list. -/
def itemAfter
    {item : Target}
    (items : List item.Content) : Child (list item) :=
  ⟨item, fun content =>
    (items ++ [content] : List item.Content)⟩

/- The place after the items that are there. -/
def nextItem :
    (target : Target) → target.Content →
      Except Rejection (Child target)
  | list _, items => .ok (itemAfter items)
  | dynamic, .slice items =>
      .ok ⟨dynamic, fun (content : Value) =>
        Value.slice (items ++ [content])⟩
  | dynamic, (value : Value) =>
      .error (.mismatch value.kindName .sliceItem)
  | box inner, content =>
      (inner.nextItem content).map fun child =>
        ⟨child.inner, child.put⟩
  | target, _ => .error (.mismatch target.name .slice)

/- Drop the contents and prepare for entries. -/
def beginMap :
    (target : Target) → Write target.Content Unit
  | map _ item =>
      store (Entries.empty : Entries item.Content)
  | dynamic => store (Value.map [])
  | box inner => inner.beginMap
  | target => target.refuse .map

/- The place under a key of a map. -/
def entryUnder
    {kind : MapKind}
    {item : Target}
    (key : String)
    (entries : Entries item.Content) :
    Child (map kind item) :=
  ⟨item, fun content => entries.insert key content⟩

/- The place under a key. -/
def entryOf :
    (target : Target) → String → target.Content →
      Except Rejection (Child target)
  | map _ _, key, entries => .ok (entryUnder key entries)
  | dynamic, key, .map entries =>
      .ok ⟨dynamic, fun (content : Value) =>
        Value.map (insertByKey key content entries)⟩
  | dynamic, _, (value : Value) =>
      .error (.mismatch value.kindName .mapEntry)
  | box inner, key, content =>
      (inner.entryOf key content).map fun child =>
        ⟨child.inner, child.put⟩
  | target, _, _ => .error (.mismatch target.name .map)

/- Enter a place that is found in the present contents. -/
def enter
    (target : Target)
    (find :
      target.Content → Except Rejection (Child target)) :
    Write target.Content (Child target) := do
  match find (← get) with
  | .ok child =>
      set (child.put child.inner.fresh)
      return child
  | .error rejection => throw rejection

/- Append a new item, as a place of its own. -/
def pushItem
    (target : Target) :
    Write target.Content (Child target) :=
  target.enter target.nextItem

/- Renew the entry of a key, as a place of its own. -/
def mapEntry
    (target : Target)
    (key : String) :
    Write target.Content (Child target) :=
  target.enter (target.entryOf key)

/- Append an item and write to it. -/
def appendItem
    (item : Target)
    (action : Write item.Content Unit) :
    Write (list item).Content Unit :=
  fun items => (itemAfter items).write action items

/- Renew the entry of a key and write to it. -/
def renewEntry
    (kind : MapKind)
    (item : Target)
    (key : String)
    (action : Write item.Content Unit) :
    Write (map kind item).Content Unit :=
  fun entries => (entryUnder key entries).write action entries

/-
  Write bytes. A list takes them one by one, as unsigned
  integers; a value takes them as a string.
-/
def setRaw :
    (target : Target) → List UInt8 →
      Write target.Content Unit
  | list item, bytes => do
      (list item).beginSlice
      bytes.forM fun byte =>
        appendItem item (item.setUnsigned byte.toUInt64)
  | dynamic, bytes =>
      store (Value.string
        (String.ofList (Text.decodeLossy bytes)))
  | box inner, bytes => inner.setRaw bytes
  | target, _ => target.refuse .rawBytes

/-
  Write a value, part by part where the destination has a
  type of its own. The entries of a map are written in the
  order of their keys.
-/
def setValue :
    (target : Target) → Value → Write target.Content Unit
  | dynamic, value => store value
  | box inner, value => inner.setValue value
  | list item, .slice items => do
      (list item).beginSlice
      items.forM fun value =>
        appendItem item (item.setValue value)
  | map kind item, .map entries => do
      (map kind item).beginMap
      entries.forM fun entry =>
        renewEntry kind item entry.1
          (item.setValue entry.2)
  | target, .null => target.refuse .null
  | target, .bool value => target.setBool value
  | target, .int value => target.setSigned value
  | target, .uint value => target.setUnsigned value
  | target, .string value => target.setString value
  | target, .slice _ => target.refuse .slice
  | target, .map _ => target.refuse .map

end Target

end Marginalia
