import Marginalia.Toml.Value

/-
  Tables under construction. Which keys may still be added to
  a table depends on how it came about.

  Key definitions include:
    * `Toml.Origin`
    * `Toml.Node`
    * `Toml.descend`
    * `Toml.putDotted`
    * `Toml.openTable`
    * `Toml.openElement`
-/

namespace Marginalia

namespace Toml

------------------------------------------------------------
-- Nodes
------------------------------------------------------------

/-
  How a table came about: by its own header or braces, by a
  header that leads through it, or by a key with dots.
-/
inductive Origin where
  | declared
  | implied
  | dotted
deriving DecidableEq

/-
  What a key stands for: a value that is complete, a table,
  or the tables that were declared under one header so far.
-/
inductive Node where
  | value (value : Toml)
  | table (origin : Origin) (entries : List (String × Node))
  | tables (elements : List (List (String × Node)))

/- The entries of a table, in the order of their creation. -/
abbrev Nodes : Type :=
  List (String × Node)

mutual

/- The value that a node has become. -/
def Node.toToml : Node → Toml
  | .value value => value
  | .table _ entries => .table (entriesToToml entries)
  | .tables elements => .array (elementsToToml elements)

/- The values of the entries of a table. -/
def entriesToToml :
    List (String × Node) → List (String × Toml)
  | [] => []
  | (key, node) :: rest =>
      (key, node.toToml) :: entriesToToml rest

/- The values of several tables. -/
def elementsToToml :
    List (List (String × Node)) → List Toml
  | [] => []
  | entries :: rest =>
      .table (entriesToToml entries) :: elementsToToml rest

end

/- The entries with another node under the key. -/
def replaceKey
    (key : String)
    (node : Node)
    (entries : Nodes) : Nodes :=
  entries.map fun entry =>
    if entry.1 == key then (key, node) else entry

------------------------------------------------------------
-- Paths
------------------------------------------------------------

/-
  Change the table at the end of a path. Missing tables are
  created with the given origin, existing ones can be entered
  if their origin is admitted, and of several tables under
  one header the last one is entered.
-/
def descend
    (create : Origin)
    (admits : Origin → Bool)
    (change : Origin → Nodes → Option Nodes) :
    List String → Origin → Nodes → Option Nodes
  | [], origin, entries => change origin entries
  | key :: path, _, entries =>
      match entries.lookup key with
      | none => do
          let inner ←
            descend create admits change path create []
          return entries ++ [(key, .table create inner)]
      | some (.value _) => none
      | some (.table origin inner) => do
          if admits origin then
            let inner ←
              descend create admits change path origin inner
            return replaceKey key (.table origin inner) entries
          else
            none
      | some (.tables elements) => do
          let last ← elements.getLast?
          let last ←
            descend create admits change path .declared last
          return replaceKey key
            (.tables (elements.dropLast ++ [last])) entries

/-
  Put a value under a key that may lead, with dots, through
  tables. Tables with a header of their own are not entered,
  and no key is given twice.
-/
def putDotted
    (path : List String)
    (key : String)
    (value : Toml)
    (entries : Nodes) : Option Nodes :=
  descend .dotted (fun origin => origin != .declared)
    (fun origin entries =>
      if (path.isEmpty || origin == .dotted)
          && (entries.lookup key).isNone then
        some (entries ++ [(key, .value value)])
      else
        none)
    path .declared entries

/- A value and the key, with its path, that it stands under. -/
structure Assignment where
  path : List String
  key : String
  value : Toml

/- Put the values under their keys, one after another. -/
def assign
    (assignments : List Assignment)
    (entries : Nodes) : Option Nodes :=
  assignments.foldlM
    (fun entries assignment =>
      putDotted assignment.path assignment.key
        assignment.value entries)
    entries

/-
  Declare a table. A header may have led through it before,
  but it must not have been made in another way.
-/
def openTable
    (path : List String)
    (key : String)
    (assignments : List Assignment)
    (entries : Nodes) : Option Nodes :=
  descend .implied (fun _ => true)
    (fun _ entries =>
      match entries.lookup key with
      | none => do
          let inner ← assign assignments []
          return entries ++ [(key, .table .declared inner)]
      | some (.table .implied inner) => do
          let inner ← assign assignments inner
          return replaceKey key (.table .declared inner) entries
      | some _ => none)
    path .declared entries

/- Declare one more table under a header for several ones. -/
def openElement
    (path : List String)
    (key : String)
    (assignments : List Assignment)
    (entries : Nodes) : Option Nodes :=
  descend .implied (fun _ => true)
    (fun _ entries =>
      match entries.lookup key with
      | none => do
          let inner ← assign assignments []
          return entries ++ [(key, .tables [inner])]
      | some (.tables elements) => do
          let inner ← assign assignments []
          return replaceKey key
            (.tables (elements ++ [inner])) entries
      | some _ => none)
    path .declared entries

end Toml

end Marginalia
