/-
  Source languages, how their files are recognized, and how
  their comments look.

  Key definitions include:
    * `Language`
    * `CommentStyle`
    * `Language.comments`
    * `Language.ofName?`
    * `Language.ofPath?`
-/

namespace Marginalia

------------------------------------------------------------
-- Languages
------------------------------------------------------------

/- The languages whose comments may hold markers. -/
inductive Language where
  | go
  | rust
  | java
  | kotlin
  | javascript
  | typescript
  | c
  | cpp
  | python
  | shell
deriving DecidableEq

/-
  How comments look: the texts that begin a comment up to the
  end of the line, and the delimiters of a comment that may
  go over several lines. Where one text begins another, the
  longer one is listed first.
-/
structure CommentStyle where
  line : List String
  block? : Option (String × String)
deriving DecidableEq

namespace Language

/- All languages, in the order in which they are tried. -/
def all : List Language :=
  [go, rust, java, kotlin, javascript, typescript, c, cpp,
    python, shell]

/- The name of the language. -/
def name : Language → String
  | go => "go"
  | rust => "rust"
  | java => "java"
  | kotlin => "kotlin"
  | javascript => "javascript"
  | typescript => "typescript"
  | c => "c"
  | cpp => "cpp"
  | python => "python"
  | shell => "shell"

/- The extensions of files in the language. -/
def extensions : Language → List String
  | go => ["go"]
  | rust => ["rs"]
  | java => ["java"]
  | kotlin => ["kt", "kts"]
  | javascript => ["js", "mjs", "cjs", "jsx"]
  | typescript => ["ts", "tsx"]
  | c => ["c", "h"]
  | cpp => ["cpp", "cc", "cxx", "hpp", "hh"]
  | python => ["py"]
  | shell => ["sh", "bash"]

/- How comments look in the language. -/
def comments : Language → CommentStyle
  | rust => ⟨["///", "//!", "//"], some ("/*", "*/")⟩
  | python | shell => ⟨["#"], none⟩
  | _ => ⟨["//"], some ("/*", "*/")⟩

/- The language of the given name. -/
def ofName?
    (name : String) : Option Language :=
  all.find? fun language => language.name == name

end Language

------------------------------------------------------------
-- Paths
------------------------------------------------------------

namespace Path

/-
  The parts of a path between its slashes. Empty parts, and
  single dots, do not lead anywhere and are left out.
-/
def parts
    (path : String) : List (List Char) :=
  (path.toList.splitOn '/').filter fun part =>
    part != [] && part != ['.']

/- The name of the file that a path leads to. -/
def fileName?
    (path : String) : Option (List Char) :=
  (parts path).getLast?.filter fun part =>
    part != ['.', '.']

/-
  The part of the file name after its last dot. A dot at the
  beginning of the name does not count.
-/
def extension?
    (path : String) : Option String := do
  let name ← fileName? path
  match name.reverse.dropWhile fun c => c != '.' with
  | [] => none
  | _ :: [] => none
  | _ :: front =>
      some (String.ofList (name.drop (front.length + 1)))

end Path

/- The language of a file, by the extension of its name. -/
def Language.ofPath?
    (path : String) : Option Language := do
  let extension ← Path.extension? path
  Language.all.find? fun language =>
    language.extensions.contains extension

end Marginalia
