import Marginalia.Entries

/-
  Trees of files, and the paths that lead through them.

  Key definitions include:
    * `FileTree`
    * `FileTree.insert`
    * `FileError`
    * `FileView`
    * `FileTree.resolve`
    * `FileView.readText`
    * `FileView.walk`
-/

namespace Marginalia

------------------------------------------------------------
-- Trees
------------------------------------------------------------

/-
  A file with its text, or a folder with its entries by name.
  The text is missing if the bytes of the file are not UTF-8.
-/
inductive FileTree where
  | file (text? : Option String)
  | folder (entries : List (String × FileTree))
deriving Inhabited

namespace FileTree

/- The entries of a folder; a file has none. -/
def entries : FileTree → List (String × FileTree)
  | file _ => []
  | folder entries => entries

/-
  Put a tree at the end of a path of names. Folders are made
  where they are missing.
-/
def insert
    (inserted : FileTree) :
    List String → FileTree → FileTree
  | [], _ => inserted
  | name :: path, tree =>
      let inner := (tree.entries.lookup name).getD (folder [])
      folder (insertByKey name (insert inserted path inner)
        tree.entries)

end FileTree

------------------------------------------------------------
-- Paths
------------------------------------------------------------

/- Why a file cannot be read. -/
inductive FileError where
  | notFound
  | notFolder
  | isFolder
  | notText
deriving DecidableEq

namespace FileError

/- The wording of the reason. -/
def text : FileError → String
  | notFound => "No such file or directory (os error 2)"
  | notFolder => "Not a directory (os error 20)"
  | isFolder => "Is a directory (os error 21)"
  | notText => "stream did not contain valid UTF-8"

/- The wording of the reason together with the path. -/
def message
    (error : FileError)
    (path : String) : String :=
  "Failed to read file " ++ path ++ ": " ++ error.text

end FileError

/- What is found at the end of each path. -/
abbrev FileView : Type :=
  String → Except FileError FileTree

namespace FileTree

/-
  Follow the parts of a path. Behind the present tree are the
  folders that contain it, the nearest first. Only a folder
  can be followed further, even by an empty part.
-/
def follow :
    List (List Char) → List FileTree → FileTree →
      Except FileError FileTree
  | [], _, tree => .ok tree
  | _ :: _, _, file _ => .error .notFolder
  | part :: parts, behind, folder entries =>
      if part = [] ∨ part = ['.'] then
        follow parts behind (folder entries)
      else if part = ['.', '.'] then
        match behind with
        | outer :: behind => follow parts behind outer
        | [] => .error .notFound
      else
        match entries.lookup (String.ofList part) with
        | some inner =>
            follow parts (folder entries :: behind) inner
        | none => .error .notFound

/- What is found at the end of each path from this folder on. -/
def resolve
    (root : FileTree) : FileView :=
  fun path =>
    if path.isEmpty then
      .error .notFound
    else
      follow (path.toList.splitOn '/') [] root

end FileTree

------------------------------------------------------------
-- Reading
------------------------------------------------------------

namespace FileView

/- The text of the file at the end of a path. -/
def readText
    (view : FileView)
    (path : String) : Except FileError String := do
  match ← view path with
  | .folder _ => throw .isFolder
  | .file none => throw .notText
  | .file (some text) => return text

/- Whether a path leads to a file. -/
def isFile
    (view : FileView)
    (path : String) : Bool :=
  match view path with
  | .ok (.file _) => true
  | _ => false

end FileView

/- A path with one more name. -/
def Path.join
    (path name : String) : String :=
  if path.toList.getLast? = some '/' then
    path ++ name
  else
    path ++ "/" ++ name

namespace FileTree

mutual

/-
  The files of a tree that is found under the given path, each
  with its own path and its text. Folders are entered where
  their name falls.
-/
def files
    (path : String) :
    FileTree → List (String × Option String)
  | file text? => [(path, text?)]
  | folder entries => filesIn path entries

/- The files in the entries of a folder. -/
def filesIn
    (path : String) :
    List (String × FileTree) → List (String × Option String)
  | [] => []
  | (name, tree) :: rest =>
      files (Path.join path name) tree ++ filesIn path rest

end

end FileTree

/- The files under a path; there are none if it leads nowhere. -/
def FileView.walk
    (view : FileView)
    (path : String) : List (String × Option String) :=
  match view path with
  | .ok tree => tree.files path
  | .error _ => []

end Marginalia
