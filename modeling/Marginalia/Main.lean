import Marginalia.Command

/-
  The program: it looks up what is on the disk where a command
  leads to, and prints what comes of the command.

  Key definitions include:
    * `Disk.lookUp`
    * `main`
-/

namespace Marginalia

namespace Disk

/- Why a path does not lead anywhere. -/
def cause : IO.Error → FileError
  | .noFileOrDirectory _ _ _ => .notFound
  | _ => .notFolder

/- The file or folder, with all that can be read in it. -/
partial def read
    (place : IO.FS.DirEntry) : IO FileTree := do
  if ← place.path.isDir then
    let mut entries := []
    for entry in ← place.path.readDir do
      try
        let inner ← read entry
        entries := insertByKey entry.fileName inner entries
      catch _ =>
        pure ()
    return .folder entries
  else
    return .file
      (String.fromUTF8? (← IO.FS.readBinFile place.path))

/- What is found at the end of a path. -/
def lookUp
    (path : String) :
    IO (Except FileError FileTree) := do
  if path.isEmpty then
    return .error .notFound
  let place : IO.FS.DirEntry := ⟨".", path⟩
  try
    return .ok (← read place)
  catch error =>
    return .error (cause error)

end Disk

end Marginalia

open Marginalia in
/- Run the command that the arguments denote. -/
def main
    (arguments : List String) : IO UInt32 := do
  match Command.ofArguments? arguments with
  | none =>
      IO.eprintln "error: the arguments are not accepted"
      return 2
  | some command =>
      let found ← command.paths.mapM fun path => do
        return (path, ← Disk.lookUp path)
      let view : FileView := fun path =>
        (found.lookup path).getD (.error .notFound)
      let result := command.run view
      IO.print result.output
      IO.eprint result.message
      return result.code.toUInt32
