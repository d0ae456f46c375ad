import Telemetry.FileTree
import Telemetry.Log

/-!
# The disk and the standard output

Files are read into a tree before anything is made of them, and changes to the tree are
repeated on the disk.
-/

namespace Telemetry.Program

/-- Shows log lines to those who want to see lines down to a level. -/
def showLines (wanted : String) (lines : List LogLine) : IO Unit := do
  let out ← IO.getStdout
  for l in lines do
    if l.isShown wanted then out.putStrLn l.line
  out.flush

/-- Copies what stands at a path into a tree. -/
def readInto (files : FileTree) (path : String) : IO FileTree := do
  let apply (t : FileTree) (c : FileTree.Change) : FileTree := (t.apply c).toOption.getD t
  let parent := (FileTree.parent? path).getD "."
  try
    let content ← IO.FS.readBinFile path
    pure (apply (apply files (.createDirectories parent)) (.write path content.toList))
  catch
    | .inappropriateType .. => pure (apply files (.createDirectories path))
    | _ => pure files

def readAllInto (files : FileTree) (paths : List String) : IO FileTree :=
  paths.foldlM readInto files

/-- Repeats a change on the disk. -/
def repeatChange : FileTree.Change → IO Unit
  | .createDirectories path => IO.FS.createDirAll path
  | .write path content => IO.FS.writeBinFile path content.toByteArray
  | .rename source target => IO.FS.rename source target

/-- Repeats changes one after another, and tells what made one of them fail. -/
def repeatAll (changes : List FileTree.Change) : IO (Option String) := do
  try
    changes.forM repeatChange
    pure none
  catch e => pure (some (toString e))

end Telemetry.Program
