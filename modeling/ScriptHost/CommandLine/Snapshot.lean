import ScriptHost.Disk
import ScriptHost.Json.Reader

/-!
# Snapshots

A disk as JSON: the working directory under `directory` and, under `files`, the path and the text of every file.  A
path is seen from the working directory, and one that ends in a slash stands for a directory.
-/

namespace ScriptHost.CommandLine

/-- A disk and the directory in which the program runs. -/
structure Snapshot where
  directory : String
  disk : Disk

/-- Puts the file on a disk that an item of `files` describes. -/
private def addFile? (directory : String) (d : Disk) : Json → Option Disk
  | .array [.string path, .string text] => some (d.write (Path.join directory path) (.text text))
  | _ => none

/-- The snapshot that a JSON value describes. -/
def Snapshot.ofJson? (value : Json) : Option Snapshot := do
  let directory ← (← value.get? "directory").text?
  guard (Path.isAbsolute directory)
  match ← value.get? "files" with
  | .array files =>
    let empty := Disk.empty.makeDirectories (Disk.placeOf directory)
    return ⟨directory, ← files.foldlM (addFile? directory) empty⟩
  | _ => none

/-- The snapshot that a text describes. -/
def Snapshot.parse? (text : String) : Option Snapshot := (Json.parse? text).bind ofJson?

end ScriptHost.CommandLine
