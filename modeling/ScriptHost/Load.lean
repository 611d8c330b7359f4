import ScriptHost.Disk

/-!
# Loading texts
-/

namespace ScriptHost

/-- Why a text could not be loaded. -/
inductive LoadError where
  | unreadable (path : String) (cause : Disk.Failure)
  /-- The file holds bytes that encode no text. -/
  | notText (path : String)
  deriving DecidableEq, Repr

/-- The error in words. -/
def LoadError.message : LoadError → String
  | unreadable path cause => "failed to read " ++ path ++ ": " ++ cause.message
  | notText path => path ++ " is not valid UTF-8"

namespace Disk

/-- The text of the file at a path. -/
def load (d : Disk) (path : String) : Except LoadError String :=
  match d.read path with
  | .ok (.text s) => .ok s
  | .ok .binary => .error (.notText path)
  | .error cause => .error (.unreadable path cause)

/-- The first of the extensions with which `base` is the path of a file, as such a path. -/
def firstExisting (d : Disk) (base : String) (extensions : List String) : Option String :=
  (extensions.map (base ++ ·)).find? d.isFile

end Disk

end ScriptHost
