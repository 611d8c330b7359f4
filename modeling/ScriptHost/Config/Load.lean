import ScriptHost.Config.Error
import ScriptHost.Config.Toml

/-!
# Loading options
-/

namespace ScriptHost.Config

/-- The options that a text sets. -/
def parseOptions (document : String) : Except Error Options :=
  ((optionsOfToml? document).map .ok).getD (.error .malformed)

/-- The options that the file at a path sets; errors call the file by the name `shown`. -/
def loadOptionsAs (d : Disk) (shown path : String) : Except Error Options :=
  match d.read path with
  | .ok (.text s) => parseOptions s
  | .ok .binary => .error (.notText shown)
  | .error cause => .error (.unreadable shown cause)

/-- The options that the file at a path sets. -/
def loadOptions (d : Disk) (path : String) : Except Error Options := loadOptionsAs d path path

end ScriptHost.Config
