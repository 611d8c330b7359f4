import ScriptHost.Path.Basic
import ScriptHost.Text.Basic

/-!
# Paths of script files

A script is known by the path of its source, which ends in `.ts`, whatever the extension of the file itself
(`sourcePath`).  `.d.ts` counts as one extension and marks a declaration file.  While a compiled file is merged with its
declarations, these are known by a shim path, which ends in `-temp.ts` (`shimPath`, `declarationPath`).
-/

namespace ScriptHost.Path

open ScriptHost.Text

/-- What every source path ends with. -/
def sourceExtension : String := ".ts"

/-- What the path of a declaration file ends with. -/
def declarationExtension : String := ".d.ts"

/-- What the path of a compiled file ends with. -/
def compiledExtension : String := ".js"

/-- What every shim path ends with. -/
def shimEnding : String := "-temp.ts"

/-- Whether a character stands between the names in a path. -/
def isSeparator (c : Char) : Bool := c = '/' || c = '\\'

/-- The path without its extension.  The extension starts at the last dot of the file name, unless that dot begins it.
-/
def clearExtension (path : String) : String :=
  match beforeTail? declarationExtension path with
  | some base => base
  | none =>
    let reversed := path.toList.reverse
    let name := reversed.takeWhile fun c => !isSeparator c
    match name.dropWhile (· ≠ '.') with
    | '.' :: stem@(_ :: _) => String.ofList (stem ++ reversed.drop name.length).reverse
    | _ => path

/-- The path with its extension replaced. -/
def setExtension (path ext : String) : String := clearExtension path ++ ext

/-- The path by which the script at `path` is known. -/
def sourcePath (path : String) : String :=
  match beforeTail? declarationExtension path with
  | some base => base ++ sourceExtension
  | none => setExtension path sourceExtension

/-- Whether a path is a shim path. -/
def isShim (path : String) : Bool := hasTail shimEnding path

/-- The shim path of a declaration file. -/
def shimPath (declaration : String) : String :=
  (beforeTail? declarationExtension declaration).getD declaration ++ shimEnding

/-- The declaration file of a shim path. -/
def declarationPath (shim : String) : String := (beforeTail? shimEnding shim).getD shim ++ declarationExtension

/-- Whether an engine may know a file by this name without its being resolved. -/
def isEngineName (name : String) : Bool := hasTail ".ts" name || hasTail ".tsx" name

/-- The extensions of script files, as they stand after the last dot. -/
def scriptExtensions : List String := ["ts", "tsx", "js", "jsx", "mjs", "cjs"]

/-- Whether a path is that of a script. -/
def isScript (path : String) : Bool := (extension? path).any scriptExtensions.contains

/-- Whether a path lies in a directory that holds no sources. -/
def isIgnored (path : String) : Bool :=
  (components path).any fun c => c = .normal "target" || c = .normal ".git" || c = .normal "node_modules"

/-- What a requested path stands for. -/
structure Identity where
  /-- The file that was found. -/
  resolved : String
  /-- The path by which the script is known. -/
  normalized : String
  /-- Whether this is a shim, which stands for a declaration file during a merge. -/
  isTemporary : Bool
  deriving DecidableEq, Repr

namespace Identity

/-- The identity of a shim path. -/
def shim (path : String) : Identity := ⟨path, path, true⟩

/-- The identity of a file that was found. -/
def ofResolved (path : String) : Identity := ⟨path, sourcePath path, false⟩

/-- Whether the file is a compiled one. -/
def isCompiled (i : Identity) : Bool := !i.isTemporary && hasTail compiledExtension i.resolved

end Identity

end ScriptHost.Path
