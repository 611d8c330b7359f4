import ScriptHost.Disk
import ScriptHost.Text.Basic

/-!
# Resolvers

A resolver finds the file that a script means when it names a module.
-/

namespace ScriptHost.Resolution

open ScriptHost.Text

/-- Why no file was found. -/
inductive Failure where
  /-- No file has the name `specifier` as seen from `origin`. -/
  | notFound (specifier origin : String)
  /-- The name consists of white space. -/
  | blank (specifier : String)
  deriving DecidableEq, Repr

/-- The failure in words. -/
def Failure.message : Failure → String
  | notFound specifier origin => "cannot resolve '" ++ specifier ++ "' from " ++ origin
  | blank specifier => "invalid module specifier '" ++ specifier ++ "'"

/-- A way to find files. -/
structure Resolver where
  /-- Finds the file with a name, as seen from an origin. -/
  resolve : Disk → String → String → Except Failure String
  /-- The modules that the run-time system brings along. -/
  builtIns : List String

/-- Whether a name is that of a module which the run-time system brings along. -/
def Resolver.isBuiltIn (r : Resolver) (name : String) : Bool :=
  r.builtIns.contains name || (afterLead? "node:" name).any r.builtIns.contains

end ScriptHost.Resolution
