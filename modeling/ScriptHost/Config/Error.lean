import ScriptHost.Disk
import ScriptHost.Glob.Syntax

/-!
# Errors of the configuration
-/

namespace ScriptHost.Config

/-- Why options could not be read or set. -/
inductive Error where
  | unreadable (path : String) (cause : Disk.Failure)
  /-- The file holds bytes that encode no text. -/
  | notText (path : String)
  /-- The text is no TOML, or says something else than options. -/
  | malformed
  | invalidRegex (pattern : String)
  | invalidGlob (pattern : String) (cause : Glob.Error)
  /-- No machine could be made for a glob together with those before it. -/
  | unbuiltGlobs (pattern reason : String)
  deriving DecidableEq, Repr

/-- The error in words. -/
def Error.message : Error → String
  | unreadable path cause => "failed to read config " ++ path ++ ": " ++ cause.message
  | notText path => "failed to read config " ++ path ++ ": stream did not contain valid UTF-8"
  | malformed => "invalid config"
  | invalidRegex pattern => "invalid exclusion pattern '" ++ pattern ++ "'"
  | invalidGlob pattern cause =>
    "invalid exclusion pattern '" ++ pattern ++ "': error parsing glob '" ++ pattern ++ "': " ++ cause.message
  | unbuiltGlobs pattern reason => "invalid exclusion pattern '" ++ pattern ++ "': " ++ reason

end ScriptHost.Config
