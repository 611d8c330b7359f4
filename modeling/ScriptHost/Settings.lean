import ScriptHost.Path.Basic

/-!
# Compiler settings and options

The settings that an engine is given, and the options by which a host is set up.  Everything in the options may be
left out, and what is left out stays as it was.
-/

namespace ScriptHost

/-- A level of the language. -/
inductive Target where
  | es5 | es2015 | es2016 | es2017 | es2018 | es2019 | es2020 | esNext
  deriving DecidableEq, Repr

/-- The levels of the language by their names. -/
def Target.names : List (String × Target) :=
  [("ES5", .es5), ("ES2015", .es2015), ("ES2016", .es2016), ("ES2017", .es2017), ("ES2018", .es2018),
    ("ES2019", .es2019), ("ES2020", .es2020), ("ESNext", .esNext)]

/-- The name of a level of the language. -/
def Target.name : Target → String
  | es5 => "ES5"
  | es2015 => "ES2015"
  | es2016 => "ES2016"
  | es2017 => "ES2017"
  | es2018 => "ES2018"
  | es2019 => "ES2019"
  | es2020 => "ES2020"
  | esNext => "ESNext"

/-- A kind of modules. -/
inductive ModuleKind where
  | commonJS | amd | umd | system | es2015 | esNext
  deriving DecidableEq, Repr

/-- The kinds of modules by their names. -/
def ModuleKind.names : List (String × ModuleKind) :=
  [("CommonJS", .commonJS), ("AMD", .amd), ("UMD", .umd), ("System", .system), ("ES2015", .es2015), ("ESNext", .esNext)]

/-- The name of a kind of modules. -/
def ModuleKind.name : ModuleKind → String
  | commonJS => "CommonJS"
  | amd => "AMD"
  | umd => "UMD"
  | system => "System"
  | es2015 => "ES2015"
  | esNext => "ESNext"

/-- What an engine is told about the language. -/
structure Settings where
  target : Target
  module : ModuleKind
  /-- The libraries whose declarations a script may use. -/
  lib : List String
  deriving DecidableEq, Repr

namespace Settings

/-- The settings of a host that is given none. -/
def standard : Settings where
  target := .es2017
  module := .esNext
  lib := ["es2015.promise", "dom", "es6", "scripthost", "es7", "es2017.object", "es2015.proxy"]

/-- The name of the file that declares the default library. -/
def defaultLibrary (s : Settings) : String :=
  match s.target with
  | .es5 => "lib.d.ts"
  | .es2015 => "lib.es6.d.ts"
  | .es2016 => "lib.es2016.full.d.ts"
  | .es2017 => "lib.es2017.full.d.ts"
  | .es2018 => "lib.es2018.full.d.ts"
  | .es2019 => "lib.es2019.full.d.ts"
  | .es2020 => "lib.es2020.full.d.ts"
  | .esNext => "lib.esnext.full.d.ts"

/-- The path of the default library if the libraries are in `directory`. -/
def defaultLibraryPath (s : Settings) (directory : String) : String := Path.join directory s.defaultLibrary

end Settings

/-- What may be set on a host. -/
structure Options where
  /-- Regular expressions; a script whose path matches one is left out of import closures. -/
  excludedFiles : Option (List String)
  /-- Glob patterns to the same effect. -/
  excludedGlobs : Option (List String)
  settings : Option Settings
  deriving DecidableEq, Repr

end ScriptHost
