import ScriptHost.Analysis.SyntaxEngine
import ScriptHost.CommandLine.Arguments
import ScriptHost.CommandLine.Report
import ScriptHost.Config.Load
import ScriptHost.Host.Files
import ScriptHost.Ignore.Walk
import ScriptHost.Resolution.Lookup

/-!
# Running commands

A command runs in a directory on a disk.  It opens a host at the root of the repository, with the options of the
configuration file, works with it, and reports.
-/

namespace ScriptHost.CommandLine

open ScriptHost.Analysis ScriptHost.Path

/-- Why a command failed. -/
inductive Failure where
  /-- There is nothing at the root of the repository. -/
  | noRoot (path : String)
  | host (cause : HostError)
  deriving DecidableEq, Repr

/-- The failure in words. -/
def Failure.message : Failure → String
  | noRoot path => "Cannot open repository root " ++ path
  | host cause => cause.message

/-! ### Hosts -/

/-- The tools of all commands. -/
def tools : Tools SyntaxEngine := ⟨Resolution.nodeResolver, Merge.typePrelude, SyntaxEngine.engine⟩

/-- The name of the configuration file at a root. -/
def configName : String := "arbor.toml"

/-- The options of the configuration file that is named, or else of the one at the root, if there is one. -/
def loadConfig (d : Disk) (directory root : String) : Option String → Except Config.Error Options
  | some path => Config.loadOptionsAs d path (join directory path)
  | none =>
    let path := join root configName
    if d.isFile path then Config.loadOptions d path else .ok ⟨none, none, none⟩

/-- The host at the root of the repository. -/
def openHost (o : Switches) (directory : String) (d : Disk) : Except Failure (Host SyntaxEngine) := do
  let shown := o.root.getD "."
  let place ← (d.locate (join directory shown)).mapError fun _ => .noRoot shown
  let root := Disk.pathOf place
  let options ← (loadConfig d directory root o.config).mapError fun cause => .host (.config cause)
  match Host.setOptions options d (Host.fresh tools .fresh root) with
  | (.ok _, h) => return h
  | (.error cause, _) => .error (.host cause)

/-! ### Commands -/

section

variable {σ : Type}

/-- Tracks files one after the other; one that cannot be tracked is passed over. -/
def addEach : List String → Action σ Unit
  | [] => pure ()
  | path :: rest => do
    let _ ← (Host.addFile { path }).attempt
    addEach rest

/-- The scripts below a directory, without declarations. -/
def scriptsBelow (d : Disk) (directory : String) : List String :=
  ((Ignore.filesBelow d (Disk.placeOf directory)).map Disk.pathOf).filter fun path =>
    isScript path && !Text.hasTail declarationExtension path

/-- Tracks the scripts below the directory of the host. -/
def indexAll : Action σ Unit := do
  addEach (scriptsBelow (← Action.disk) (← Action.host).directory)

/-- All that is tracked. -/
def trackedReport : Action σ Report := do
  let store := (← Action.host).store
  return .tracked (store.paths.map fun path => (path, store.version path))

/-- Does what a command says. -/
def Command.perform : Command → Action σ Report
  | track file => do
    let _ ← Host.addFile { path := file, withImports := true }
    trackedReport
  | imports file => do return .imports (← Host.importsOfFile file)
  | closure file => do return .closure (← Host.expandClosure file none)
  | index => do
    indexAll
    trackedReport
  | watch => do
    indexAll
    return .nothing
  | version => return .version

end

/-- Runs a command in a directory. -/
def report (command : Command) (o : Switches) (directory : String) (d : Disk) : Except Failure Report := do
  if command = .version then return .version
  let h ← openHost o directory d
  (command.perform d h).1.mapError .host

/-! ### Runs -/

/-- What a run of the program leaves behind. -/
structure Outcome where
  exitCode : Nat
  output : String := ""
  /-- Why the command failed. -/
  failure : Option Failure := none
  deriving DecidableEq, Repr

/-- How to use the program. -/
def usage : String :=
  "Usage: arbor [OPTIONS] <COMMAND>\n\n" ++
    "Commands: track <FILE>, imports <FILE>, closure <FILE>, index, watch, version\n" ++
    "Options: -v, --verbose; -r, --root <ROOT>; -c, --config <CONFIG>; --json; -h, --help\n"

/-- Runs the program with arguments in a directory. -/
def run (directory : String) (d : Disk) (arguments : List String) : Outcome :=
  match parse arguments with
  | .error .help => { exitCode := 0, output := usage }
  | .error .misuse => { exitCode := 2 }
  | .ok (command, o) =>
    match report command o directory d with
    | .ok r => { exitCode := 0, output := r.text o.json }
    | .error failure => { exitCode := 1, failure := some failure }

end ScriptHost.CommandLine
