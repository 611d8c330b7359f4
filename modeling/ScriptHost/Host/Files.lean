import ScriptHost.Host.Closure

/-!
# Tracked scripts
-/

namespace ScriptHost.Host

open ScriptHost.Analysis ScriptHost.Path ScriptHost.Pattern

variable {σ : Type}

/-- Which script to track, and how. -/
structure Request where
  path : String
  origin : Option String := none
  /-- The text of the script, if it is not to be loaded. -/
  content : Option String := none
  /-- Whether all scripts that it imports are tracked too. -/
  withImports : Bool := false

/-- The statements that the engine reads in a script. -/
def parsedUnit (path : String) : Action σ SourceUnit := do
  match ← Action.ask fun engine view => engine.sourceFile view path with
  | some u => return u
  | none => Action.fail (.engineUnavailable path)

/-- Tracks a script that has been observed. -/
def addObserved (o : Observation) (withImports : Bool) : Action σ SourceUnit := do
  if ← commit o then
    if withImports then
      let _ ← walkImports o
  parsedUnit o.path

/-- Tracks a script. -/
def addFile (r : Request) : Action σ SourceUnit := do
  addObserved (← observe r.path r.origin r.content) r.withImports

/-- The statements of a script, which is tracked if it was not or if its text has changed. -/
def getFile (r : Request) : Action σ SourceUnit := do
  let o ← observe r.path r.origin r.content
  if o.needsUpdate then addObserved o r.withImports
  else
    match ← Action.ask fun engine view => engine.sourceFile view o.path with
    | some u => return u
    | none => addObserved o r.withImports

/-- Merges a tracked script with its declarations again; the answer says whether that gave another text. -/
def refreshDeclarations (name : String) : Action σ Bool := do
  let i ← identify name none
  match (← Action.host).store.get? i.normalized with
  | none => return false
  | some stored =>
    let o ← observeIdentity i (some stored.rawContent)
    let content ← mergedContent o
    if content = stored.content then return false
    Action.changeStore (·.commit o.path o.raw content)
    return true

/-- Stops tracking a script; the answer says whether it was tracked. -/
def removeFile (name : String) : Action σ Bool := do
  let path ← knownName name
  let removed := (← Action.host).store.contains path
  Action.changeStore (·.erase path)
  Action.release path
  return removed

/-- The number of a script's text. -/
def fileVersion (name : String) : Action σ Version := do
  let path ← knownName name
  return (← Action.host).store.version path

/-- The record of a script, if it is tracked. -/
def fileRecord (name : String) : Action σ (Option Record) := do
  let path ← knownName name
  return (← Action.host).store.get? path

/-! ### Options -/

/-- Adds patterns of excluded scripts one after the other. -/
def addExclusions (add : Exclusions → String → Except Config.Error Exclusions) : List String → Action σ Unit
  | [] => pure ()
  | pattern :: rest => do
    let exclusions ← Action.lift .config (add (← Action.host).exclusions pattern)
    (fun _ h => (.ok (), { h with exclusions }) : Action σ Unit)
    addExclusions add rest

/-- Sets options: patterns are added and settings replaced. -/
def setOptions (options : Options) : Action σ Unit := do
  addExclusions Exclusions.addRegex (options.excludedFiles.getD [])
  addExclusions Exclusions.addGlob (options.excludedGlobs.getD [])
  match options.settings with
  | some settings => (fun _ h => (.ok (), { h with settings }) : Action σ Unit)
  | none => return ()

/-- Adds the machines of regular expressions that excluded scripts match. -/
def exclude (patterns : List (Program Char)) : Action σ Unit := fun _ h =>
  (.ok (), { h with exclusions := patterns.foldl Exclusions.addProgram h.exclusions })

end ScriptHost.Host
