import ScriptHost.Host.Observation

/-!
# Committing texts

A compiled script beside which there are declarations is merged with them before its text is stored.  For the merge,
the engine reads both texts from records of version 0, which take the places of the records that are there and give
them back.
-/

namespace ScriptHost.Host

open ScriptHost.Analysis ScriptHost.Path

variable {σ : Type}

/-- A record that is there for the time of a merge. -/
def mergeRecord (raw : String) : Record := ⟨0, raw, raw⟩

/-- Shows the engine a text under a path, whatever is stored there. -/
def lend (path raw : String) : Action σ Unit := do
  Action.release path
  Action.changeStore (·.insert path (mergeRecord raw))

/-- Puts back what was stored under a path. -/
def giveBack (path : String) (previous : Option Record) : Action σ Unit := do
  Action.changeStore (·.erase path)
  Action.release path
  Action.changeStore (·.put path previous)

/-- Takes away what is stored under a path. -/
def setAside (path : String) : Action σ (Option Record) := do
  let previous := (← Action.host).store.get? path
  Action.changeStore (·.erase path)
  return previous

/-- What the engine reads in a compiled script and its declarations. -/
def readPair (compiled compiledRaw shim declarations : String) : Action σ (Option SourceUnit × Option SourceUnit) := do
  let previousCompiled ← setAside compiled
  let previousShim ← setAside shim
  lend compiled compiledRaw
  lend shim declarations
  let compiledUnit ← Action.ask fun engine view => engine.sourceFile view compiled
  let shimUnit ← Action.ask fun engine view => engine.sourceFile view shim
  giveBack compiled previousCompiled
  giveBack shim previousShim
  return (compiledUnit, shimUnit)

/-- The unit of a script that is merged. -/
def requireUnit (unit : Option SourceUnit) (path : String) : Action σ SourceUnit :=
  match unit with
  | some u => pure u
  | none => Action.fail (.missingStatements path)

/-- The declarations beside a compiled script. -/
def declarationsBeside (d : Disk) (resolved : String) : Option String :=
  d.firstExisting (clearExtension resolved) [declarationExtension]

/-- The text that engines are to see of a script. -/
def mergedContent (o : Observation) : Action σ String := do
  if !o.identity.isCompiled then return o.raw
  match declarationsBeside (← Action.disk) o.identity.resolved with
  | none => return o.raw
  | some declaration =>
    let shim ← identify (shimPath declaration) none
    let declarations ← observeIdentity shim none
    let (compiledUnit, shimUnit) ← readPair o.path o.raw shim.normalized declarations.raw
    let compiledUnit ← requireUnit compiledUnit o.path
    let shimUnit ← requireUnit shimUnit shim.normalized
    Action.lift .rejected ((← Action.host).tools.reassembler compiledUnit.statements shimUnit.statements)

/-- Stores an observed text that is news; the answer says whether it was. -/
def commit (o : Observation) : Action σ Bool := do
  if !o.needsUpdate then return false
  let content ← mergedContent o
  Action.changeStore (·.commit o.path o.raw content)
  return true

end ScriptHost.Host
