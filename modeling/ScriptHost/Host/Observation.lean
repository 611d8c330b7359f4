import ScriptHost.Host.Basic

/-!
# What a path stands for, and its text

A path is identified first, and then its text is observed: the text that is given, else the one that is stored, else
the one on the disk.
-/

namespace ScriptHost.Host

open ScriptHost.Analysis ScriptHost.Path ScriptHost.Resolution

variable {σ : Type}

/-- A script with the text that was seen of it. -/
structure Observation where
  identity : Identity
  raw : String
  /-- Whether the text was news to the store when it was seen. -/
  needsUpdate : Bool
  deriving DecidableEq, Repr

/-- The path by which the observed script is known. -/
def Observation.path (o : Observation) : String := o.identity.normalized

/-- What a path stands for as seen from an origin. -/
def identify (path : String) (origin : Option String) : Action σ Identity := fun d h =>
  let (answer, memo) := h.memo.resolve h.tools.resolver d path (origin.getD h.directory)
  ((answer.mapError HostError.resolution), { h with memo })

/-- The file in which the text of a script is. -/
def fileOf (i : Identity) : String := if i.isTemporary then declarationPath i.resolved else i.resolved

/-- The text of a script. -/
def textOf (i : Identity) (given : Option String) : Action σ String := do
  match given, (← Action.host).store.get? i.normalized with
  | some s, _ => return s
  | none, some record => return record.rawContent
  | none, none => Action.lift .load ((← Action.disk).load (fileOf i))

/-- Observes a script. -/
def observeIdentity (i : Identity) (given : Option String) : Action σ Observation := do
  let raw ← textOf i given
  return ⟨i, raw, (← Action.host).store.needsUpdate i.normalized raw⟩

/-- Observes the script at a path. -/
def observe (path : String) (origin given : Option String) : Action σ Observation := do
  observeIdentity (← identify path origin) given

/-- The key of a script that is named.  A tracked name, a shim path and the absolute path of a source stand for
themselves, and so does a name that cannot be identified. -/
def knownName (name : String) : Action σ String := do
  if (← Action.host).store.contains name || isShim name || (isEngineName name && isAbsolute name) then return name
  match ← (identify name none).attempt with
  | .ok i => return i.normalized
  | .error _ => return name

/-- The key of a script that is tracked or can be identified. -/
def engineName (name : String) : Action σ String := do
  if (← Action.host).store.contains name then return name
  return (← identify name none).normalized

end ScriptHost.Host
