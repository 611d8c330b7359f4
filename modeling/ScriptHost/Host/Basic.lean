import ScriptHost.Analysis.Engine
import ScriptHost.Exclusion
import ScriptHost.Load
import ScriptHost.Merge.Prelude
import ScriptHost.Resolution.Memo
import ScriptHost.Settings
import ScriptHost.Store

/-!
# Hosts

A host tracks scripts for an analysis engine.  What it does depends on the disk and may fail; a step that fails keeps
what was changed before it failed.  `Action` says this once for all operations.
-/

namespace ScriptHost

open ScriptHost.Analysis ScriptHost.Path ScriptHost.Resolution

/-- What a host works with. -/
structure Tools (σ : Type) where
  resolver : Resolver
  reassembler : Merge.Reassembler
  engine : Engine σ

/-- The state of a host; `σ` is the state of its engine. -/
structure Host (σ : Type) where
  tools : Tools σ
  /-- The origin of paths that are given without one. -/
  directory : String
  /-- The directory of the default libraries. -/
  libraries : String
  settings : Settings
  memo : Memo
  store : Store
  exclusions : Exclusions
  engineState : σ
  /-- After how many scripts a walk over imports is given up. -/
  walkLimit : Nat

/-- Why an operation of a host failed. -/
inductive HostError where
  | resolution (cause : Resolution.Failure)
  | load (cause : LoadError)
  /-- The declarations of a compiled script do not go with it. -/
  | rejected (reason : String)
  /-- The engine could not read a script that was to be merged. -/
  | missingStatements (path : String)
  | config (cause : Config.Error)
  /-- The engine could not read a script. -/
  | engineUnavailable (path : String)
  /-- A walk over imports was given up. -/
  | unfinished
  deriving DecidableEq, Repr

/-- The error in words. -/
def HostError.message : HostError → String
  | resolution cause => cause.message
  | load cause => cause.message
  | rejected reason => "reassembly rejected: " ++ reason
  | missingStatements path => "no parsed statements available for " ++ path
  | config cause => cause.message
  | engineUnavailable path => "analysis engine has no source file for " ++ path
  | unfinished => "too many imports"

namespace Host

variable {σ : Type}

/-- The directory of the default libraries below a directory. -/
def librariesBelow (directory : String) : String :=
  Path.join (Path.join (Path.join directory "node_modules") "typescript") "lib"

/-- How many scripts a walk over imports may visit unless something else is said. -/
def standardWalkLimit : Nat := Nat.pow 10 9

/-- A host that tracks nothing. -/
def fresh (tools : Tools σ) (engineState : σ) (directory : String) : Host σ :=
  { tools, directory, engineState
    libraries := librariesBelow directory
    settings := .standard
    memo := .empty
    store := Table.empty
    exclusions := .empty
    walkLimit := standardWalkLimit }

/-- What an engine sees of a store. -/
def viewOf (store : Store) : ScriptView where
  names := store.paths
  version := store.version
  snapshot path := (store.get? path).map (·.content)

/-- The path of the default library. -/
def defaultLibrary (h : Host σ) : String := h.settings.defaultLibraryPath h.libraries

end Host

/-! ### Actions -/

/-- A step of a host, which depends on the disk, may fail and may change the host. -/
def Action (σ α : Type) : Type := Disk → Host σ → Except HostError α × Host σ

namespace Action

variable {σ α β : Type}

instance : Monad (Action σ) where
  pure a := fun _ h => (.ok a, h)
  bind x f := fun d h =>
    match x d h with
    | (.ok a, h) => f a d h
    | (.error e, h) => (.error e, h)

/-- The state of the host. -/
def host : Action σ (Host σ) := fun _ h => (.ok h, h)

/-- The disk. -/
def disk : Action σ Disk := fun d h => (.ok d, h)

/-- Fails. -/
def fail (e : HostError) : Action σ α := fun _ h => (.error e, h)

/-- Changes the store. -/
def changeStore (f : Store → Store) : Action σ Unit := fun _ h => (.ok (), { h with store := f h.store })

/-- Asks the engine about the scripts in the store. -/
def ask (query : Engine σ → ScriptView → σ → α × σ) : Action σ α := fun _ h =>
  let (a, s) := query h.tools.engine (Host.viewOf h.store) h.engineState
  (.ok a, { h with engineState := s })

/-- Makes the engine forget a script. -/
def release (path : String) : Action σ Unit := ask fun engine _ s => ((), engine.release path s)

/-- An action that does not fail; the answer says whether it would have. -/
def attempt (x : Action σ α) : Action σ (Except HostError α) := fun d h =>
  let (r, h) := x d h
  (.ok r, h)

/-- The value of something that may have failed. -/
def lift {ε : Type} (cause : ε → HostError) (r : Except ε α) : Action σ α := fun _ h =>
  match r with
  | .ok a => (.ok a, h)
  | .error e => (.error (cause e), h)

@[simp] theorem pure_run (a : α) (d : Disk) (h : Host σ) : (pure a : Action σ α) d h = (.ok a, h) := rfl

@[simp] theorem fail_run (e : HostError) (d : Disk) (h : Host σ) : (fail e : Action σ α) d h = (.error e, h) := rfl

theorem bind_run (x : Action σ α) (f : α → Action σ β) (d : Disk) (h : Host σ) :
    (x >>= f) d h =
      match x d h with
      | (.ok a, h) => f a d h
      | (.error e, h) => (.error e, h) := rfl

end Action

end ScriptHost
