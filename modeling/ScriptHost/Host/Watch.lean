import ScriptHost.Host.Files

/-!
# Changes on the disk

What a host does when a file has changed.  Only tracked scripts are read again, unless new files are to be tracked; a
change of the declarations beside a compiled script is a change of that script.
-/

namespace ScriptHost.Host

open ScriptHost.Analysis ScriptHost.Path ScriptHost.Text

variable {σ : Type}

/-- What has happened on the disk. -/
inductive Event where
  | created (path : String)
  | modified (path : String)
  | removed (path : String)
  /-- All changes of a group have been reported. -/
  | flushed
  deriving DecidableEq, Repr

/-- What was done about it. -/
inductive Outcome where
  | updated (path : String) (version : Version)
  | unchanged (path : String)
  | removed (path : String)
  | ignored
  deriving DecidableEq, Repr

/-- Why nothing could be done about it. -/
inductive WatchError where
  | host (cause : HostError)
  /-- The changed file holds bytes that encode no text. -/
  | notText
  | unreadable (cause : Disk.Failure)
  deriving DecidableEq, Repr

/-- The error in words. -/
def WatchError.message : WatchError → String
  | host cause => cause.message
  | notText => "stream did not contain valid UTF-8"
  | unreadable cause => cause.message

/-- The extensions of compiled scripts beside which there may be declarations. -/
def compiledExtensions : List String := [".js", ".jsx", ".mjs", ".cjs"]

/-- The path of a declaration file without its extension. -/
def declarationBase? (path : String) : Option String := beforeTail? declarationExtension path

/-- The compiled script that a declaration file describes. -/
def compiledSibling? (d : Disk) (path : String) : Option String :=
  (declarationBase? path).bind fun base => d.firstExisting base compiledExtensions

/-- Looks at a tracked compiled script again, because its declarations have changed. -/
def declarationsChanged (compiled : String) : Action σ Outcome := do
  if (← fileVersion compiled) < 0 then return .ignored
  if ← refreshDeclarations compiled then return .updated compiled (← fileVersion compiled)
  else return .unchanged compiled

/-- Reads a script with a new text. -/
def scriptChanged (path name : String) (before : Version) (text : String) : Action σ Outcome := do
  let _ ← addFile { path, content := some text }
  let version ← fileVersion name
  if version = before then return .unchanged name else return .updated name version

/-- What is done in the end, where the host may fail. -/
private def settle (x : Action σ Outcome) (d : Disk) (h : Host σ) : Except WatchError Outcome × Host σ :=
  let (r, h) := x d h
  (r.mapError .host, h)

/-- A file was created or changed. -/
def fileChanged (path : String) (trackNew : Bool) (d : Disk) (h : Host σ) : Except WatchError Outcome × Host σ :=
  if !isScript path || !d.isFile path then (.ok .ignored, h)
  else
    match compiledSibling? d path with
    | some compiled => settle (declarationsChanged compiled) d h
    | none =>
      let name := ((declarationBase? path).map (· ++ sourceExtension)).getD path
      match (fileVersion name : Action σ Version) d h with
      | (.error e, h) => (.error (.host e), h)
      | (.ok before, h) =>
        if before < 0 ∧ !trackNew then (.ok .ignored, h)
        else
          match d.read path with
          | .ok (.text text) => settle (scriptChanged path name before text) d h
          | .ok .binary => (.error .notText, h)
          | .error cause => (.error (.unreadable cause), h)

/-- A file was removed. -/
def fileRemoved (path : String) : Action σ Outcome := do
  if !isScript path then return .ignored
  match compiledSibling? (← Action.disk) path with
  | some compiled => declarationsChanged compiled
  | none =>
    if ← removeFile path then return .removed path
    let source := ((declarationBase? path).getD (withoutExtension path)) ++ sourceExtension
    if source ≠ path then
      if ← removeFile source then return .removed source
    return .ignored

/-- Does what an event asks for. -/
def applyEvent (trackNew : Bool) (event : Event) (d : Disk) (h : Host σ) : Except WatchError Outcome × Host σ :=
  match event with
  | .created path => fileChanged path trackNew d h
  | .modified path => fileChanged path false d h
  | .removed path => settle (fileRemoved path) d h
  | .flushed => (.ok .ignored, h)

end ScriptHost.Host
