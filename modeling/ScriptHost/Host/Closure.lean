import ScriptHost.Host.Commit
import ScriptHost.Imports.Graph
import ScriptHost.Imports.Scan

/-!
# Import closures

The imports of a script are identified as seen from it; names that are blank, belong to the run-time system or cannot
be identified do not count.  A walk goes over the imports of a script breadth first, tracks the scripts that it meets,
and goes on with those that were news.
-/

namespace ScriptHost.Host

open ScriptHost.Imports ScriptHost.Path ScriptHost.Text

variable {σ : Type}

/-- The edge to a script that is imported by a name. -/
def edgeTo (raw : String) (i : Identity) : Edge := ⟨raw, i.resolved, i.normalized⟩

/-- The scripts that the names stand for, each with its name. -/
def identifyAll (origin : String) : List String → Action σ (List (String × Identity))
  | [] => pure []
  | raw :: rest => do
    match ← (identify raw (some origin)).attempt with
    | .ok i => return (raw, i) :: (← identifyAll origin rest)
    | .error _ => identifyAll origin rest

/-- The names of the modules that a text imports, but of those that the run-time system brings along. -/
def importNames (resolver : Resolution.Resolver) (source : String) : List String :=
  ((scan source).map (·.name)).filter fun raw => !(trim raw).isEmpty && !resolver.isBuiltIn raw

/-- The scripts that a text imports, as seen from an origin. -/
def importsIn (source origin : String) : Action σ (List (String × Identity)) := do
  identifyAll origin (importNames (← Action.host).tools.resolver source)

/-- The imports of a text that is taken for that of a file. -/
def importsOfContent (source origin : String) : Action σ (List Edge) := do
  return (← importsIn source origin).map fun (raw, i) => edgeTo raw i

/-- The imports of a script; those of a tracked one are seen from its key. -/
def importsOfFile (name : String) : Action σ (List Edge) := do
  match (← Action.host).store.get? name with
  | some record => importsOfContent record.rawContent name
  | none =>
    let o ← observe name none none
    importsOfContent o.raw o.identity.resolved

/-! ### Walks -/

/-- A walk under way. -/
structure Walk where
  graph : Graph
  /-- The keys of the scripts that have been met. -/
  visited : List String
  /-- The scripts whose imports are to be followed, each with its text, first ones first. -/
  queue : List (Identity × String)

/-- The walk that starts at a script. -/
def Walk.start (graph : Graph) (o : Observation) : Walk :=
  ⟨graph.addFile o.path, [o.path], [(o.identity, o.raw)]⟩

/-- Tracks a script that is imported; the answer is its text if that was news.  A script that cannot be loaded or
merged is passed over. -/
def trackImport (i : Identity) : Action σ (Option String) := do
  match ← (observeIdentity i none).attempt with
  | .error _ => return none
  | .ok o =>
    match ← (commit o).attempt with
    | .ok true => return some o.raw
    | _ => return none

/-- Follows the imports of one script. -/
def followImports (importer : String) : List (String × Identity) → Walk → Action σ Walk
  | [], w => pure w
  | (raw, i) :: rest, w => do
    if (← Action.host).exclusions.excludes i.normalized then followImports importer rest w
    else
      let w := { w with graph := w.graph.addImport importer (edgeTo raw i) }
      if w.visited.contains i.normalized then followImports importer rest w
      else
        let w := { w with visited := i.normalized :: w.visited }
        match ← trackImport i with
        | some text => followImports importer rest { w with queue := w.queue ++ [(i, text)] }
        | none => followImports importer rest w

/-- Goes on with a walk for at most `limit` scripts. -/
def walk : Nat → Walk → Action σ Graph
  | _, ⟨graph, _, []⟩ => pure graph
  | 0, _ => Action.fail .unfinished
  | limit + 1, ⟨graph, visited, (importer, text) :: queue⟩ => do
    let imports ← importsIn text importer.resolved
    walk limit (← followImports importer.normalized imports ⟨graph, visited, queue⟩)

/-- Walks over the imports of a script that has been committed. -/
def walkImports (o : Observation) : Action σ Graph := do
  walk (← Action.host).walkLimit (.start .empty o)

/-- Tracks a script and all that it imports; the imports of scripts that were known before are not followed, but those
of the first one are. -/
def expandClosure (path : String) (origin : Option String) : Action σ Graph := do
  let o ← observe path origin none
  let _ ← commit o
  walkImports o

end ScriptHost.Host
