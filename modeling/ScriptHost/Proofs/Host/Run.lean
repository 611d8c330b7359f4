import ScriptHost.Host.Query
import ScriptHost.Host.Watch

/-!
# Runs of a host

A host is used by one operation after the other, and between two operations anything may happen on the disk.  So a run
is a list of operations, each with the disk that it meets (`Operation`, `after`).  A host is unused if it has been made
and nothing has been done with it (`Unused`).
-/

namespace ScriptHost.Host

open ScriptHost.Analysis

variable {σ : Type}

/-- What an engine can be asked about a byte of a script. -/
inductive Topic where
  | definitions
  | typeDefinitions
  | references
  | implementations
  | quickInfo
  deriving DecidableEq, Repr

/-- What an engine answers if it knows something. -/
def Topic.Answer : Topic → Type
  | definitions | typeDefinitions => List Definition
  | references => List ReferencedSymbol
  | implementations => List Implementation
  | quickInfo => QuickInfo

/-- The question to an engine. -/
def Topic.question : (t : Topic) → Question σ t.Answer
  | definitions => (·.definitions)
  | typeDefinitions => (·.typeDefinitions)
  | references => (·.references)
  | implementations => (·.implementations)
  | quickInfo => (·.quickInfo)

/-- What can be done with a host. -/
inductive Operation where
  | identify (path : String) (origin : Option String)
  | observe (path : String) (origin given : Option String)
  | addFile (r : Request)
  | getFile (r : Request)
  | addObserved (o : Observation) (withImports : Bool)
  | parsedUnit (key : String)
  | refreshDeclarations (name : String)
  | removeFile (name : String)
  | fileVersion (name : String)
  | fileRecord (name : String)
  | importsOfContent (source origin : String)
  | importsOfFile (name : String)
  | expandClosure (path : String) (origin : Option String)
  | askAbout (t : Topic) (name : String) (offset : Nat)
  | askAt (t : Topic) (key : String) (offset : Nat)
  | setOptions (options : Options)
  | exclude (patterns : List (Pattern.Program Char))
  | applyEvent (trackNew : Bool) (event : Event)

/-- The host after an operation, whether that has failed or not. -/
def Operation.next (d : Disk) (h : Host σ) : Operation → Host σ
  | identify path origin => (Host.identify path origin d h).2
  | observe path origin given => (Host.observe path origin given d h).2
  | addFile r => (Host.addFile r d h).2
  | getFile r => (Host.getFile r d h).2
  | addObserved o withImports => (Host.addObserved o withImports d h).2
  | parsedUnit key => (Host.parsedUnit key d h).2
  | refreshDeclarations name => (Host.refreshDeclarations name d h).2
  | removeFile name => (Host.removeFile name d h).2
  | fileVersion name => (Host.fileVersion name d h).2
  | fileRecord name => (Host.fileRecord name d h).2
  | importsOfContent source origin => (Host.importsOfContent source origin d h).2
  | importsOfFile name => (Host.importsOfFile name d h).2
  | expandClosure path origin => (Host.expandClosure path origin d h).2
  | askAbout t name offset => (Host.askAbout t.question name offset d h).2
  | askAt t key offset => (Host.askAt t.question key offset d h).2
  | setOptions options => (Host.setOptions options d h).2
  | exclude patterns => (Host.exclude patterns d h).2
  | applyEvent trackNew event => (Host.applyEvent trackNew event d h).2

/-- The host after a run. -/
def after (h : Host σ) (run : List (Disk × Operation)) : Host σ := run.foldl (fun h (d, op) => op.next d h) h

theorem after_append (h : Host σ) (run later : List (Disk × Operation)) :
    h.after (run ++ later) = (h.after run).after later := List.foldl_append ..

/-- Nothing is tracked and nothing is remembered. -/
structure Unused (h : Host σ) : Prop where
  memo : h.memo = .empty
  store : h.store = .empty

/-- A host that has come about by some run. -/
def Reachable (h : Host σ) : Prop := ∃ h₀ run, Unused h₀ ∧ h = h₀.after run

theorem Unused.reachable {h : Host σ} (hu : h.Unused) : h.Reachable := ⟨h, [], hu, rfl⟩

theorem unused_fresh (tools : Tools σ) (engineState : σ) (directory : String) :
    (fresh tools engineState directory).Unused := ⟨rfl, rfl⟩

end ScriptHost.Host
