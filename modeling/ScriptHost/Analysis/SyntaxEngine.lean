import ScriptHost.Analysis.Declaration
import ScriptHost.Analysis.Engine
import ScriptHost.Path.Basic
import ScriptHost.Syntax.Script.Tree
import ScriptHost.Table

/-!
# The syntax engine

An engine that answers from top-level declarations and names alone.  It keeps the tree of every script it has read and
reads a script again only when the version of the script has changed.
-/

namespace ScriptHost.Analysis

open ScriptHost.Syntax ScriptHost.Text

/-- The dialect of a script by the extension of its file. -/
def dialectOf (path : String) : Script.Dialect :=
  match Path.extension? path with
  | some "tsx" | some "jsx" => .markup
  | _ => .plain

/-- The kinds of nodes that a question can be about. -/
def isNameKind (kind : String) : Bool :=
  kind == "identifier" || kind == "type_identifier" || kind == "property_identifier" ||
    kind == "shorthand_property_identifier"

/-! ### Scripts that have been read -/

/-- A script with what the engine knows of it. -/
structure ParsedScript where
  unit : SourceUnit
  tree : Node
  source : String
  declarations : List Declaration

/-- The statements of a tree: the constructs at its top level, each with the node above it. -/
def statementsOf (tree : Node) : List (Option Node × Node) :=
  let nodes := tree.children
  ((none :: nodes.map some).zip nodes).filter fun (_, n) => n.isNamed && n.kind != "comment"

/-- Reads a script. -/
def ParsedScript.read (fileName : String) (version : Version) (source : String) : ParsedScript :=
  let tree := Script.tree (dialectOf fileName) source
  let statements := statementsOf tree
  { unit := {
      fileName, version
      statements := statements.map fun (_, n) =>
        { kind := n.kind, name := declaredName source n, span := .ofBounds n.start n.stop, text := n.textIn source,
          fileName } }
    tree, source
    declarations := statements.filterMap fun (above, n) => Declaration.ofStatement? source above n }

/-- What the syntax engine remembers. -/
structure SyntaxEngine where
  scripts : Table String ParsedScript
  /-- How many times a script has been read. -/
  parseCount : Nat
  /-- How many times the text of a script has been asked for. -/
  snapshotCount : Nat

namespace SyntaxEngine

/-- The engine that has read nothing. -/
def fresh : SyntaxEngine := ⟨.empty, 0, 0⟩

/-- Computations that may read scripts. -/
abbrev Query (α : Type) := StateM SyntaxEngine α

/-- The script in its current version, which is read if the remembered one is of another version. -/
def ensure (view : ScriptView) (fileName : String) : Query (Option ParsedScript) := fun e =>
  let version := view.version fileName
  if version = untracked then (none, { e with scripts := e.scripts.erase fileName })
  else
    match e.scripts.get? fileName with
    | some script => if script.unit.version = version then (some script, e) else load version e
    | none => load version e
where
  /-- Reads the script anew. -/
  load (version : Version) (e : SyntaxEngine) : Option ParsedScript × SyntaxEngine :=
    let e := { e with snapshotCount := e.snapshotCount + 1 }
    match view.snapshot fileName with
    | none => (none, e)
    | some source =>
      let script := ParsedScript.read fileName version source
      (some script, { e with scripts := e.scripts.insert fileName script, parseCount := e.parseCount + 1 })

/-! ### Names in scripts -/

/-- The name that a question is about. -/
structure Target where
  name : String
  span : Span

/-- The byte behind another one, in 64 bits. -/
def byteBehind (offset : Nat) : Nat := (offset + 1) % Nat.pow 2 64

/-- The name at a byte of a script.  The two ends of the byte are passed to the tree in 32 bits. -/
def ParsedScript.target? (script : ParsedScript) (offset : Nat) : Option Target :=
  let stop := min (byteBehind offset) script.source.utf8ByteSize
  let n := script.tree.smallestCovering (offset % Nat.pow 2 32) (stop % Nat.pow 2 32)
  if isNameKind n.kind then some ⟨n.textIn script.source, .ofBounds n.start n.stop⟩ else none

/-- Whether a node names what the construct above it declares. -/
def namesParent (parent : Option Node) (n : Node) : Bool :=
  parent.any fun p =>
    p.kind != "import_specifier" && p.kind != "export_specifier" &&
      (p.child? .name).any fun c => c.start == n.start && c.stop == n.stop && c.kind == n.kind

/-- The places in a script where a name stands. -/
def ParsedScript.references (script : ParsedScript) (name : String) : List Reference :=
  script.tree.walk.filterMap fun (parent, n) =>
    if isNameKind n.kind && n.textIn script.source == name then
      some ⟨script.unit.fileName, .ofBounds n.start n.stop, namesParent parent n⟩
    else none

/-- The scripts in the order in which they are searched: the one that was asked about, then the others. -/
def searchOrder (view : ScriptView) (first : String) : List String := first :: view.names.filter (· != first)

/-- The scripts that can be read, in the order in which they are searched. -/
def search (view : ScriptView) (first : String) : Query (List (String × ParsedScript)) :=
  (searchOrder view first).filterMapM fun name => do
    return (← ensure view name).map (name, ·)

/-- The declarations of a name in all scripts. -/
def declarationsNamed (view : ScriptView) (first name : String) : Query (List (String × Declaration)) := do
  let scripts ← search view first
  return scripts.flatMap fun (file, script) => (script.declarations.filter (·.name == name)).map (file, ·)

/-- The name at a byte of a script. -/
def targetAt (view : ScriptView) (fileName : String) (offset : Nat) : Query (Option Target) := do
  return (← ensure view fileName).bind (ParsedScript.target? · offset)

/-- Answers a question about the name at a byte, if there is one. -/
def withTarget {α : Type} (view : ScriptView) (fileName : String) (offset : Nat) (answer : Target → Query (Option α)) :
    Query (Option α) := do
  match ← targetAt view fileName offset with
  | some target => answer target
  | none => return none

/-! ### Questions -/

/-- A declaration in a file as an answer shows it. -/
def definition (file : String) (d : Declaration) : Definition := ⟨file, d.nameSpan, d.kind, d.name, ""⟩

/-- A declaration in a file as an implementation. -/
def implementation (file : String) (d : Declaration) : Implementation := ⟨file, d.nameSpan, d.kind⟩

/-- The declarations of the name at a byte. -/
def definitionsAt (view : ScriptView) (fileName : String) (offset : Nat) : Query (Option (List Definition)) :=
  withTarget view fileName offset fun target => do
    let found ← declarationsNamed view fileName target.name
    return some (found.map fun (file, d) => definition file d)

/-- The kinds of declarations that declare a type. -/
def declaresType (kind : String) : Bool := kind == "interface" || kind == "type" || kind == "class" || kind == "enum"

/-- The declarations of types by the name at a byte. -/
def typeDefinitionsAt (view : ScriptView) (fileName : String) (offset : Nat) : Query (Option (List Definition)) :=
  withTarget view fileName offset fun target => do
    let found ← declarationsNamed view fileName target.name
    return some ((found.filter (declaresType ·.2.kind)).map fun (file, d) => definition file d)

/-- The places where the name at a byte stands. -/
def referencesAt (view : ScriptView) (fileName : String) (offset : Nat) : Query (Option (List ReferencedSymbol)) :=
  withTarget view fileName offset fun target => do
    let found ← declarationsNamed view fileName target.name
    let declared := match found with
      | (file, d) :: _ => definition file d
      | [] => ⟨fileName, target.span, "unknown", target.name, ""⟩
    let scripts ← search view fileName
    return some [⟨declared, scripts.flatMap fun (_, script) => ParsedScript.references script target.name⟩]

/-- The classes that inherit from the name at a byte; if there are none, its declarations other than interfaces and type
aliases. -/
def implementationsAt (view : ScriptView) (fileName : String) (offset : Nat) : Query (Option (List Implementation)) :=
  withTarget view fileName offset fun target => do
    let scripts ← search view fileName
    let heirs := scripts.flatMap fun (file, script) =>
      (script.declarations.filter (·.heritage.contains target.name)).map (implementation file)
    if !heirs.isEmpty then return some heirs
    let found ← declarationsNamed view fileName target.name
    let concrete := found.filter fun (_, d) => d.kind != "interface" && d.kind != "type"
    return some (concrete.map fun (file, d) => implementation file d)

/-- What is shown of the name at a byte. -/
def quickInfoAt (view : ScriptView) (fileName : String) (offset : Nat) : Query (Option QuickInfo) :=
  withTarget view fileName offset fun target => do
    let found ← declarationsNamed view fileName target.name
    return found.head?.map fun (_, d) => ⟨d.kind, target.span, d.display, d.documentation⟩

/-- The operations of the syntax engine. -/
def engine : Engine SyntaxEngine where
  sourceFile view fileName e :=
    let (script, e) := ensure view fileName e
    (script.map (·.unit), e)
  definitions := definitionsAt
  typeDefinitions := typeDefinitionsAt
  references := referencesAt
  implementations := implementationsAt
  quickInfo := quickInfoAt
  release fileName e := { e with scripts := e.scripts.erase fileName }

end SyntaxEngine

end ScriptHost.Analysis
