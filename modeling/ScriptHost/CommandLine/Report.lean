import ScriptHost.Imports.Graph
import ScriptHost.Json.Basic
import ScriptHost.Store

/-!
# Reports

What a command has found out, as lines of text or as JSON.
-/

namespace ScriptHost.CommandLine

open ScriptHost.Analysis ScriptHost.Imports

/-- What a command has found out. -/
inductive Report where
  /-- The tracked scripts with the numbers of their texts. -/
  | tracked (scripts : List (String × Version))
  | imports (edges : List Edge)
  | closure (graph : Graph)
  | version
  | nothing

/-- The version of the program. -/
def versionLine : String := "arbor v0.1.0"

namespace Report

/-- An import in a line. -/
def edgeLine (e : Edge) : String := e.raw ++ " -> " ++ e.normalized

/-- A report line by line. -/
def lines : Report → List String
  | tracked scripts => scripts.map fun (path, number) => toString number.toInt ++ "\t" ++ path
  | imports edges => edges.map edgeLine
  | closure graph => graph.files.flatMap fun file => file :: (graph.importsOf file).map fun e => "  " ++ edgeLine e
  | version => [versionLine]
  | nothing => []

/-- An import as JSON. -/
def edgeJson (e : Edge) : Json :=
  .object [("raw_path", .string e.raw), ("resolved_path", .string e.resolved),
    ("normalized_path", .string e.normalized)]

/-- A report as JSON, if it has such a form. -/
def json? : Report → Option Json
  | tracked scripts =>
    some (.array (scripts.map fun (path, number) =>
      .object [("path", .string path), ("version", .ofInt number.toInt)]))
  | imports edges => some (.array (edges.map edgeJson))
  | closure graph =>
    let files := graph.files.mergeSort fun a b => !(b < a)
    some (.object (files.map fun file => (file, .array ((graph.importsOf file).map edgeJson))))
  | version => none
  | nothing => none

/-- The text of a report; with `json`, it is JSON if the report has such a form. -/
def text (json : Bool) (r : Report) : String :=
  match if json then r.json? else none with
  | some value => value.pretty ++ "\n"
  | none => String.join (r.lines.map (· ++ "\n"))

end Report

end ScriptHost.CommandLine
