import ScriptHost.Syntax.Script.Tree
import ScriptHost.Text.Basic

/-!
# The imports of a script

`scan` lists the modules that a script names in its imports, in the order of the text.  Names are read off the syntax
tree, so that those in comments and strings do not count.
-/

namespace ScriptHost.Imports

open ScriptHost.Syntax ScriptHost.Text

/-- How a module is imported. -/
inductive Form where
  /-- By an import statement. -/
  | static
  /-- By an export of its names. -/
  | reExport
  /-- By a call of `require`. -/
  | require
  /-- By a call of `import`. -/
  | dynamic
  deriving DecidableEq, Repr

/-- A module named in a script. -/
structure Specifier where
  /-- The name as it is written between the quotes. -/
  name : String
  form : Form
  /-- The byte at which the statement or call starts that imports the module. -/
  offset : Nat
  deriving DecidableEq, Repr

/-- The text of a string without its quotes. -/
def stringValue? (source : String) (n : Node) : Option String :=
  if n.kind = "string" then
    let unquote (q : Char) (s : String) : String := trimEndWhile (· = q) (trimStartWhile (· = q) s)
    some (unquote '\'' (unquote '"' (n.textIn source)))
  else none

/-- The module named in the place of the source. -/
def fromSource (source : String) (n : Node) (form : Form) : Option Specifier := do
  let name ← stringValue? source (← n.child? .source)
  return ⟨name, form, n.start⟩

/-- The form of import that a call of `callee` makes. -/
def callForm? (source : String) (callee : Node) : Option Form :=
  if callee.kind = "import" then some .dynamic
  else if callee.kind = "identifier" ∧ callee.textIn source = "require" then some .require
  else none

/-- The module that a construct imports by itself. -/
def specifierAt? (source : String) (n : Node) : Option Specifier :=
  match n.kind with
  | "import_statement" => fromSource source n .static
  | "export_statement" => fromSource source n .reExport
  | "import_require_clause" => fromSource source n .require
  | "call_expression" => do
    let form ← callForm? source (← n.child? .function)
    let first ← (← n.child? .arguments).namedChildren.head?
    return ⟨← stringValue? source first, form, n.start⟩
  | _ => none

/-- The modules named in a tree, in the order of the text. -/
def collect (source : String) (tree : Node) : List Specifier := tree.walk.filterMap fun (_, n) => specifierAt? source n

/-- The modules that a script imports, in the order of the text. -/
def scan (source : String) : List Specifier := collect source (Script.tree .plain source)

end ScriptHost.Imports
