import ScriptHost.Syntax.Node
import ScriptHost.Text.Basic
import ScriptHost.Text.Span

/-!
# Declarations

What a statement declares: its name, kind and header, the comment above it, and the names a class inherits from.
`declaredName` finds the name of any statement; `Declaration.ofStatement?` describes those statements that declare
something an analysis can point at.
-/

namespace ScriptHost.Analysis

open ScriptHost.Syntax ScriptHost.Text

/-! ### Names -/

/-- The statements that declare variables. -/
def declaresVariables (kind : String) : Bool := kind == "lexical_declaration" || kind == "variable_declaration"

/-- The node that names what a declaration declares; of several variables it is the first. -/
def nameNode? (n : Node) : Option Node :=
  if declaresVariables n.kind then (n.namedChildren.find? (·.kind == "variable_declarator")).bind (·.child? .name)
  else n.child? .name

mutual

/-- The name that a statement declares, also behind words that export or declare it. -/
def declaredName (source : String) : Node → Option String
  | .leaf .. => none
  | n@(.branch kind _ _ _ children) =>
    if kind = "export_statement" then nameInDeclarationField source children
    else if kind = "ambient_declaration" then nameInFirstConstruct source children
    else (nameNode? n).map (·.textIn source)

/-- The name declared in the place of the declaration. -/
def nameInDeclarationField (source : String) : List Node → Option String
  | [] => none
  | n :: rest =>
    if n.field = some .declaration then declaredName source n else nameInDeclarationField source rest

/-- The name declared by the first construct. -/
def nameInFirstConstruct (source : String) : List Node → Option String
  | [] => none
  | n :: rest => if n.isNamed then declaredName source n else nameInFirstConstruct source rest

end

mutual

/-- The declaration behind the words that export or declare it; a statement without one stands for itself. -/
def unwrap : Node → Node
  | n@(.leaf ..) => n
  | n@(.branch kind _ _ _ children) =>
    if kind = "export_statement" then (unwrapDeclarationField children).getD n
    else if kind = "ambient_declaration" then (unwrapFirstConstruct children).getD n
    else n

/-- What is unwrapped from the place of the declaration. -/
def unwrapDeclarationField : List Node → Option Node
  | [] => none
  | n :: rest => if n.field = some .declaration then some (unwrap n) else unwrapDeclarationField rest

/-- What is unwrapped from the first construct. -/
def unwrapFirstConstruct : List Node → Option Node
  | [] => none
  | n :: rest => if n.isNamed then some (unwrap n) else unwrapFirstConstruct rest

end

/-! ### Descriptions -/

/-- What kind of thing a declaration declares. -/
def declarationKind? (source : String) (n : Node) : Option String :=
  match n.kind with
  | "function_declaration" | "generator_function_declaration" | "function_signature" => some "function"
  | "class_declaration" | "abstract_class_declaration" => some "class"
  | "interface_declaration" => some "interface"
  | "type_alias_declaration" => some "type"
  | "enum_declaration" => some "enum"
  | "internal_module" | "module" => some "module"
  | "lexical_declaration" => some (if hasLead "const" (n.textIn source) then "const" else "let")
  | "variable_declaration" => some "var"
  | _ => none

/-- The first line of a declaration up to the first brace. -/
def header (text : String) : String :=
  let line := ((lines text).head?).getD ""
  let header := String.ofList (line.toList.takeWhile (· ≠ '{'))
  trimEnd (trimEndWhile (· = ';') (trim header))

/-- A line of a comment without its markers. -/
private def commentLine (line : String) : String :=
  let line := trim line
  let line := (afterLead? "//" line).getD line
  trim ((afterLead? "*" line).getD line)

/-- The text of a comment without its markers and empty lines; a comment with nothing else has none. -/
def commentText? (comment : String) : Option String :=
  let body := dropTails "*/" (dropLeads "/*" (dropLeads "/**" comment))
  match ((lines body).map commentLine).filter (!·.isEmpty) with
  | [] => none
  | ls => some ("\n".intercalate ls)

/-- The text of the comment `above` a statement, if no empty line lies between the two. -/
def documentation? (source : String) (above : Option Node) (statement : Node) : Option String := do
  let comment ← above
  guard (comment.kind == "comment")
  let between := slice source comment.stop statement.start
  guard (between.toList.all isBlank && between.toList.count '\n' ≤ 1)
  commentText? (comment.textIn source)

/-- The names in the clauses of a class that say what it extends and implements. -/
def heritage (source : String) (declaration : Node) : List String :=
  match declaration.namedChildren.find? (·.kind == "class_heritage") with
  | none => []
  | some clauses =>
    clauses.walk.filterMap fun (_, n) =>
      if n.kind == "identifier" || n.kind == "type_identifier" then some (n.textIn source) else none

/-- A named declaration at the top level of a script. -/
structure Declaration where
  name : String
  kind : String
  nameSpan : Span
  display : String
  documentation : Option String
  heritage : List String
  deriving DecidableEq, Repr

/-- The declaration that a statement makes, below the node `above`. -/
def Declaration.ofStatement? (source : String) (above : Option Node) (statement : Node) : Option Declaration := do
  let inner := unwrap statement
  let kind ← declarationKind? source inner
  let name ← nameNode? inner
  return {
    name := name.textIn source
    kind
    nameSpan := .ofBounds name.start name.stop
    display := header (statement.textIn source)
    documentation := documentation? source above statement
    heritage := Analysis.heritage source inner }

end ScriptHost.Analysis
