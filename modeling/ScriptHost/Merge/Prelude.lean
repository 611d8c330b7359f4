import ScriptHost.Analysis.Engine
import ScriptHost.Text.Basic

/-!
# Merging compiled scripts with their declarations

A compiled script has lost its types; they are in a declaration file beside it.  A `Reassembler` makes one text from the
statements of both.  `typePrelude` puts the statements that only declare types before those of the compiled script.
-/

namespace ScriptHost.Merge

open ScriptHost.Analysis ScriptHost.Text

/-- Makes one text from the statements of a compiled script and those of its declarations, or says why it cannot. -/
abbrev Reassembler := List Statement → List Statement → Except String String

/-- The words after which a statement declares nothing but types. -/
def typeKeywords : List String := ["interface ", "type ", "declare "]

/-- Whether a statement says nothing that is there at run time. -/
def isTypeOnly (s : Statement) : Bool :=
  match s.kind with
  | "interface_declaration" | "type_alias_declaration" | "ambient_declaration" => true
  | "export_statement" =>
    let exported := trimStart ((afterLead? "export" s.text).getD s.text)
    let declared := ((afterLead? "default" exported).map trimStart).getD exported
    typeKeywords.any (hasLead · declared)
  | _ => false

/-- Every statement on lines of its own. -/
def render (statements : List Statement) : String := String.join (statements.map (·.text ++ "\n"))

/-- The statements that only declare types, then the compiled script.  Declarations with a syntax error are rejected. -/
def typePrelude : Reassembler := fun compiled declarations =>
  match declarations.find? (·.kind == "ERROR") with
  | some broken =>
    .error (broken.fileName ++ " has a syntax error at byte " ++ toString broken.span.start)
  | none => .ok (render (declarations.filter isTypeOnly ++ compiled))

end ScriptHost.Merge
