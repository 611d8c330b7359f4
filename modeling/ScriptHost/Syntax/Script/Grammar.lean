import ScriptHost.Syntax.Script.Markup
import ScriptHost.Syntax.Script.Statement

/-!
# The script grammar

The rule of every symbol.
-/

namespace ScriptHost.Syntax.Script

/-- The grammar of a dialect. -/
def grammar (d : Dialect) : Symbol → Part
  | .statement => statement
  | .block => block
  | .declaration => declaration
  | .expressions => expressions
  | .expression => expression
  | .ternary => ternary
  | .binary level => binary level
  | .unary => unary d
  | .chain => chain
  | .primary => primary d
  | .newExpression => newExpression
  | .arguments => arguments
  | .parenthesized => parenthesized
  | .object => object
  | .array => array
  | .template => template
  | .decorators => decorators
  | .methodDefinition => methodDefinition
  | .classBody => classBody
  | .classHeritage => classHeritage
  | .bindingPattern => bindingPattern
  | .formalParameters => formalParameters
  | .callSignature => callSignature
  | .typeParameters => typeParameters
  | .type => typeExpression
  | .union => union
  | .intersection => intersection
  | .unaryType => unaryType
  | .primaryType => primaryType
  | .typeArguments => typeArguments
  | .typeAscription => typeAscription
  | .objectMembers => objectMembers
  | .markupElement => markupElement

end ScriptHost.Syntax.Script
