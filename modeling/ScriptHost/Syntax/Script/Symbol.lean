import ScriptHost.Syntax.Rule

/-!
# The symbols of the script grammar

The constructs that the rules of the script language refer to by name, and the small rules they all share: names,
literals and the end of a statement.
-/

namespace ScriptHost.Syntax.Script

/-- The two forms of the language: angle brackets before an expression assert a type, or they are markup. -/
inductive Dialect where
  | plain
  | markup
  deriving DecidableEq, Repr

/-- The constructs that rules refer to. -/
inductive Symbol where
  | statement | block | declaration
  | expressions | expression | ternary | binary (level : Nat) | unary | chain | primary | newExpression
  | arguments | parenthesized | object | array | template | decorators | methodDefinition | classBody | classHeritage
  | bindingPattern | formalParameters | callSignature | typeParameters
  | type | union | intersection | unaryType | primaryType | typeArguments | typeAscription | objectMembers
  | markupElement

/-- A rule of the script grammar. -/
abbrev Part := Rule Symbol

open Rule

/-! ### Names -/

/-- The words that cannot be names in an expression. -/
def reservedWords : List String :=
  ["function", "class", "this", "super", "true", "false", "null", "undefined", "typeof", "void", "delete", "await",
    "yield", "import", "new", "if", "else", "for", "while", "do", "switch", "case", "default", "try", "catch",
    "finally", "return", "break", "continue", "throw", "debugger", "with", "var", "const", "extends", "in",
    "instanceof"]

/-- The words that begin types of their own. -/
def reservedTypeWords : List String :=
  ["any", "number", "boolean", "string", "symbol", "void", "unknown", "never", "object", "true", "false", "null",
    "undefined", "this", "typeof", "keyof", "infer", "new", "import", "function", "class", "extends", "const"]

/-- Any word. -/
def anyWord : Part := leaf "identifier" (.word [])

/-- A name that a declaration introduces, for which any word will do. -/
def declaredName : Part := leaf "identifier" (.word [])

/-- A name used in an expression. -/
def identifier : Part := leaf "identifier" (.word reservedWords)

/-- The name that a type declaration introduces. -/
def declaredTypeName : Part := leaf "type_identifier" (.word ["extends", "implements"])

/-- The name of a member after a dot. -/
def memberName : Part := alts [leaf "property_identifier" (.word []), leaf "private_property_identifier" .privateName]

/-- A name with further names after dots. -/
def nestedName : Part :=
  seqs [declaredName,
    many (grow "nested_identifier" none (seqs [op ".", leaf "property_identifier" (.word [])]))]

/-! ### Literals -/

/-- A string between two quotes `q`. -/
def stringWith (q : Char) : Part :=
  let quote := String.singleton q
  node "string" (seqs [op quote,
    many (alts [glued "string_fragment" true (.stringText q), glued "escape_sequence" true .escape]),
    glued quote false (.symbol [q] [])])

/-- A string. -/
def string : Part := alts [stringWith '"', stringWith '\'']

/-- A number. -/
def number : Part := leaf "number" .number

/-- The name of a member where it is declared. -/
def propertyName : Part :=
  alts [leaf "property_identifier" (.word []), string, number, leaf "private_property_identifier" .privateName,
    node "computed_property_name" (seqs [op "[", ref .expression, op "]"])]

/-- Something that may begin the name of a member, so that the word before it is a modifier. -/
def nameAhead : Part := ahead (alts [anyWord, op "\"", op "'", op "[", op "#", op "*", number])

/-- The word `w` at the start of a statement; it is a name by itself if the statement may end after it. -/
def opening (w : String) : Part := seqs [kw w, absent (ending ⟨true, false⟩)]

/-- The word `w` where it modifies the name that follows. -/
def modifier (w : String) : Part := seqs [kw w, absent (ending ⟨false, false⟩), nameAhead]

/-- A word that limits access to a member. -/
def accessModifier : Part :=
  node "accessibility_modifier" (seq (alts [kw "public", kw "private", kw "protected"]) nameAhead)

/-- The word that marks a member as replacing an inherited one. -/
def overrideModifier : Part := node "override_modifier" (modifier "override")

/-! ### Ends -/

/-- The end of a statement in which a further operator could have stood. -/
def endOfExpression : Part := alts [op ";", ending ⟨true, false⟩]

/-- The end of a statement in which no operator could have stood. -/
def endOfClause : Part := alts [op ";", ending ⟨false, false⟩]

/-- The value that a declaration gives a name. -/
def initializer : Part := seqs [op "=" "=>", ref .expression]

end ScriptHost.Syntax.Script
