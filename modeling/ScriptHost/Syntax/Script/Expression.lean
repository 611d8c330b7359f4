import ScriptHost.Syntax.Script.Symbol

/-!
# Expressions

The rules of expressions.  Operators are read level by level, from the weakest to the strongest.  An object or array to
the left of an equals sign is read as an expression first and then becomes a pattern (`asTarget`).
-/

namespace ScriptHost.Syntax.Script

open Rule

/-! ### Assignment -/

mutual

/-- The pattern that an object or array stands for when a value is assigned to it. -/
def asTarget : Node → Node
  | .branch "object" place start stop children => .branch "object_pattern" place start stop (asTargets children)
  | .branch "array" place start stop children => .branch "array_pattern" place start stop (asTargets children)
  | .branch "pair" place start stop children => .branch "pair_pattern" place start stop (asTargets children)
  | .branch "spread_element" place start stop children => .branch "rest_pattern" place start stop (asTargets children)
  | .branch "assignment_expression" place start stop children =>
    .branch "assignment_pattern" place start stop children
  | .leaf "shorthand_property_identifier" named place start text =>
    .leaf "shorthand_property_identifier_pattern" named place start text
  | n => n

/-- The parts of a pattern that the parts of an object or array stand for. -/
def asTargets : List Node → List Node
  | [] => []
  | n :: rest => asTarget n :: asTargets rest

end

private def compoundAssignment : Part :=
  alts (["+=", "-=", "*=", "/=", "%=", "^=", "&=", "|=", ">>=", ">>>=", "<<=", "**=", "&&=", "||=", "??="].map (op ·))

/-- An expression without commas. -/
def expression : Part :=
  alts [
    node "yield_expression" (seqs [kw "yield",
      alts [seqs [op "*", ref .expression], opt (seqs [sameLine, ref .expression])]]),
    seqs [ref .ternary,
      opt (alts [
        seqs [ahead (op "=" "=>"), recast asTarget,
          grow "assignment_expression" none (seqs [op "=" "=>", ref .expression])],
        grow "augmented_assignment_expression" none (seqs [compoundAssignment, ref .expression])])]]

/-- Expressions separated by commas. -/
def expressions : Part :=
  seqs [ref .expression, opt (grow "sequence_expression" none (seqs [op ",", commas1 (ref .expression)]))]

/-! ### Operators -/

/-- The question mark of a choice; a dot may follow it only where that begins a number. -/
private def questionMark : Part := alts [op "?" "?.", seqs [op "?" "?", ahead number]]

private def ternaryWith (consequence : Part) : Part :=
  grow "ternary_expression" none (seqs [questionMark, consequence, op ":", ref .expression])

/-- An expression that may choose between two others.  Where the first choice reads as the parameters of a function
whose type the colon begins, and no second choice is left, it is taken as parenthesized instead. -/
def ternary : Part :=
  seqs [ref (.binary 0), opt (alts [ternaryWith (ref .expression), ternaryWith (ref .parenthesized)])]

private def infixes (marks : List Part) (operand : Part) : List Part :=
  marks.map fun mark => grow "binary_expression" none (seqs [mark, operand])

private def castTo : Part :=
  alts [grow "as_expression" none (seqs [sameLine, kw "as", alts [seqs [kw "const", absent (op "." ".")], ref .type]]),
    grow "satisfies_expression" none (seqs [sameLine, kw "satisfies", ref .type])]

/-- The operators of each level, from the weakest to the strongest. -/
def operatorLevels : List (List Part) :=
  [[op "??" "="], [op "||" "="], [op "&&" "="], [op "|" "|="], [op "^" "="], [op "&" "&="],
    [op "===", op "!==", op "==" "=", op "!=" "="],
    [op "<" "<=", op "<=", op ">" ">=", op ">=", kw "instanceof", kw "in"],
    [op "<<" "=", op ">>>" "=", op ">>" ">="], [op "+" "+=", op "-" "-="], [op "*" "*=", op "/" "=", op "%" "="]]

/-- The level at which comparisons stand, and with them the casts. -/
def comparisonLevel : Nat := 7

/-- An expression whose operators are of a level or stronger. -/
def binary (level : Nat) : Part :=
  match operatorLevels[level]? with
  | some marks =>
    let operand := ref (.binary (level + 1))
    let suffixes := infixes marks operand
    seqs [operand, many (alts (if level = comparisonLevel then suffixes ++ [castTo] else suffixes))]
  | none => seqs [ref .unary, opt (grow "binary_expression" none (seqs [op "**" "=", ref (.binary level)]))]

/-- An expression with an operator before or after it. -/
def unary (d : Dialect) : Part :=
  alts [
    node "unary_expression" (seqs [alts [op "!", op "~", op "-" "-=", op "+" "+=", kw "typeof", kw "void", kw "delete"],
      ref .unary]),
    node "await_expression" (seqs [kw "await", ref .unary]),
    node "update_expression" (seqs [alts [op "++", op "--"], ref .unary]),
    seqs [ref .chain, opt (grow "update_expression" none (seqs [sameLine, alts [op "++", op "--"]]))],
    match d with
    | .plain => node "type_assertion" (seqs [ref .typeArguments, ref .unary])
    | .markup => fail]

/-! ### Members and calls -/

private def optionalChain : Part := node "optional_chain" (op "?." "0123456789")

private def member : Part :=
  grow "member_expression" none (seqs [alts [op "." ".", optionalChain], memberName])

private def subscript : Part :=
  grow "subscript_expression" none (seqs [opt optionalChain, op "[", ref .expressions, op "]"])

private def nonNull : Part := grow "non_null_expression" none (seqs [sameLine, op "!" "="])

private def call : Part :=
  grow "call_expression" (some .function) (seqs [opt optionalChain, opt (ref .typeArguments),
    field .arguments (ref .arguments)])

private def taggedTemplate : Part := grow "call_expression" (some .function) (field .arguments (ref .template))

private def instantiation : Part :=
  grow "instantiation_expression" none (seqs [ref .typeArguments,
    ahead (alts [op ")", op "]", op ",", op ";", op ":", op "\x7d", op ".", op "?.", op "=", ending ⟨true, false⟩])])

/-- An expression followed by members, calls and the like. -/
def chain : Part :=
  seqs [alts [ref .newExpression, ref .primary],
    many (alts [member, call, subscript, nonNull, taggedTemplate, instantiation])]

/-- The creation of an object. -/
def newExpression : Part :=
  alts [node "meta_property" (seqs [kw "new", op "." ".", kw "target"]),
    node "new_expression" (seqs [kw "new", alts [ref .newExpression, ref .primary],
      many (alts [member, subscript, nonNull]), opt (ref .typeArguments), opt (field .arguments (ref .arguments))])]

/-- The arguments of a call. -/
def arguments : Part :=
  node "arguments" (seqs [op "(",
    commas (alts [node "spread_element" (seqs [op "...", ref .expression]), ref .expression]), op ")"])

/-! ### Literals -/

/-- An expression in parentheses, with its type if it is given. -/
def parenthesized : Part :=
  node "parenthesized_expression" (seqs [op "(", ref .expressions, opt (ref .typeAscription), op ")"])

/-- An entry of an object.  A default value makes sense only if the object turns out to be a pattern. -/
def objectEntry : Part :=
  alts [node "spread_element" (seqs [op "...", ref .expression]),
    node "pair" (seqs [propertyName, op ":", ref .expression]),
    ref .methodDefinition,
    seqs [leaf "shorthand_property_identifier_pattern" (.word []),
      grow "object_assignment_pattern" none initializer],
    leaf "shorthand_property_identifier" (.word [])]

/-- An object. -/
def object : Part := node "object" (seqs [op "\x7b", commas objectEntry, op "\x7d"])

/-- An array. -/
def array : Part :=
  node "array" (seqs [op "[",
    commas (alts [node "spread_element" (seqs [op "...", ref .expression]), ref .expression]), op "]"])

/-- A template, with expressions between its texts. -/
def template : Part :=
  node "template_string" (seqs [op "\x60",
    many (alts [glued "string_fragment" true .templateText, glued "escape_sequence" true .escape,
      node "template_substitution"
        (seqs [glued "$\x7b" false (.symbol ['$', '{'] []), ref .expressions, op "\x7d"])]),
    glued "\x60" false (.symbol ['\x60'] [])])

private def regularExpression : Part :=
  node "regex" (seqs [op "/", glued "regex_pattern" true .regexBody, glued "/" false (.symbol ['/'] []),
    opt (glued "regex_flags" true .regexFlags)])

/-! ### Functions -/

private def arrowBody : Part := alts [ref .block, ref .expression]

private def arrowFunction : Part :=
  alts [
    node "arrow_function" (seqs [identifier, op "=>", arrowBody]),
    seqs [ahead (alts [op "(", op "<", seqs [kw "async", alts [op "(", op "<"]]]),
      node "arrow_function" (seqs [opt (seqs [kw "async", sameLine]), ref .callSignature, op "=>", arrowBody])],
    node "arrow_function" (seqs [kw "async", sameLine, declaredName, op "=>", arrowBody])]

private def functionExpression : Part :=
  alts [
    node "function_expression" (seqs [opt (seqs [kw "async", sameLine]), kw "function",
      opt (field .name declaredName), ref .callSignature, ref .block]),
    node "generator_function" (seqs [opt (seqs [kw "async", sameLine]), kw "function", op "*",
      opt (field .name declaredName), ref .callSignature, ref .block])]

private def classExpression : Part :=
  node "class" (seqs [ref .decorators, kw "class", opt (field .name declaredTypeName), opt (ref .typeParameters),
    opt (ref .classHeritage), ref .classBody])

private def namespaceExpression : Part :=
  node "internal_module" (seqs [opening "namespace", field .name (alts [string, nestedName]), ref .block])

/-! ### Primary expressions -/

/-- An expression without operators. -/
def primary (d : Dialect) : Part :=
  alts [
    seqs [leaf "identifier" (.word ("async" :: "namespace" :: reservedWords)), absent (op "=>")],
    arrowFunction, ref .parenthesized, string, number, ref .object, ref .array, ref .template,
    constant "this", constant "super", constant "true", constant "false", constant "null", constant "undefined",
    functionExpression, classExpression,
    node "meta_property" (seqs [kw "import", op "." ".", kw "meta"]),
    seqs [constant "import", ahead (alts [op "(", op "<", op "." "."])],
    regularExpression, namespaceExpression, identifier,
    match d with
    | .plain => fail
    | .markup => ref .markupElement]

end ScriptHost.Syntax.Script
