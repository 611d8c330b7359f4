import ScriptHost.Syntax.Script.Symbol

/-!
# Types

The rules of types, of the parameters of functions, and of the signatures that interfaces and object types hold.
-/

namespace ScriptHost.Syntax.Script

open Rule

/-! ### Patterns -/

/-- A pattern or name, with the value it takes by default. -/
def patternWithDefault : Part :=
  seqs [alts [node "rest_pattern" (seqs [op "...", alts [ref .bindingPattern, declaredName]]), ref .bindingPattern,
    declaredName], opt (grow "assignment_pattern" none initializer)]

/-- An entry of an object pattern. -/
def objectPatternEntry : Part :=
  alts [
    node "rest_pattern" (seqs [op "...", alts [ref .bindingPattern, declaredName]]),
    node "pair_pattern" (seqs [propertyName, op ":", patternWithDefault]),
    seqs [leaf "shorthand_property_identifier_pattern" (.word []),
      opt (grow "object_assignment_pattern" none initializer)]]

/-- A pattern that takes an object or an array apart into new names. -/
def bindingPattern : Part :=
  alts [node "object_pattern" (seqs [op "\x7b", commas objectPatternEntry, op "\x7d"]),
    node "array_pattern" (seqs [op "[", commas patternWithDefault, op "]"])]

/-! ### Parameters and signatures -/

/-- A parameter with a question mark is optional. -/
def markOptional : Node → Node
  | .branch "required_parameter" place start stop children =>
    .branch (if children.any (·.kind == "?") then "optional_parameter" else "required_parameter") place start stop
      children
  | n => n

private def parameterAhead : Part := ahead (alts [anyWord, op "\x7b", op "["])

private def parameterModifiers : Part :=
  seqs [ref .decorators,
    opt (node "accessibility_modifier" (seq (alts [kw "public", kw "private", kw "protected"]) parameterAhead)),
    opt (node "override_modifier" (seq (kw "override") parameterAhead)), opt (seq (kw "readonly") parameterAhead)]

/-- A parameter of a function. -/
def parameter : Part :=
  seqs [node "required_parameter" (seqs [parameterModifiers,
      alts [node "rest_pattern" (seqs [op "...", alts [ref .bindingPattern, declaredName]]), ref .bindingPattern,
        constant "this", declaredName],
      opt (op "?"), opt (ref .typeAscription), opt initializer]),
    recast markOptional]

/-- The parameters of a function. -/
def formalParameters : Part :=
  node "formal_parameters" (seqs [op "(", opt (seqs [commas1 parameter, opt (op ",")]), op ")"])

/-- A test of a parameter that narrows its type. -/
def typePredicate : Part :=
  node "type_predicate" (seqs [field .name (alts [constant "this", declaredName]), kw "is", ref .type])

/-- An assertion about a parameter, which holds after the call. -/
def assertion : Part :=
  node "asserts" (seqs [kw "asserts", sameLine, alts [typePredicate, constant "this", declaredName]])

/-- The type of what a function returns. -/
def returnAscription : Part :=
  alts [node "asserts_annotation" (seqs [op ":", assertion]),
    node "type_predicate_annotation" (seqs [op ":", typePredicate]), ref .typeAscription]

/-- Type parameters, parameters and return type of a function. -/
def callSignature : Part := seqs [opt (ref .typeParameters), ref .formalParameters, opt returnAscription]

private def typeParameter : Part :=
  node "type_parameter" (seqs [opt (seqs [kw "const", ahead anyWord]), field .name (leaf "type_identifier" (.word [])),
    opt (node "constraint" (seqs [alts [kw "extends", op ":"], ref .type])),
    opt (node "default_type" (seqs [op "=" "=>", ref .type]))])

/-- The type parameters of a declaration. -/
def typeParameters : Part :=
  node "type_parameters" (seqs [op "<", commas1 typeParameter, opt (op ","), op ">"])

/-- The types given for type parameters. -/
def typeArguments : Part := node "type_arguments" (seqs [op "<", commas1 (ref .type), opt (op ","), op ">"])

/-- The type that is written after a colon. -/
def typeAscription : Part := node "type_annotation" (seqs [op ":", ref .type])

/-! ### Members -/

private def indexSignature : Part :=
  node "index_signature" (seqs [opt (seqs [opt (alts [op "-", op "+"]), kw "readonly"]), op "[",
    alts [
      node "mapped_type_clause" (seqs [field .name (leaf "type_identifier" (.word [])), kw "in", ref .type,
        opt (seqs [kw "as", ref .type])]),
      seqs [field .name declaredName, op ":", ref .type]],
    op "]",
    alts [node "omitting_type_annotation" (seqs [op "-?:", ref .type]),
      node "adding_type_annotation" (seqs [op "+?:", ref .type]),
      node "opting_type_annotation" (seqs [op "?:", ref .type]), ref .typeAscription]])

/-- The signature of all members that have no name of their own. -/
def indexMember : Part := indexSignature

/-- The signature of a method. -/
def methodSignature : Part :=
  node "method_signature" (seqs [opt accessModifier, opt (modifier "static"), opt overrideModifier,
    opt (modifier "readonly"), opt (modifier "async"), opt (alts [modifier "get", modifier "set", op "*"]),
    field .name propertyName, opt (op "?"), ref .callSignature])

private def propertySignature : Part :=
  node "property_signature" (seqs [opt accessModifier, opt (modifier "static"), opt overrideModifier,
    opt (modifier "readonly"), field .name propertyName, opt (op "?"), opt (ref .typeAscription)])

private def constructSignature : Part :=
  node "construct_signature" (seqs [opt (modifier "abstract"), kw "new", opt (ref .typeParameters),
    ref .formalParameters, opt (ref .typeAscription)])

private def memberSignature : Part :=
  alts [constructSignature, node "call_signature" (ref .callSignature), indexSignature, methodSignature,
    propertySignature]

/-- The members of an object type or interface between braces. -/
def objectMembers : Part :=
  seqs [op "\x7b", opt (alts [op ",", op ";"]),
    many (seqs [memberSignature, alts [op ",", op ";", ending ⟨false, false⟩]]), op "\x7d"]

/-! ### Types -/

private def importedModule : Part :=
  seqs [constant "import", grow "call_expression" (some .function) (field .arguments (ref .arguments))]

private def queriedMember : Part := grow "member_expression" none (seqs [alts [op "." ".", op "?."], memberName])

private def predefinedType : Part :=
  alts [
    node "predefined_type" (alts [kw "any", kw "number", kw "boolean", kw "string", kw "symbol", kw "void",
      kw "unknown", kw "never", kw "object"]),
    node "predefined_type" (seqs [kw "unique", sameLine, kw "symbol"])]

private def typeQuery : Part :=
  node "type_query" (seqs [kw "typeof", alts [importedModule, constant "this", declaredName],
    many (alts [queriedMember,
      grow "subscript_expression" none (seqs [sameLine, op "[", alts [predefinedType, string, number], op "]"])]),
    opt (grow "instantiation_expression" (some .function) (ref .typeArguments))])

private def literalType : Part :=
  node "literal_type" (alts [number, string, constant "true", constant "false", constant "null", constant "undefined",
    node "unary_expression" (seqs [alts [op "-", op "+"], number])])

private def typeReference : Part := leaf "type_identifier" (.word reservedTypeWords)

/-- The name of a type, which may lie in a namespace. -/
def typeName : Part :=
  alts [
    seqs [leaf "identifier" (.word reservedTypeWords), ahead (op "." "."),
      many (grow "nested_identifier" none
        (seqs [op "." ".", leaf "property_identifier" (.word []), ahead (op "." ".")])),
      grow "nested_type_identifier" none (seqs [op "." ".", field .name (leaf "type_identifier" (.word []))])],
    typeReference]

/-- The name of a type with the types for its parameters. -/
def namedType : Part := seqs [typeName, opt (grow "generic_type" (some .name) (ref .typeArguments))]

private def tupleMember : Part :=
  alts [
    node "required_parameter" (seqs [
      field .name (alts [node "rest_pattern" (seqs [op "...", declaredName]), declaredName]), ref .typeAscription]),
    node "optional_parameter" (seqs [field .name declaredName, op "?", ref .typeAscription]),
    node "rest_type" (seqs [op "...", ref .type]),
    seqs [ref .type, opt (grow "optional_type" none (op "?"))]]

private def templateLiteralType : Part :=
  node "template_literal_type" (seqs [op "\x60",
    many (alts [glued "string_fragment" true .templateText, glued "escape_sequence" true .escape,
      node "template_type" (seqs [glued "$\x7b" false (.symbol ['$', '{'] []), ref .type, op "\x7d"])]),
    glued "\x60" false (.symbol ['\x60'] [])])

private def functionType : Part :=
  node "function_type" (seqs [opt (ref .typeParameters), ref .formalParameters, op "=>",
    alts [assertion, typePredicate, ref .type]])

private def constructorType : Part :=
  node "constructor_type" (seqs [opt (kw "abstract"), kw "new", opt (ref .typeParameters), ref .formalParameters,
    op "=>", ref .type])

/-- A type without operators. -/
def primaryType : Part :=
  alts [predefinedType, namedType, node "parenthesized_type" (seqs [op "(", ref .type, op ")"]),
    node "object_type" (ref .objectMembers),
    node "tuple_type" (seqs [op "[", opt (seqs [commas1 tupleMember, opt (op ",")]), op "]"]),
    literalType, templateLiteralType, typeQuery, node "this_type" (kw "this"), node "existential_type" (op "*"),
    node "flow_maybe_type" (seqs [op "?", ref .primaryType]), seqs [importedModule, many queriedMember],
    kw "const"]

/-- A type below the operators that join types: a function type, a type with a prefixed operator, or a type with
brackets after it. -/
def unaryType : Part :=
  alts [
    seqs [ahead (alts [op "(", op "<"]), functionType],
    seqs [ahead (alts [kw "new", kw "abstract"]), constructorType],
    node "readonly_type" (seqs [kw "readonly", ref .unaryType]),
    node "index_type_query" (seqs [kw "keyof", ref .unaryType]),
    node "infer_type" (seqs [kw "infer", leaf "type_identifier" (.word []),
      opt (seqs [kw "extends", ref .unaryType, absent (op "?")])]),
    seqs [ref .primaryType,
      many (alts [grow "array_type" none (seqs [sameLine, op "[", op "]"]),
        grow "lookup_type" none (seqs [sameLine, op "[", ref .type, op "]"])])]]

private def joined (kind mark : String) (part : Part) : Part :=
  seqs [alts [node kind (seqs [op mark mark, part]), part], many (grow kind none (seqs [op mark mark, part]))]

/-- Types joined by ampersands. -/
def intersection : Part := joined "intersection_type" "&" (ref .unaryType)

/-- Types joined by vertical bars. -/
def union : Part := joined "union_type" "|" (ref .intersection)

/-- A type, which may depend on whether one type extends another. -/
def typeExpression : Part :=
  seqs [ref .union,
    opt (grow "conditional_type" none
      (seqs [kw "extends", ref .type, op "?", ref .type, op ":", ref .type]))]

end ScriptHost.Syntax.Script
