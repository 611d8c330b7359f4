import ScriptHost.Syntax.Script.Symbol
import ScriptHost.Syntax.Script.Type

/-!
# Declarations

The rules of functions, classes, interfaces, enumerations, namespaces and variables, and of the words that export or
declare them.
-/

namespace ScriptHost.Syntax.Script

open Rule

/-! ### Decorators -/

private def decorator : Part :=
  node "decorator" (seqs [op "@",
    alts [ref .parenthesized,
      seqs [declaredName,
        many (grow "member_expression" none (seqs [op ".", leaf "property_identifier" (.word [])])),
        opt (grow "call_expression" (some .function) (seqs [opt (ref .typeArguments),
          field .arguments (ref .arguments)]))]]])

/-- Any number of decorators. -/
def decorators : Part := many decorator

/-! ### Variables -/

private def declarator : Part :=
  node "variable_declarator" (seqs [field .name (alts [ref .bindingPattern, declaredName]),
    alts [seqs [op "!" "=", ref .typeAscription], opt (ref .typeAscription)], opt initializer])

private def endOfVariables : Part := alts [endOfExpression, endOfClause]

/-- Variables that are local to a block. -/
def lexicalDeclaration : Part :=
  node "lexical_declaration" (seqs [alts [opening "let", kw "const"], commas1 declarator, endOfVariables])

/-- Variables that are local to a function. -/
def variableDeclaration : Part :=
  node "variable_declaration" (seqs [kw "var", commas1 declarator, endOfVariables])

/-! ### Functions -/

private def functionHead (star : Part) : Part :=
  seqs [opt (opening "async"), kw "function", star, field .name declaredName, ref .callSignature]

private def functionDeclaration : Part :=
  alts [
    node "function_declaration" (seqs [functionHead nothing, ref .block]),
    node "generator_function_declaration" (seqs [functionHead (op "*"), ref .block]),
    node "function_signature" (seqs [functionHead nothing, alts [op ";", ending ⟨false, true⟩]])]

/-! ### Classes -/

private def superclass : Part := seqs [ref .chain, opt (ref .typeArguments)]

/-- What a class extends and implements. -/
def classHeritage : Part :=
  let implemented := node "implements_clause" (seqs [kw "implements", commas1 (ref .type)])
  node "class_heritage" (alts [
    seqs [node "extends_clause" (seqs [kw "extends", commas1 superclass]), opt implemented],
    implemented])

/-- A method with its body. -/
def methodDefinition : Part :=
  node "method_definition" (seqs [opt accessModifier, opt (modifier "static"), opt overrideModifier,
    opt (modifier "readonly"), opt (modifier "async"), opt (alts [modifier "get", modifier "set", op "*"]),
    field .name propertyName, opt (op "?"), ref .callSignature, ref .block])

private def abstractMethod : Part :=
  node "abstract_method_signature" (seqs [opt accessModifier, modifier "abstract", opt overrideModifier,
    opt (alts [modifier "get", modifier "set", op "*"]), field .name propertyName, opt (op "?"), ref .callSignature])

private def fieldDefinition : Part :=
  node "public_field_definition" (seqs [
    ref .decorators,
    many (alts [accessModifier, overrideModifier, modifier "declare", modifier "static", modifier "readonly",
      modifier "abstract", modifier "accessor"]),
    field .name propertyName, opt (alts [op "?", op "!"]), opt (ref .typeAscription), opt initializer])

private def endOfMember : Part := alts [op ";", op ",", ending ⟨true, false⟩, ending ⟨false, false⟩]

private def classMember : Part :=
  alts [
    op ";",
    seqs [ref .decorators, ref .methodDefinition, opt (op ";")],
    node "class_static_block" (seqs [kw "static", ref .block]),
    seqs [alts [abstractMethod, indexMember], endOfMember],
    seqs [ref .decorators, methodSignature, alts [op ";", op ",", ending ⟨false, true⟩]],
    seqs [fieldDefinition, endOfMember]]

/-- The members of a class. -/
def classBody : Part := node "class_body" (seqs [op "\x7b", many classMember, op "\x7d"])

private def classRest : Part :=
  seqs [kw "class", field .name declaredTypeName, opt (ref .typeParameters), opt (ref .classHeritage), ref .classBody]

private def classDeclaration : Part :=
  alts [
    node "class_declaration" (seqs [ref .decorators, classRest, opt (ending ⟨true, false⟩)]),
    node "abstract_class_declaration" (seqs [ref .decorators, kw "abstract", classRest])]

/-! ### Types -/

private def interfaceDeclaration : Part :=
  node "interface_declaration" (seqs [kw "interface", field .name declaredTypeName, opt (ref .typeParameters),
    opt (node "extends_type_clause" (seqs [kw "extends", commas1 namedType])),
    node "interface_body" (ref .objectMembers)])

private def typeAlias : Part :=
  node "type_alias_declaration" (seqs [opening "type", field .name declaredTypeName, opt (ref .typeParameters),
    op "=" "=>", ref .type, endOfClause])

private def enumDeclaration : Part :=
  let entry := alts [node "enum_assignment" (seqs [field .name propertyName, initializer]), field .name propertyName]
  node "enum_declaration" (seqs [opt (kw "const"), kw "enum", field .name declaredName,
    node "enum_body" (seqs [op "\x7b", opt (seqs [commas1 entry, opt (op ",")]), op "\x7d"])])

/-! ### Namespaces -/

private def moduleRest : Part := seqs [field .name (alts [string, nestedName]), opt (ref .block)]

private def moduleDeclaration : Part := node "module" (seqs [opening "module", moduleRest])

private def namespaceDeclaration : Part := node "internal_module" (seqs [opening "namespace", moduleRest])

private def importAlias : Part :=
  node "import_alias" (seqs [kw "import", declaredName, op "=" "=>", nestedName, endOfClause])

private def ambientDeclaration : Part :=
  node "ambient_declaration" (seqs [opening "declare",
    alts [ref .declaration, seqs [kw "global", ref .block],
      seqs [kw "module", op ".", leaf "property_identifier" (.word []), op ":", ref .type, endOfClause]]])

/-- A declaration.  A namespace counts only where `withNamespace` says so: elsewhere it is an expression. -/
def declarationWith (withNamespace : Part) : Part :=
  alts [functionDeclaration, enumDeclaration, lexicalDeclaration, variableDeclaration, classDeclaration,
    interfaceDeclaration, typeAlias, moduleDeclaration, withNamespace, importAlias, ambientDeclaration]

/-- A declaration after a word that exports or declares it. -/
def declaration : Part := declarationWith namespaceDeclaration

/-! ### Imports and exports -/

private def fromClause : Part := seqs [kw "from", field .source string]

private def exportedName : Part := alts [declaredName, string]

private def importSpecifier : Part :=
  let spec := alts [seqs [field .name exportedName, kw "as", declaredName], field .name declaredName]
  node "import_specifier" (alts [
    seqs [alts [kw "type", kw "typeof"], spec, ahead (alts [op ",", op "\x7d"])],
    spec])

private def exportSpecifier : Part :=
  let spec := seqs [field .name exportedName, opt (seqs [kw "as", exportedName])]
  node "export_specifier" (alts [
    seqs [alts [kw "type", kw "typeof"], spec, ahead (alts [op ",", op "\x7d"])],
    spec])

private def importClause : Part :=
  let groups := alts [node "namespace_import" (seqs [op "*", kw "as", declaredName]),
    node "named_imports" (seqs [op "\x7b", opt (seqs [commas1 importSpecifier, opt (op ",")]), op "\x7d"])]
  node "import_clause" (alts [groups, seqs [declaredName, opt (seqs [op ",", groups])]])

private def importRest : Part :=
  alts [seqs [importClause, fromClause],
    node "import_require_clause" (seqs [declaredName, op "=" "=>", kw "require", op "(", field .source string, op ")"])]

private def importAttribute : Part := node "import_attribute" (seqs [alts [kw "with", kw "assert"], ref .object])

/-- An import of another module. -/
def importStatement : Part :=
  node "import_statement" (seqs [kw "import",
    alts [field .source string, seqs [alts [kw "type", kw "typeof"], importRest], importRest],
    opt importAttribute, endOfClause])

private def exportClause : Part :=
  node "export_clause" (seqs [op "\x7b", opt (seqs [commas1 exportSpecifier, opt (op ",")]), op "\x7d"])

/-- An export of names, of another module, of a declaration or of a value. -/
def exportStatement : Part :=
  alts [
    node "export_statement" (seqs [opening "export",
      alts [
        seqs [node "namespace_export" (seqs [op "*", kw "as", exportedName]), fromClause, endOfClause],
        seqs [op "*", fromClause, endOfClause],
        seqs [opt (kw "type"), exportClause, opt fromClause, endOfClause],
        seqs [op "=" "=>", ref .expression, endOfExpression],
        seqs [kw "as", kw "namespace", declaredName, endOfClause]]]),
    node "export_statement" (seqs [ref .decorators, opening "export",
      alts [field .declaration (ref .declaration),
        seqs [kw "default",
          alts [field .declaration (ref .declaration), seqs [ref .expression, endOfExpression]]]]])]

end ScriptHost.Syntax.Script
