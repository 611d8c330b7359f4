import ScriptHost.Syntax.Script.Declaration
import ScriptHost.Syntax.Script.Expression

/-!
# Statements

The rules of statements.  An opening brace begins a block, unless an equals sign after the closing one shows that it
was a pattern.
-/

namespace ScriptHost.Syntax.Script

open Rule

/-- Statements between braces; comments on the line after the closing brace belong to the block. -/
def block : Part :=
  node "statement_block" (seqs [op "\x7b", many (ref .statement), op "\x7d", opt (ending ⟨true, false⟩)])

private def emptyStatement : Part := node "empty_statement" (op ";")

private def expressionStatement : Part := node "expression_statement" (seqs [ref .expressions, endOfExpression])

private def ifStatement : Part :=
  node "if_statement" (seqs [kw "if", ref .parenthesized, ref .statement,
    opt (node "else_clause" (seqs [kw "else", ref .statement]))])

private def switchStatement : Part :=
  node "switch_statement" (seqs [kw "switch", ref .parenthesized,
    node "switch_body" (seqs [op "\x7b",
      many (alts [
        node "switch_case" (seqs [kw "case", ref .expressions, op ":", many (ref .statement)]),
        node "switch_default" (seqs [kw "default", op ":", many (ref .statement)])]),
      op "\x7d"])])

private def forInStatement : Part :=
  let target := alts [ref .bindingPattern, declaredName]
  node "for_in_statement" (seqs [kw "for", opt (kw "await"), op "(",
    alts [seqs [alts [kw "let", kw "const"], target], seqs [kw "var", target, opt initializer],
      seqs [ref .chain, recast asTarget]],
    alts [kw "in", kw "of"], ref .expressions, op ")", ref .statement])

private def forStatement : Part :=
  node "for_statement" (seqs [kw "for", op "(",
    alts [lexicalDeclaration, variableDeclaration, emptyStatement, seqs [ref .expressions, op ";"]],
    alts [emptyStatement, seqs [ref .expressions, op ";"]], opt (ref .expressions), op ")", ref .statement])

private def whileStatement : Part := node "while_statement" (seqs [kw "while", ref .parenthesized, ref .statement])

private def doStatement : Part :=
  node "do_statement" (seqs [kw "do", ref .statement, kw "while", ref .parenthesized, opt endOfClause])

private def tryStatement : Part :=
  node "try_statement" (seqs [kw "try", ref .block,
    opt (node "catch_clause" (seqs [kw "catch",
      opt (seqs [op "(", alts [ref .bindingPattern, declaredName], opt (ref .typeAscription), op ")"]), ref .block])),
    opt (node "finally_clause" (seqs [kw "finally", ref .block]))])

private def withStatement : Part := node "with_statement" (seqs [kw "with", ref .parenthesized, ref .statement])

private def jump (kind word : String) : Part :=
  node kind (seqs [kw word, opt (seqs [absent endOfClause, leaf "statement_identifier" (.word [])]), endOfClause])

private def returnStatement : Part :=
  node "return_statement" (seqs [kw "return", alts [endOfClause, seqs [ref .expressions, endOfExpression]]])

private def throwStatement : Part := node "throw_statement" (seqs [kw "throw", ref .expressions, endOfExpression])

private def debuggerStatement : Part := node "debugger_statement" (seqs [kw "debugger", endOfClause])

private def labeledStatement : Part :=
  node "labeled_statement" (seqs [leaf "statement_identifier" (.word reservedWords), op ":", ref .statement])

/-- A statement. -/
def statement : Part :=
  alts [emptyStatement, seqs [ref .block, absent (op "=" "=>")], exportStatement, importStatement, ifStatement,
    returnStatement, declarationWith fail, forInStatement, forStatement, whileStatement, doStatement, tryStatement,
    switchStatement, throwStatement, jump "break_statement" "break", jump "continue_statement" "continue",
    debuggerStatement, withStatement, labeledStatement, expressionStatement]

end ScriptHost.Syntax.Script
