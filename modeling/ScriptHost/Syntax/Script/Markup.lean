import ScriptHost.Syntax.Script.Symbol

/-!
# Markup

The rules of markup elements within expressions: tags, their attributes, and what stands between an opening and a
closing tag.
-/

namespace ScriptHost.Syntax.Script

open Rule

private def markupName : Part := leaf "identifier" .markupName

private def elementName : Part :=
  alts [
    seqs [declaredName, ahead (op "."),
      many (grow "member_expression" none (seqs [op ".", leaf "property_identifier" (.word [])]))],
    node "jsx_namespace_name" (seqs [markupName, op ":", markupName]),
    markupName]

private def attributeString (q : Char) : Part :=
  let quote := String.singleton q
  node "string" (seqs [op quote,
    many (alts [glued "string_fragment" true (.attributeText q),
      glued "html_character_reference" true .characterReference]),
    glued quote false (.symbol [q] [])])

private def embedded : Part :=
  node "jsx_expression" (seqs [op "\x7b",
    opt (alts [node "spread_element" (seqs [op "...", ref .expression]), ref .expressions]), op "\x7d"])

private def tagAttribute : Part :=
  alts [embedded,
    node "jsx_attribute" (seqs [
      alts [
        node "jsx_namespace_name" (seqs [markupName, op ":", markupName]),
        leaf "property_identifier" .markupName],
      opt (seqs [op "=", alts [attributeString '"', attributeString '\'', embedded, ref .markupElement]])])]

private def tagHead : Part :=
  seqs [op "<", field .name elementName, opt (ref .typeArguments), many tagAttribute]

private def child : Part :=
  alts [glued "jsx_text" true .markupText, leaf "html_character_reference" .characterReference, ref .markupElement,
    embedded]

/-- An element: one tag, or two tags with children between them. -/
def markupElement : Part :=
  alts [
    node "jsx_self_closing_element" (seqs [tagHead, op "/>"]),
    node "jsx_element" (seqs [
      node "jsx_opening_element" (alts [seqs [tagHead, op ">"], seqs [op "<", op ">"]]),
      many child,
      node "jsx_closing_element" (seqs [op "</", opt (field .name elementName), op ">"])])]

end ScriptHost.Syntax.Script
