import ScriptHost.Unicode.Binary
import ScriptHost.Unicode.CaseFold
import ScriptHost.Unicode.Category
import ScriptHost.Unicode.Script

/-!
# Properties by name

A property is named by itself, or by the name of a category or script.  In names, case, spaces, underscores, hyphens and
a leading `is` do not count.
-/

namespace ScriptHost.Unicode

/-- A name as it is looked up. -/
def looseName (name : List Char) : String :=
  let (is', rest) := match name with
    | 'i' :: 's' :: rest => (true, rest)
    | 'i' :: 'S' :: rest => (true, rest)
    | 'I' :: 's' :: rest => (true, rest)
    | 'I' :: 'S' :: rest => (true, rest)
    | _ => (false, name)
  let kept := (rest.filter fun c => c.toNat < 128 && c ≠ ' ' && c ≠ '_' && c ≠ '-').map Char.toLower
  if is' && kept == ['c'] then "isc" else String.ofList kept

/-- The names of categories and of groups of them, with the categories that they stand for. -/
private def categoryNames : List (List String × List String) := [
  (["lu", "uppercaseletter"], ["Lu"]), (["ll", "lowercaseletter"], ["Ll"]), (["lt", "titlecaseletter"], ["Lt"]),
  (["lc", "casedletter"], ["Lu", "Ll", "Lt"]), (["lm", "modifierletter"], ["Lm"]), (["lo", "otherletter"], ["Lo"]),
  (["l", "letter"], ["Lu", "Ll", "Lt", "Lm", "Lo"]), (["mn", "nonspacingmark"], ["Mn"]),
  (["mc", "spacingmark"], ["Mc"]), (["me", "enclosingmark"], ["Me"]),
  (["m", "mark", "combiningmark"], ["Mn", "Mc", "Me"]),
  (["nd", "decimalnumber", "digit"], ["Nd"]), (["nl", "letternumber"], ["Nl"]), (["no", "othernumber"], ["No"]),
  (["n", "number"], ["Nd", "Nl", "No"]), (["pc", "connectorpunctuation"], ["Pc"]), (["pd", "dashpunctuation"], ["Pd"]),
  (["ps", "openpunctuation"], ["Ps"]), (["pe", "closepunctuation"], ["Pe"]), (["pi", "initialpunctuation"], ["Pi"]),
  (["pf", "finalpunctuation"], ["Pf"]), (["po", "otherpunctuation"], ["Po"]),
  (["p", "punctuation", "punct"], ["Pc", "Pd", "Ps", "Pe", "Pi", "Pf", "Po"]), (["sm", "mathsymbol"], ["Sm"]),
  (["sc", "currencysymbol"], ["Sc"]), (["sk", "modifiersymbol"], ["Sk"]), (["so", "othersymbol"], ["So"]),
  (["s", "symbol"], ["Sm", "Sc", "Sk", "So"]), (["zs", "spaceseparator"], ["Zs"]), (["zl", "lineseparator"], ["Zl"]),
  (["zp", "paragraphseparator"], ["Zp"]), (["z", "separator"], ["Zs", "Zl", "Zp"]),
  (["cc", "control", "cntrl"], ["Cc"]),
  (["cf", "format"], ["Cf"]), (["co", "privateuse"], ["Co"]), (["cn", "unassigned"], ["Cn"]),
  (["c", "other"], ["Cc", "Cf", "Co", "Cn"])]

/-- The characters of a category or a group of categories. -/
def category? (name : String) : Option CharSet :=
  match name with
  | "any" => some [(0, CharSet.lastCode)]
  | "assigned" => some (CharSet.complement (ofCategories ["Cn"]))
  | "ascii" => some [(0, 127)]
  | _ => (categoryNames.find? fun (names, _) => names.contains name).map fun (_, cs) => ofCategories cs

/-- The characters with a property of one name. -/
def property? (name : List Char) : Option CharSet :=
  let name := looseName name
  ((binary? name).orElse fun _ => category? name).orElse fun _ => script? name

/-- The characters for which a property has a value. -/
def propertyValue? (property value : List Char) : Option CharSet :=
  let value := looseName value
  match looseName property with
  | "gc" | "generalcategory" => category? value
  | "sc" | "script" => script? value
  | "scx" | "scriptextensions" => scriptExtension? value
  | _ => none

/-! ### Classes -/

/-- Decimal digits. -/
def digits : CharSet := ofCategories ["Nd"]

/-- White space. -/
def blanks : CharSet := (binary? "whitespace").getD []

/-- Letters. -/
def letters : CharSet := (binary? "alphabetic").getD []

/-- Letters and numbers. -/
def alphanumerics : CharSet := letters.union (ofCategories ["Nd", "Nl", "No"])

/-- What words consist of. -/
def wordChars : CharSet :=
  (letters.union (ofCategories ["Mn", "Mc", "Me", "Nd", "Pc"])).union ((binary? "joincontrol").getD [])

end ScriptHost.Unicode
