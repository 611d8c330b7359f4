import ScriptHost.Imports.Scan
import ScriptHost.Unicode.Property

/-!
# The imports of a text that cannot be parsed

`scanPatterns` finds what looks like an import without a syntax tree, so that comments and strings are searched too.
There are four kinds of finds, each of which is looked for in the whole text: after a find the search goes on behind
it.
-/

namespace ScriptHost.Imports

open ScriptHost.Text

/-! ### Parts of imports -/

/-- Whether a character may stand in a word. -/
def isWordChar (c : Char) : Bool := Unicode.wordChars.contains c

/-- Whether a word can start behind a character. -/
def wordStarts (before : Option Char) : Bool := !before.any isWordChar

/-- Whether a word ends before a text. -/
def wordEnds (cs : List Char) : Bool := !cs.head?.any isWordChar

/-- Whether a line starts behind a character. -/
def lineStarts (before : Option Char) : Bool := before.all (· == '\n')

/-- Whether a character opens or closes a name. -/
def isQuote (c : Char) : Bool := c = '\'' || c = '"'

/-- The text without white space at its start. -/
def skipBlanks (cs : List Char) : List Char := cs.dropWhile isBlank

/-- What follows a word at the start of a text. -/
def afterWord? (word : String) (cs : List Char) : Option (List Char) := word.toList.isPrefixOf? cs

/-- A name between quotes at the start of a text, and what follows it. -/
def quotedName? : List Char → Option (String × List Char)
  | [] => none
  | q :: cs =>
    match cs.dropWhile (!isQuote ·) with
    | _ :: rest => if isQuote q then some (String.ofList (cs.takeWhile (!isQuote ·)), rest) else none
    | [] => none

/-- The name after the next `from`.  It stands in the same statement, and no quote stands before it. -/
def fromName? (before : Option Char) (cs : List Char) : Option (String × List Char) :=
  let here := if wordStarts before then (afterWord? "from" cs).bind (quotedName? ∘ skipBlanks) else none
  match here, cs with
  | some found, _ => some found
  | none, [] => none
  | none, c :: rest => if c = ';' ∨ isQuote c then none else fromName? (some c) rest

/-! ### Finds -/

/-- An import that begins at a place: its form, the name of the module, and the text behind the import. -/
abbrev Find := Form × String × List Char

/-- A way to recognise imports by the character before them and the text that starts with them. -/
abbrev Finder := Option Char → List Char → Option Find

/-- An import or export from a module.  It stands first on its line, and white space before it belongs to it. -/
def findFrom : Finder := fun before cs => do
  guard (lineStarts before)
  let cs := skipBlanks cs
  let (form, rest) ← match afterWord? "import" cs, afterWord? "export" cs with
    | some rest, _ => some (Form.static, rest)
    | none, some rest => some (Form.reExport, rest)
    | none, none => none
  guard (wordEnds rest)
  let (name, rest) ← fromName? (some 't') rest
  return (form, name, rest)

/-- An import of a module without names.  It stands first on its line, and white space before it belongs to it. -/
def findBare : Finder := fun before cs => do
  guard (lineStarts before)
  let (name, rest) ← quotedName? (skipBlanks (← afterWord? "import" (skipBlanks cs)))
  return (.static, name, rest)

/-- A call with the name of a module. -/
def findCall (callee : String) (form : Form) : Finder := fun before cs => do
  guard (wordStarts before)
  let rest ← afterWord? "(" (skipBlanks (← afterWord? callee cs))
  let (name, rest) ← quotedName? (skipBlanks rest)
  return (form, name, ← afterWord? ")" (skipBlanks rest))

/-! ### Search -/

/-- The finds in a text that starts at a byte, behind a character. -/
def findAll (finder : Finder) : Nat → Option Char → Nat → List Char → List Specifier
  | 0, _, _, _ => []
  | fuel + 1, before, offset, cs =>
    match finder before cs, cs with
    | some (form, name, rest), _ =>
      let taken := cs.take (cs.length - rest.length)
      ⟨name, form, offset⟩ :: findAll finder fuel taken.getLast? (offset + byteLength taken) rest
    | none, c :: rest => findAll finder fuel (some c) (offset + c.utf8Size) rest
    | none, [] => []

/-- The kinds of finds. -/
def finders : List Finder := [findFrom, findBare, findCall "require" .require, findCall "import" .dynamic]

/-- The imports found in a text, in the order of the text. -/
def scanPatterns (source : String) : List Specifier :=
  let cs := source.toList
  (finders.flatMap fun finder => findAll finder (cs.length + 1) none 0 cs).mergeSort fun a b => a.offset ≤ b.offset

end ScriptHost.Imports
