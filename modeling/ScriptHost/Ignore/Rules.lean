import ScriptHost.Glob.Meaning
import ScriptHost.Text.Basic

/-!
# Ignore files

An ignore file says line by line which files below its directory are left out and which are kept after all.  Of
several lines that match, the last one counts.
-/

namespace ScriptHost.Ignore

open ScriptHost.Pattern ScriptHost.Text

/-- A line of an ignore file. -/
structure Rule where
  pattern : Program UInt8
  /-- Whether matching files are kept. -/
  keeps : Bool
  /-- Whether the rule is about directories alone. -/
  onlyDirectories : Bool

/-- A line without the white space at its end, unless that is escaped. -/
private def trimmed (line : String) : String := if hasTail "\\ " line then line else trimEnd line

/-- What is read off a line before its pattern: whether it keeps files, whether it is tied to the directory, and the
rest. -/
private def marks (line : List Char) : Bool × Bool × List Char :=
  match line with
  | '\\' :: '!' :: _ => (false, false, line.tail)
  | '\\' :: '#' :: _ => (false, false, line.tail)
  | '!' :: '/' :: rest => (true, true, rest)
  | '!' :: rest => (true, false, rest)
  | '/' :: rest => (false, true, rest)
  | _ => (false, false, line)

/-- A pattern without the slash at its end, and whether there was one. -/
private def directoryMark (pattern : List Char) : Bool × List Char :=
  match pattern.reverse with
  | '/' :: '\\' :: rest => (true, rest.reverse)
  | '/' :: rest => (true, rest.reverse)
  | _ => (false, pattern)

/-- The glob pattern that a line stands for.  One without slashes matches at any depth, and one that ends in `**` does
not match the directory itself. -/
private def globOf (tied : Bool) (pattern : String) : String :=
  let anywhere := !tied && !pattern.toList.contains '/' && !hasLead "**/" pattern && pattern != "**"
  let glob := if anywhere then "**/" ++ pattern else pattern
  if hasTail "/**" glob then glob ++ "/*" else glob

/-- The rule of a line, if it holds one. -/
def Rule.ofLine? (line : String) : Option Rule := do
  guard !hasLead "#" line
  let line := trimmed line
  guard !line.isEmpty
  let (keeps, tied, rest) := marks line.toList
  let (onlyDirectories, rest) := directoryMark rest
  let pattern ← (Glob.compile .ignoreFile (globOf tied (String.ofList rest))).toOption
  return ⟨pattern, keeps, onlyDirectories⟩

/-- The rules of an ignore file, which may begin with a byte order mark, last ones first. -/
def rulesOf (text : String) : List Rule :=
  ((lines ((afterLead? "\uFEFF" text).getD text)).filterMap Rule.ofLine?).reverse

/-- Whether a rule is about a file, given by its path below the directory of the rule. -/
def Rule.applies (r : Rule) (path : String) (isDirectory : Bool) : Bool :=
  (isDirectory || !r.onlyDirectories) && r.pattern.matchesAll path.toUTF8.toList

/-- Whether rules keep a file or leave it out, if they say anything about it. -/
def verdict? (rules : List Rule) (path : String) (isDirectory : Bool) : Option Bool :=
  (rules.find? (·.applies path isDirectory)).map (·.keeps)

end ScriptHost.Ignore
