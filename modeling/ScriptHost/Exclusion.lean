import ScriptHost.Config.Error
import ScriptHost.Glob.Meaning
import ScriptHost.Regex.Meaning

/-!
# Excluded scripts

Patterns that keep scripts out of import closures.  A path is excluded if any of them matches it; patterns are only
added and never taken away.  Regular expressions are tried one after the other, globs by one machine for all of them,
which is made anew for every glob that is added.  So a glob can be refused for two reasons: it cannot be read, or no
machine can be made for it and those before it.
-/

namespace ScriptHost

open ScriptHost.Pattern

namespace Exclusion

/-- The machine of a regular expression, which is to match some part of a path. -/
def ofRegex (pattern : String) : Except Config.Error (Program Char) :=
  ((Regex.compile? pattern).map .ok).getD (.error (.invalidRegex pattern))

/-- The pattern that a glob writes, which is to match a path as a whole. -/
def ofGlob (pattern : String) : Except Config.Error (Expr UInt8) :=
  (Glob.read .plain pattern).mapError (.invalidGlob pattern)

end Exclusion

/-- The patterns that have been added, in this order. -/
structure Exclusions where
  /-- Makes the machine of the globs. -/
  build : Glob.Builder
  regexes : List (Program Char)
  globs : List (Expr UInt8)
  /-- The machine of the globs, if there are any. -/
  matcher : Option (Program UInt8)

namespace Exclusions

/-- No patterns, with a way to make the machines of globs. -/
def emptyWith (build : Glob.Builder) : Exclusions := ⟨build, [], [], none⟩

/-- No patterns. -/
def empty : Exclusions := emptyWith Glob.together

/-- The number of patterns. -/
def size (s : Exclusions) : Nat := s.regexes.length + s.globs.length

/-- Whether any pattern matches a path. -/
def excludes (s : Exclusions) (path : String) : Bool :=
  s.regexes.any (·.matchesPart path.toList) || s.matcher.any (·.matchesAll path.toUTF8.toList)

/-- Adds the machine of a regular expression. -/
def addProgram (s : Exclusions) (p : Program Char) : Exclusions := { s with regexes := s.regexes ++ [p] }

/-- Adds a regular expression. -/
def addRegex (s : Exclusions) (pattern : String) : Except Config.Error Exclusions := do
  return s.addProgram (← Exclusion.ofRegex pattern)

/-- Adds a glob pattern. -/
def addGlob (s : Exclusions) (pattern : String) : Except Config.Error Exclusions := do
  let globs := s.globs ++ [← Exclusion.ofGlob pattern]
  let matcher ← (s.build globs).mapError (.unbuiltGlobs pattern)
  return { s with globs, matcher := some matcher }

end Exclusions

end ScriptHost
