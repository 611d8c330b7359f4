import ScriptHost.Disk
import ScriptHost.Ignore.Rules

/-!
# The files below a directory

All files below a directory, but of hidden ones and those that ignore files leave out.  Ignore files count for the
directory in which they are and all below it; those of a version control system count only inside a repository.
-/

namespace ScriptHost.Ignore

/-- What the ignore files of one directory say. -/
structure Level where
  place : Place
  rules : List Rule
  gitRules : List Rule
  gitExcludes : List Rule
  /-- Whether the directory is the top of a repository. -/
  isRepository : Bool

/-- The rules in the file at a place. -/
private def rulesAt (d : Disk) (place : Place) : List Rule :=
  match d.entry? place with
  | some (.file (.text s)) => rulesOf s
  | _ => []

/-- Reads the ignore files of a directory. -/
def Level.read (d : Disk) (place : Place) : Level where
  place
  rules := rulesAt d (".ignore" :: place)
  gitRules := rulesAt d (".gitignore" :: place)
  gitExcludes := rulesAt d ("exclude" :: "info" :: ".git" :: place)
  isRepository := (d.entry? (".git" :: place)).isSome

/-- The levels of a directory and of all directories above it, the innermost first. -/
def levelsAbove (d : Disk) : Place → List Level
  | [] => [.read d []]
  | name :: above => .read d (name :: above) :: levelsAbove d above

/-- The path of a place below a directory above it. -/
private def pathBelow (directory place : Place) : String :=
  "/".intercalate (place.take (place.length - directory.length)).reverse

/-- The levels up to the top of the innermost repository. -/
private def insideRepository : List Level → List Level
  | [] => []
  | l :: rest => if l.isRepository then [l] else l :: insideRepository rest

/-- What the first of the levels says that says anything. -/
private def firstVerdict? (rules : Level → List Rule) (place : Place) (isDirectory : Bool) (levels : List Level) :
    Option Bool :=
  levels.findSome? fun l => verdict? (rules l) (pathBelow l.place place) isDirectory

/-- Whether a file or directory is left out. -/
def leavesOut (levels : List Level) (place : Place) (isDirectory : Bool) : Bool :=
  let inGit := if levels.any (·.isRepository) then insideRepository levels else []
  let kept? := ((firstVerdict? (·.rules) place isDirectory levels).orElse fun _ =>
    firstVerdict? (·.gitRules) place isDirectory inGit).orElse fun _ =>
    firstVerdict? (·.gitExcludes) place isDirectory inGit
  match kept? with
  | some kept => !kept
  | none => place.head?.any fun name => name.toList.head? == some '.'

mutual

/-- The files below a directory whose levels are known, at most `depth` directories deep. -/
private def filesIn (d : Disk) : Nat → List Level → Place → List Place
  | 0, _, _ => []
  | depth + 1, levels, place => filesAmong d depth levels place (d.children place)

/-- The files among the names in a directory and below them. -/
private def filesAmong (d : Disk) (depth : Nat) (levels : List Level) (place : Place) : List String → List Place
  | [] => []
  | name :: rest =>
    let here := name :: place
    let found :=
      match d.entry? here with
      | some .directory =>
        if leavesOut levels here true then [] else filesIn d depth (.read d here :: levels) here
      | some (.file _) => if leavesOut levels here false then [] else [here]
      | none => []
    found ++ filesAmong d depth levels place rest

end

/-- The files at and below a place, sorted by directories. -/
def filesBelow (d : Disk) (place : Place) : List Place :=
  match d.entry? place with
  | some (.file _) => [place]
  | some .directory => filesIn d (d.entries.size + 1) (levelsAbove d place) place
  | none => []

end ScriptHost.Ignore
