/-!
# Paths as text

A path is a text whose parts are divided by slashes.  Repeated slashes, a slash at the end and inner dots do not count:
two texts with the same `components` name the same place.  All operations here work on the text alone.
-/

namespace ScriptHost.Path

/-- A part of a path. -/
inductive Component where
  | root
  /-- The dot that a relative path begins with. -/
  | current
  | parent
  | normal (name : String)
  deriving DecidableEq, Repr

/-- The text of a part. -/
def Component.text : Component → String
  | root => "/"
  | current => "."
  | parent => ".."
  | normal name => name

/-- Divides a list of characters at the slashes. -/
def splitSlashes : List Char → List (List Char)
  | [] => [[]]
  | c :: rest =>
    match splitSlashes rest with
    | [] => [[c]]
    | s :: more => if c = '/' then [] :: s :: more else (c :: s) :: more

/-- The texts between the slashes of a path. -/
def segments (path : String) : List String := (splitSlashes path.toList).map String.ofList

/-- The part that a text between slashes is, if it counts. -/
def component? (s : List Char) : Option Component :=
  match s with
  | [] => none
  | ['.'] => none
  | ['.', '.'] => some .parent
  | s => some (.normal (String.ofList s))

/-- The parts of a path that count. -/
def components (path : String) : List Component :=
  match path.toList with
  | '/' :: rest => .root :: (splitSlashes rest).filterMap component?
  | cs =>
    match splitSlashes cs with
    | ['.'] :: rest => .current :: rest.filterMap component?
    | parts => parts.filterMap component?

/-- A path is absolute if it begins at the root. -/
def isAbsolute (path : String) : Bool := path.toList.head? == some '/'

/-- The path `path` as seen from `base`; an absolute path stays as it is. -/
def join (base path : String) : String :=
  if isAbsolute path then path
  else if base.isEmpty || base.toList.getLast? == some '/' then base ++ path
  else base ++ "/" ++ path

/-- The last part of a path if it is a name. -/
def fileName? (path : String) : Option String :=
  match (components path).getLast? with
  | some (.normal name) => some name
  | _ => none

/-- A name before and after its last dot; a dot that begins the name does not count. -/
def splitExtension (name : String) : String × Option String :=
  let reversed := name.toList.reverse
  match reversed.dropWhile (· ≠ '.') with
  | '.' :: c :: rest =>
    (String.ofList (c :: rest).reverse, some (String.ofList (reversed.takeWhile (· ≠ '.')).reverse))
  | _ => (name, none)

/-- The extension of the last part of a path, without its dot. -/
def extension? (path : String) : Option String := (fileName? path).bind fun name => (splitExtension name).2

/-- Drops the slashes and inner dots at the end of a reversed path, but not the root. -/
def dropTrailing : List Char → List Char
  | ['/'] => ['/']
  | '/' :: rest => dropTrailing rest
  | ['.', '/'] => ['/']
  | '.' :: '/' :: rest => dropTrailing rest
  | cs => cs

/-- The path without its last part; the root and the empty path have none. -/
def parent? (path : String) : Option String :=
  match (components path).getLast? with
  | none => none
  | some .root => none
  | some _ =>
    let rest := (dropTrailing path.toList.reverse).dropWhile (· ≠ '/')
    some (String.ofList (dropTrailing rest).reverse)

/-- The path, then the path above it, and so on. -/
def ancestors (path : String) : List String :=
  let rec go : Nat → String → List String
    | 0, _ => []
    | fuel + 1, path => path :: ((parent? path).map (go fuel)).getD []
  go (path.length + 1) path

/-- The path without the extension of its last part. -/
def withoutExtension (path : String) : String :=
  match fileName? path with
  | none => path
  | some name =>
    match (splitExtension name).2 with
    | none => String.ofList (dropTrailing path.toList.reverse).reverse
    | some extension =>
      String.ofList ((dropTrailing path.toList.reverse).drop (extension.length + 1)).reverse

/-- Adds a part to a path from which dots have been removed: `..` takes the last part away if it can. -/
def stepInto (path : String) : Component → String
  | .current => path
  | .parent => (parent? path).getD (join path "..")
  | c => join path c.text

/-- The path without dots; `..` takes the part before it away as long as there is one. -/
def clean (path : String) : String := (components path).foldl stepInto ""

end ScriptHost.Path
