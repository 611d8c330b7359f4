import ScriptHost.Json.Basic
import ScriptHost.Settings

/-!
# Settings and options as data

Settings and options come as JSON or TOML.  `Data` is what both formats have in common, and a `Convention` says where
they differ.  Members with unknown names do not count.
-/

namespace ScriptHost.Config

/-- A value of a data format. -/
inductive Data where
  | absent
  | text (s : String)
  | list (items : List Data)
  /-- Members with names that differ from each other. -/
  | members (ms : List (String × Data))
  /-- A number, truth value or the like. -/
  | scalar

/-- How a format writes what has several forms. -/
structure Convention where
  /-- Whether a value says that there is nothing to be said. -/
  isUnit : Data → Bool
  /-- Whether a list in the place of named members must not be too long. -/
  exactLength : Bool

/-- In JSON, nothing is written as null. -/
def jsonConvention : Convention where
  isUnit
    | .absent => true
    | _ => false
  exactLength := true

/-- In TOML, nothing is written as an empty list or table. -/
def tomlConvention : Convention where
  isUnit
    | .list [] => true
    | .members [] => true
    | _ => false
  exactLength := false

namespace Data

/-- The member with a name. -/
def member? (key : String) (ms : List (String × Data)) : Option Data := (ms.find? (·.1 == key)).map Prod.snd

/-- One of a number of named things: its name, or a single member of its name with nothing in it. -/
def choice? {α : Type} (c : Convention) (names : List (String × α)) : Data → Option α
  | text s => names.lookup s
  | members [(key, value)] => if c.isUnit value then names.lookup key else none
  | _ => none

/-- A text. -/
def text? : Data → Option String
  | text s => some s
  | _ => none

/-- A list of texts. -/
def texts? : Data → Option (List String)
  | list items => items.mapM text?
  | _ => none

/-- Something that may be left out. -/
def optional? {α : Type} (read : Data → Option α) : Data → Option (Option α)
  | absent => some none
  | d => (read d).map some

/-- The settings, by name or in the order target, module, libraries. -/
def settings? (c : Convention) : Data → Option Settings
  | members ms => do
    let target ← choice? c Target.names (← member? "target" ms)
    let module ← choice? c ModuleKind.names (← member? "module" ms)
    return ⟨target, module, ← texts? (← member? "lib" ms)⟩
  | list (target :: module :: lib :: rest) => do
    guard (rest.isEmpty || !c.exactLength)
    return ⟨← choice? c Target.names target, ← choice? c ModuleKind.names module, ← texts? lib⟩
  | _ => none

/-- The options, by name or in the order files, globs, settings. -/
def options? (c : Convention) (d : Data) : Option Options :=
  let options (files globs settings : Data) : Option Options := do
    return ⟨← optional? texts? files, ← optional? texts? globs, ← optional? (settings? c) settings⟩
  match d with
  | members ms =>
    let get (key : String) : Data := (member? key ms).getD absent
    options (get "excluded_files") (get "excluded_globs") (get "compiler_settings")
  | list items =>
    if c.exactLength && items.length > 3 then none
    else options (items[0]?.getD absent) (items[1]?.getD absent) (items[2]?.getD absent)
  | _ => none

mutual

/-- A JSON value as data; of several members with one name the last counts. -/
def ofJson : Json → Data
  | .null => absent
  | .string s => text s
  | .array items => list (ofJsonItems items)
  | .object ms => members (ofJsonMembers ms)
  | _ => scalar

/-- The items of an array as data. -/
def ofJsonItems : List Json → List Data
  | [] => []
  | v :: rest => ofJson v :: ofJsonItems rest

/-- The members of an object as data. -/
def ofJsonMembers : List (String × Json) → List (String × Data)
  | [] => []
  | (key, v) :: rest =>
    let rest := ofJsonMembers rest
    if rest.any (·.1 == key) then rest else (key, ofJson v) :: rest

end

end Data

/-- Settings that are given as JSON. -/
def settingsOfJson? (v : Json) : Option Settings := Data.settings? jsonConvention (.ofJson v)

/-- Options that are given as JSON. -/
def optionsOfJson? (v : Json) : Option Options := Data.options? jsonConvention (.ofJson v)

end ScriptHost.Config
