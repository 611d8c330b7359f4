import ScriptHost.Config.Data

/-!
# The tables of a TOML document

A document is built from its lines one after the other.  A table may be opened by one header only; one that is only
named on the way to another may still be opened, unless it was named by the dots of a key.  Dots of a key do not lead
into a table that was opened.
-/

namespace ScriptHost.Config.Tables

/-- How a table came to be. -/
inductive Origin where
  /-- It was opened by a header, or written between braces. -/
  | opened
  /-- It was named on the way to another table. -/
  | passed
  /-- It was named by the dots of a key. -/
  | dotted
  deriving DecidableEq

/-- What a name stands for. -/
inductive Item where
  | value (d : Data)
  | table (origin : Origin) (members : List (String × Item))
  /-- The tables of a list, each opened by a header of its own, latest first. -/
  | tables (all : List (List (String × Item)))

/-- The members of a table. -/
abbrev Members := List (String × Item)

/-- Sets the member with a name. -/
def set (key : String) (item : Item) (ms : Members) : Members :=
  if ms.any (·.1 == key) then ms.map fun m => if m.1 == key then (key, item) else m else ms ++ [(key, item)]

/-- The member with a name. -/
def get? (key : String) (ms : Members) : Option Item := (ms.find? (·.1 == key)).map Prod.snd

/-- Changes the table to which names of a header lead. -/
def below (change : Members → Option Members) : List String → Members → Option Members
  | [], ms => change ms
  | key :: path, ms =>
    match get? key ms with
    | none => do return set key (.table .passed (← below change path [])) ms
    | some (.table origin inner) => do return set key (.table origin (← below change path inner)) ms
    | some (.tables (last :: earlier)) => do return set key (.tables ((← below change path last) :: earlier)) ms
    | _ => none

/-- Opens the table with a name. -/
def openTable (key : String) (ms : Members) : Option Members :=
  match get? key ms with
  | none => some (set key (.table .opened []) ms)
  | some (.table .passed inner) => some (set key (.table .opened inner) ms)
  | _ => none

/-- Opens the next table of a list. -/
def openNext (key : String) (ms : Members) : Option Members :=
  match get? key ms with
  | none => some (set key (.tables [[]]) ms)
  | some (.tables all) => some (set key (.tables ([] :: all)) ms)
  | _ => none

/-- Adds a value under a key with dots.  The last table that the dots lead through must have been made by dots. -/
def add (value : Data) : List String → Members → Option Members
  | [], _ => none
  | [key], ms => if (get? key ms).isNone then some (set key (.value value) ms) else none
  | key :: path, ms =>
    match get? key ms with
    | none => do return set key (.table .dotted (← add value path [])) ms
    | some (.table .dotted inner) => do return set key (.table .dotted (← add value path inner)) ms
    | some (.table .passed inner) => do
      guard (path.length > 1)
      return set key (.table .passed (← add value path inner)) ms
    | some (.tables (last :: earlier)) => do
      guard (path.length > 1)
      return set key (.tables ((← add value path last) :: earlier)) ms
    | _ => none

mutual

/-- An item as data. -/
def Item.data : Item → Data
  | .value d => d
  | .table _ ms => .members (dataOfMembers ms)
  | .tables all => .list (dataOfTables all).reverse

/-- The members of a table as data. -/
def dataOfMembers : List (String × Item) → List (String × Data)
  | [] => []
  | (key, item) :: rest => (key, item.data) :: dataOfMembers rest

/-- The tables of a list as data. -/
def dataOfTables : List (List (String × Item)) → List Data
  | [] => []
  | ms :: rest => .members (dataOfMembers ms) :: dataOfTables rest

end

end ScriptHost.Config.Tables
