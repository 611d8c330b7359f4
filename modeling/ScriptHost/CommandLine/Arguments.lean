/-!
# Command line arguments

The arguments name a command, the file that it is about, and options, which may stand before and after the name of the
command.  An option may be given once before and once after that name, and the value after it counts.  Everything
behind `--` is a file, whatever it looks like.
-/

namespace ScriptHost.CommandLine

/-- What is to be done. -/
inductive Command where
  /-- Track a file and all that it imports. -/
  | track (file : String)
  /-- List what a file imports. -/
  | imports (file : String)
  /-- List what the files import that can be reached from a file. -/
  | closure (file : String)
  /-- Track all scripts below the root. -/
  | index
  /-- Track all scripts below the root, and keep them up to date. -/
  | watch
  | version
  deriving DecidableEq, Repr

/-- The options of all commands. -/
structure Switches where
  verbose : Bool := false
  json : Bool := false
  root : Option String := none
  config : Option String := none
  deriving DecidableEq, Repr

/-- Why the arguments name nothing to be done. -/
inductive Stop where
  /-- They ask how to use the program. -/
  | help
  /-- They make no sense. -/
  | misuse
  deriving DecidableEq, Repr

/-! ### Forms of arguments -/

/-- An argument by its form. -/
inductive Word where
  /-- The two dashes behind which there are files alone. -/
  | escape
  /-- Two dashes and a name, perhaps with a value. -/
  | long (name : String) (value : Option String)
  /-- A dash and letters. -/
  | short (letters : List Char)
  | plain (text : String)
  deriving DecidableEq, Repr

/-- The form of an argument. -/
def Word.ofArgument (argument : String) : Word :=
  match argument.toList with
  | ['-', '-'] => .escape
  | '-' :: '-' :: cs =>
    .long (String.ofList (cs.takeWhile (· ≠ '=')))
      (match cs.dropWhile (· ≠ '=') with
        | [] => none
        | _ :: value => some (String.ofList value))
  | '-' :: c :: cs => .short (c :: cs)
  | _ => .plain argument

/-! ### Options -/

/-- The options that take a value. -/
inductive Setting where
  | root
  | config
  deriving DecidableEq, Repr

namespace Switches

/-- Sets an option to a value, which must not be empty. -/
def set (o : Switches) (setting : Setting) (value : String) : Except Stop Switches :=
  if value.isEmpty then .error .misuse
  else
    match setting, o.root, o.config with
    | .root, none, _ => .ok { o with root := some value }
    | .config, _, none => .ok { o with config := some value }
    | _, _, _ => .error .misuse

/-- Asks for results as JSON. -/
def setJson (o : Switches) : Except Stop Switches :=
  if o.json then .error .misuse else .ok { o with json := true }

/-- Asks for more messages. -/
def setVerbose (o : Switches) : Except Stop Switches :=
  if o.verbose then .error .misuse else .ok { o with verbose := true }

/-- The options that are given before and after the name of a command. -/
def after (inner outer : Switches) : Switches where
  verbose := inner.verbose || outer.verbose
  json := inner.json || outer.json
  root := inner.root.or outer.root
  config := inner.config.or outer.config

end Switches

/-- Options while they are read. -/
structure Reading where
  options : Switches
  /-- The option whose value comes next. -/
  waiting : Option Setting

namespace Reading

/-- The reading that begins. -/
def start : Reading := ⟨{}, none⟩

/-- Reads an option with a name. -/
def long (o : Switches) (name : String) (value : Option String) : Except Stop Reading :=
  let setting (s : Setting) : Except Stop Reading :=
    match value with
    | some v => (o.set s v).map (⟨·, none⟩)
    | none => .ok ⟨o, some s⟩
  match name, value with
  | "root", _ => setting .root
  | "config", _ => setting .config
  | "json", none => o.setJson.map (⟨·, none⟩)
  | "verbose", none => o.setVerbose.map (⟨·, none⟩)
  | "help", none => .error .help
  | _, _ => .error .misuse

/-- Reads options of one letter each; what follows the letter of an option with a value is the value. -/
def short (o : Switches) : List Char → Except Stop Reading
  | [] => .ok ⟨o, none⟩
  | 'v' :: rest => o.setVerbose.bind fun o => short o rest
  | 'h' :: _ => .error .help
  | 'r' :: rest => setting .root rest
  | 'c' :: rest => setting .config rest
  | _ => .error .misuse
where
  /-- Reads the value of an option. -/
  setting (s : Setting) : List Char → Except Stop Reading
    | [] => .ok ⟨o, some s⟩
    | '=' :: value => (o.set s (String.ofList value)).map (⟨·, none⟩)
    | value => (o.set s (String.ofList value)).map (⟨·, none⟩)

/-- Takes an argument as an option or the value of one, if it is such. -/
def take? (r : Reading) (w : Word) : Except Stop (Option Reading) :=
  match r.waiting, w with
  | some s, .plain value => (r.options.set s value).map fun o => some ⟨o, none⟩
  | some _, _ => .error .misuse
  | none, .long name value => (long r.options name value).map some
  | none, .short letters => (short r.options letters).map some
  | none, _ => .ok none

/-- The options, if none of them lacks its value. -/
def finish (r : Reading) : Except Stop Switches := if r.waiting.isSome then .error .misuse else .ok r.options

end Reading

/-! ### Commands -/

/-- The files of a command that takes `n` of them, and the options around them. -/
def readFiles : Nat → Reading → List String → Except Stop (Switches × List String)
  | n, r, [] => do
    let o ← r.finish
    if n = 0 then return (o, []) else .error .misuse
  | n, r, argument :: rest => do
    let w := Word.ofArgument argument
    match ← r.take? w, w, n with
    | some r, _, _ => readFiles n r rest
    | none, .escape, _ => if rest.length = n then return (r.options, rest) else .error .misuse
    | none, _, 0 => .error .misuse
    | none, _, n + 1 =>
      let (o, files) ← readFiles n r rest
      return (o, argument :: files)

/-- The commands that are about a file. -/
def fileCommands : List (String × (String → Command)) :=
  [("track", .track), ("imports", .imports), ("closure", .closure)]

/-- The commands that are about all files or none. -/
def plainCommands : List (String × Command) := [("index", .index), ("watch", .watch), ("version", .version)]

/-- Whether a command has a name. -/
def isCommand (name : String) : Bool :=
  name == "help" || (fileCommands.lookup name).isSome || (plainCommands.lookup name).isSome

/-- Reads what stands behind the name of a command. -/
def readCommand (name : String) (rest : List String) : Except Stop (Command × Switches) :=
  match fileCommands.lookup name, plainCommands.lookup name with
  | some command, _ => do
    match ← readFiles 1 .start rest with
    | (o, [file]) => return (command file, o)
    | _ => .error .misuse
  | none, some command => do
    let (o, _) ← readFiles 0 .start rest
    return (command, o)
  | none, none => .error (if name == "help" && rest.length ≤ 1 && rest.all isCommand then .help else .misuse)

/-- Reads arguments after some options. -/
def readArguments : Reading → List String → Except Stop (Command × Switches)
  | _, [] => .error .misuse
  | r, argument :: rest => do
    match ← r.take? (Word.ofArgument argument) with
    | some r => readArguments r rest
    | none =>
      let (command, inner) ← readCommand argument rest
      return (command, inner.after r.options)

/-- What arguments ask for. -/
def parse (arguments : List String) : Except Stop (Command × Switches) := readArguments .start arguments

end ScriptHost.CommandLine
