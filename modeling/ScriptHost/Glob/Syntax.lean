import ScriptHost.Path.Basic

/-!
# Glob patterns as parts

`Glob.parse` reads a glob pattern.  `**` has a meaning of its own only where it makes up all that stands between two
slashes; elsewhere it is a star twice.  Braces hold alternatives, which may hold braces again.
-/

namespace ScriptHost.Glob

/-- Why a text is no glob pattern. -/
inductive Error where
  | unclosedClass
  | invalidRange (first last : Char)
  | unclosedAlternates
  | unopenedAlternates
  | danglingEscape
  deriving DecidableEq, Repr

/-- The error in words. -/
def Error.message : Error → String
  | unclosedClass => "unclosed character class; missing ']'"
  | invalidRange first last => "invalid range; '" ++ first.toString ++ "' > '" ++ last.toString ++ "'"
  | unclosedAlternates => "unclosed alternate group; missing '\x7d' (maybe escape '\x7b' with '[\x7b]'?)"
  | unopenedAlternates => "unopened alternate group; missing '\x7b' (maybe escape '\x7d' with '[\x7d]'?)"
  | danglingEscape => "dangling '\\'"

/-- A part of a glob pattern. -/
inductive Part where
  | literal (c : Char)
  /-- `?`: one byte. -/
  | any
  /-- `*`: any number of bytes. -/
  | star
  /-- `**` at the start: any directories, or none. -/
  | leading
  /-- `**` at the end: anything below a directory. -/
  | trailing
  /-- `**` between slashes: any directories, or none. -/
  | inner
  | class (negated : Bool) (ranges : List (Char × Char))
  | alternates (all : List (List Part))

/-! ### Classes -/

/-- A class while it is read: its ranges, reversed, and whether a hyphen waits for the end of the last one. -/
private structure ClassState where
  ranges : List (Char × Char)
  inRange : Bool

private def ClassState.add (s : ClassState) (c : Char) : Except Error ClassState :=
  match s.ranges with
  | (first, _) :: rest =>
    if !s.inRange then .ok { s with ranges := (c, c) :: s.ranges }
    else if c < first then .error (.invalidRange first c)
    else .ok ⟨(first, c) :: rest, false⟩
  | [] => .ok ⟨[(c, c)], false⟩

/-- Reads a class up to its closing bracket. -/
private def readRanges (first : Bool) (s : ClassState) : List Char → Except Error (List (Char × Char) × List Char)
  | [] => .error .unclosedClass
  | c :: rest =>
    if c = ']' ∧ !first then
      .ok ((if s.inRange then ('-', '-') :: s.ranges else s.ranges).reverse, rest)
    else if c = ']' then readRanges false { s with ranges := (']', ']') :: s.ranges } rest
    else if c = '-' ∧ !first ∧ !s.inRange then readRanges false { s with inRange := true } rest
    else do readRanges false (← s.add c) rest

private def readClass (cs : List Char) : Except Error (Part × List Char) := do
  let (negated, rest) := match cs with
    | '!' :: rest => (true, rest)
    | '^' :: rest => (true, rest)
    | _ => (false, cs)
  let (ranges, rest) ← readRanges true ⟨[], false⟩ rest
  return (.class negated ranges, rest)

/-! ### Patterns -/

/-- The alternatives of braces that are open, reversed, and the parts before the braces, reversed. -/
private structure Group where
  before : List Part
  done : List (List Part)

/-- A pattern while it is read: the open groups, and the parts of the current alternative, reversed. -/
private structure State where
  /-- Whether a bracket that is not closed stands for itself. -/
  lenient : Bool
  groups : List Group
  parts : List Part
  /-- The character that was read last. -/
  last : Option Char

private def State.push (s : State) (p : Part) : State := { s with parts := p :: s.parts }

/-- Reads what follows two stars. -/
private def readStars (s : State) (before : Option Char) (cs : List Char) : State × List Char :=
  let twice : State × List Char := ((s.push .star).push .star, cs)
  let grouped := !s.groups.isEmpty
  let replace (p : Part) : State :=
    match s.parts with
    | .leading :: _ => s
    | .trailing :: _ => s
    | _ :: rest => { s with parts := p :: rest }
    | [] => s
  if s.parts.isEmpty then
    match cs with
    | [] => (s.push .leading, [])
    | '/' :: rest => ({ s.push .leading with last := some '/' }, rest)
    | _ => twice
  else if before ≠ some '/' ∧ !(grouped ∧ (before = some ',' ∨ before = some '{')) then twice
  else
    match cs with
    | [] => (replace .trailing, [])
    | '/' :: rest => ({ replace .inner with last := some '/' }, rest)
    | c :: _ => if grouped ∧ (c = ',' ∨ c = '}') then (replace .trailing, cs) else twice

/-- Reads the part that starts with a character, which followed the character `before`. -/
private def step (s : State) (before : Option Char) (c : Char) (rest : List Char) : Except Error (State × List Char) :=
  match c with
  | '?' => .ok (s.push .any, rest)
  | '*' =>
    match rest with
    | '*' :: rest => .ok (readStars { s with last := some '*' } before rest)
    | _ => .ok (s.push .star, rest)
  | '[' =>
    match readClass rest with
    | .ok (p, rest) => .ok ({ s.push p with last := some ']' }, rest)
    | .error .unclosedClass => if s.lenient then .ok (s.push (.literal '['), rest) else .error .unclosedClass
    | .error e => .error e
  | '{' => .ok ({ s with groups := ⟨s.parts, []⟩ :: s.groups, parts := [] }, rest)
  | '}' =>
    match s.groups with
    | [] => .error .unopenedAlternates
    | g :: groups =>
      .ok ({ s with groups, parts := .alternates (s.parts.reverse :: g.done).reverse :: g.before }, rest)
  | ',' =>
    match s.groups with
    | [] => .ok (s.push (.literal ','), rest)
    | g :: groups =>
      .ok ({ s with groups := { g with done := s.parts.reverse :: g.done } :: groups, parts := [] }, rest)
  | '\\' =>
    match rest with
    | [] => .error .danglingEscape
    | c :: rest => .ok ({ s.push (.literal c) with last := some c }, rest)
  | c => .ok (s.push (.literal c), rest)

/-- Reads part after part. -/
private def run : Nat → State → List Char → Except Error State
  | 0, s, _ => .ok s
  | _ + 1, s, [] => .ok s
  | fuel + 1, s, c :: rest => do
    let (s, rest) ← step { s with last := some c } s.last c rest
    run fuel s rest

/-- The parts of a glob pattern.  In a lenient one, a bracket that is not closed stands for itself. -/
def parse (lenient : Bool) (pattern : String) : Except Error (List Part) := do
  let cs := pattern.toList
  let s ← run cs.length ⟨lenient, [], [], none⟩ cs
  if s.groups.isEmpty then return s.parts.reverse else throw .unclosedAlternates

end ScriptHost.Glob
