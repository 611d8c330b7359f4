import ScriptHost.Regex.Syntax
import ScriptHost.Text.Basic

/-!
# Reading regular expressions

`Regex.parse?` reads a regular expression.  There are no look-arounds but those of single places, and no references to
groups.  The reader keeps a stack of the groups that are open, each with what stands before it.

How deep an expression may be nested is limited here.  The size of its machine is not known before the expression has a
meaning, and then it is estimated (`Regex.compile?`).
-/

namespace ScriptHost.Regex

open ScriptHost.Text ScriptHost.Unicode

/-- The depth to which an expression may be nested. -/
def depthLimit : Nat := 250

/-! ### Characters -/

/-- Drops white space and comments if they do not count. -/
private def skip (spaced : Bool) (cs : List Char) : List Char :=
  let rec go : Nat → List Char → List Char
    | 0, cs => cs
    | fuel + 1, cs =>
      match cs with
      | '#' :: rest => go fuel ((rest.dropWhile (· ≠ '\n')).drop 1)
      | c :: rest => if isBlank c then go fuel rest else cs
      | [] => []
  if spaced then go cs.length cs else cs

/-- The character after the next one, past white space that does not count. -/
private def peekPast (spaced : Bool) (cs : List Char) : Option Char :=
  let rec go (all : List Char) (comment : Bool) : List Char → Option Char
    | [] => all.head?
    | c :: rest =>
      if isBlank c then go all comment rest
      else if c = '#' ∧ !comment then go all true rest
      else some c
  let rest := cs.drop 1
  if spaced then go rest false rest else rest.head?

/-- The characters that have a meaning of their own. -/
private def isMeta (c : Char) : Bool := "\\.+*?()|[]\x7b\x7d^$#&-~".toList.contains c

/-- Whether a backslash before a character makes it stand for itself. -/
private def isEscapable (c : Char) : Bool :=
  isMeta c || (c.toNat < 128 && !c.isAlphanum && c ≠ '<' && c ≠ '>')

/-! ### Escapes -/

/-- What is written by a single character or after a backslash. -/
private inductive Atom where
  | literal (l : Literal)
  | anchor (a : Anchor)
  | shorthand (kind : Shorthand) (negated : Bool)
  | property (query : PropertyQuery) (negated : Bool)

/-- The character with the code that digits write. -/
private def hexChar? (isByte : Bool) (digits : List Char) : Option Literal :=
  if digits.isEmpty ∨ digits.length > 64 then none else (charOf? (numberOf 16 digits)).map (⟨·, isByte⟩)

/-- Exactly `count` digits, with what may stand between them skipped. -/
private def hexDigits? (spaced : Bool) (done : List Char) : Nat → List Char → Option (List Char × List Char)
  | 0, cs => some (done.reverse, cs)
  | count + 1, cs =>
    match cs with
    | c :: rest => if isDigitOf 16 c then hexDigits? spaced (c :: done) count (skip spaced rest) else none
    | [] => none

/-- The characters up to a closing brace, without what does not count. -/
private def braced? (spaced : Bool) (done : List Char) : Nat → List Char → Option (List Char × List Char)
  | 0, _ => none
  | fuel + 1, cs =>
    match skip spaced cs with
    | '}' :: rest => some (done.reverse, rest)
    | c :: rest => braced? spaced (c :: done) fuel rest
    | [] => none

/-- A character by its code, after `\x`, `\u` or `\U`. -/
private def hex? (spaced : Bool) (width : Nat) (cs : List Char) : Option (Atom × List Char) :=
  match skip spaced cs with
  | '{' :: rest => do
    let (digits, rest) ← braced? spaced [] (rest.length + 1) rest
    guard (digits.all (isDigitOf 16))
    let zeros := digits.dropWhile (· = '0')
    return (.literal (← hexChar? false (if zeros.isEmpty then digits.take 1 else zeros)), skip spaced rest)
  | rest => do
    let (digits, rest) ← hexDigits? spaced [] width rest
    return (.literal (← hexChar? (width = 2) digits), rest)

/-- The parts of a list before and after the first occurrence of another list. -/
private def splitOnce (sep : List Char) : List Char → Option (List Char × List Char)
  | [] => none
  | c :: rest =>
    match sep.isPrefixOf? (c :: rest) with
    | some after => some ([], after)
    | none => (splitOnce sep rest).map fun (before, after) => (c :: before, after)

/-- A property, after `\p` or `\P`. -/
private def property? (spaced negated : Bool) (cs : List Char) : Option (Atom × List Char) :=
  match skip spaced cs with
  | '{' :: rest => do
    let (name, rest) ← braced? spaced [] (rest.length + 1) rest
    match splitOnce ['!', '='] name with
    | some (p, v) => return (.property (.value p v) !negated, rest)
    | none =>
      match (splitOnce [':'] name).orElse fun _ => splitOnce ['='] name with
      | some (p, v) => return (.property (.value p v) negated, rest)
      | none => return (.property (.name name) negated, rest)
  | c :: rest => if c = '\\' then none else some (.property (.name [c]) negated, skip spaced rest)
  | [] => none

/-- The letters of a name in braces, which may stand after `\b`. -/
private def anchorName (spaced : Bool) (done : List Char) : Nat → List Char → List Char × List Char
  | 0, cs => (done.reverse, cs)
  | fuel + 1, cs =>
    match cs with
    | c :: rest =>
      if c.isAlpha || c = '-' then anchorName spaced (c :: done) fuel (skip spaced rest) else (done.reverse, cs)
    | [] => (done.reverse, cs)

/-- The place between characters that `\b` stands for. -/
private def boundary? (spaced : Bool) (cs : List Char) : Option (Atom × List Char) :=
  match cs with
  | '{' :: rest =>
    match skip spaced rest with
    | [] => none
    | c :: more =>
      if !(c.isAlpha || c = '-') then some (.anchor .wordBoundary, cs)
      else
        let (name, rest) := anchorName spaced [] (more.length + 2) (c :: more)
        match String.ofList name, rest with
        | "start", '}' :: rest => some (.anchor .wordStart, rest)
        | "end", '}' :: rest => some (.anchor .wordEnd, rest)
        | "start-half", '}' :: rest => some (.anchor .wordStartHalf, rest)
        | "end-half", '}' :: rest => some (.anchor .wordEndHalf, rest)
        | _, _ => none
  | _ => some (.anchor .wordBoundary, cs)

/-- What is written after a backslash. -/
private def escape? (spaced : Bool) : List Char → Option (Atom × List Char)
  | [] => none
  | c :: rest =>
    let literal (n : Nat) : Option (Atom × List Char) := some (.literal ⟨Char.ofNat n, false⟩, rest)
    match c with
    | 'x' => hex? spaced 2 rest
    | 'u' => hex? spaced 4 rest
    | 'U' => hex? spaced 8 rest
    | 'p' => property? spaced false rest
    | 'P' => property? spaced true rest
    | 'd' => some (.shorthand .digit false, rest)
    | 'D' => some (.shorthand .digit true, rest)
    | 's' => some (.shorthand .space false, rest)
    | 'S' => some (.shorthand .space true, rest)
    | 'w' => some (.shorthand .word false, rest)
    | 'W' => some (.shorthand .word true, rest)
    | 'a' => literal 7
    | 'f' => literal 12
    | 't' => literal 9
    | 'n' => literal 10
    | 'r' => literal 13
    | 'v' => literal 11
    | 'A' => some (.anchor .textStart, rest)
    | 'z' => some (.anchor .textEnd, rest)
    | 'b' => boundary? spaced rest
    | 'B' => some (.anchor .noWordBoundary, rest)
    | '<' => some (.anchor .wordStart, rest)
    | '>' => some (.anchor .wordEnd, rest)
    | _ => if isEscapable c then some (.literal ⟨c, false⟩, rest) else none

/-! ### Classes -/

/-- The ASCII classes by name. -/
def asciiClasses : List (String × CharSet) := [
  ("alnum", [(48, 57), (65, 90), (97, 122)]), ("alpha", [(65, 90), (97, 122)]), ("ascii", [(0, 127)]),
  ("blank", [(9, 9), (32, 32)]), ("cntrl", [(0, 31), (127, 127)]), ("digit", [(48, 57)]), ("graph", [(33, 126)]),
  ("lower", [(97, 122)]), ("print", [(32, 126)]), ("punct", [(33, 47), (58, 64), (91, 96), (123, 126)]),
  ("space", [(9, 13), (32, 32)]), ("upper", [(65, 90)]), ("word", [(48, 57), (65, 90), (95, 95), (97, 122)]),
  ("xdigit", [(48, 57), (65, 70), (97, 102)])]

/-- An ASCII class with a name, after its opening bracket. -/
private def asciiClass? (cs : List Char) : Option (ClassItem × List Char) := do
  let (negated, rest) ← match cs with
    | ':' :: '^' :: rest => some (true, rest)
    | ':' :: rest => some (false, rest)
    | _ => none
  let name := String.ofList (rest.takeWhile (· ≠ ':'))
  match rest.dropWhile (· ≠ ':') with
  | ':' :: ']' :: rest => if (asciiClasses.lookup name).isSome then some (.named name negated, rest) else none
  | _ => none

/-- What a class is waiting for while its parts are read. -/
private inductive ClassFrame where
  /-- The closing bracket, with the reversed parts that stand before the class. -/
  | bracket (before : List ClassItem) (negated : Bool)
  /-- The right side of an operation. -/
  | operation (op : SetOp) (left : ClassSet)

private def applyOperation (right : ClassSet) : List ClassFrame → ClassSet × List ClassFrame
  | .operation op left :: frames => (.join op left right, frames)
  | frames => (right, frames)

/-- Reads the characters that stand for themselves after an opening bracket, and whether the class is negated. -/
private def openClass? (spaced : Bool) (cs : List Char) : Option (Bool × List ClassItem × List Char) := do
  let (negated, rest) := match skip spaced cs with
    | '^' :: rest => (true, skip spaced rest)
    | rest => (false, rest)
  let literal (c : Char) : ClassItem := .range ⟨c, false⟩ ⟨c, false⟩
  let rec hyphens : Nat → List ClassItem → List Char → List ClassItem × List Char
    | 0, done, cs => (done, cs)
    | fuel + 1, done, cs =>
      match cs with
      | '-' :: rest => hyphens fuel (literal '-' :: done) (skip spaced rest)
      | _ => (done, cs)
  let (items, rest) := hyphens rest.length [] rest
  match items, rest with
  | [], ']' :: rest => if (skip spaced rest).isEmpty then none else some (negated, [literal ']'], skip spaced rest)
  | _, [] => none
  | items, rest => some (negated, items, rest)

private def classAtom? (spaced : Bool) : List Char → Option (Atom × List Char)
  | '\\' :: rest => escape? spaced rest
  | c :: rest => some (.literal ⟨c, false⟩, rest)
  | [] => none

/-- A character, a range of characters or a class with a letter or name. -/
private def classRange? (spaced : Bool) (cs : List Char) : Option (ClassItem × List Char) := do
  let (first, rest) ← classAtom? spaced cs
  let rest := skip spaced rest
  let single : Option ClassItem := match first with
    | .literal l => some (.range l l)
    | .shorthand kind negated => some (.shorthand kind negated)
    | .property query negated => some (.property query negated)
    | .anchor _ => none
  guard !rest.isEmpty
  let next := peekPast spaced rest
  if rest.head? ≠ some '-' ∨ next = some ']' ∨ next = some '-' then return (← single, rest)
  else
    let (last, rest) ← classAtom? spaced (skip spaced (rest.drop 1))
    match first, last with
    | .literal a, .literal b => if a.char ≤ b.char then some (.range a b, rest) else none
    | _, _ => none

/-- Reads a class, after the parts `items` of the class that is innermost. -/
private def class? (spaced : Bool) : Nat → List ClassFrame → List ClassItem → List Char → Option (Tree × List Char)
  | 0, _, _, _ => none
  | fuel + 1, frames, items, cs =>
    let operation (op : SetOp) (rest : List Char) : Option (Tree × List Char) :=
      let (left, frames) := applyOperation (.union items.reverse) frames
      class? spaced fuel (.operation op left :: frames) [] rest
    match skip spaced cs with
    | [] => none
    | '[' :: rest =>
      match asciiClass? rest with
      | some (item, rest) => class? spaced fuel frames (item :: items) rest
      | none => do
        let (negated, inner, rest) ← openClass? spaced rest
        class? spaced fuel (.bracket items negated :: frames) inner rest
    | ']' :: rest =>
      let (set, frames) := applyOperation (.union items.reverse) frames
      match frames with
      | [.bracket _ negated] => some (.bracket negated set, rest)
      | .bracket before negated :: frames => class? spaced fuel frames (.bracket negated set :: before) rest
      | _ => none
    | '&' :: '&' :: rest => operation .intersection rest
    | '-' :: '-' :: rest => operation .difference rest
    | '~' :: '~' :: rest => operation .symmetricDifference rest
    | rest => do
      let (item, rest) ← classRange? spaced rest
      class? spaced fuel frames (item :: items) rest

/-! ### Repetitions -/

/-- A decimal number of 32 bits, in which and around which white space does not count. -/
private def decimal? (spaced : Bool) (cs : List Char) : Option (Option Nat × List Char) :=
  let rec digits : Nat → List Char → List Char → List Char × List Char
    | 0, done, cs => (done.reverse, cs)
    | fuel + 1, done, cs =>
      match cs with
      | c :: rest => if isDecimal c then digits fuel (c :: done) (skip spaced rest) else (done.reverse, cs)
      | [] => (done.reverse, [])
  let (ds, rest) := digits cs.length [] (cs.dropWhile isBlank)
  let n := numberOf 10 ds
  if ds.isEmpty then some (none, rest.dropWhile isBlank)
  else if n < Nat.pow 2 32 then some (some n, skip spaced (rest.dropWhile isBlank))
  else none

/-- The bounds of a repetition, after their opening brace. -/
private def bounds? (spaced : Bool) (cs : List Char) : Option (Nat × Option Nat × List Char) := do
  let (low, rest) ← decimal? spaced (skip spaced cs)
  let low ← low
  match rest with
  | '}' :: rest => return (low, some low, rest)
  | ',' :: rest =>
    match skip spaced rest with
    | '}' :: rest => return (low, none, rest)
    | rest =>
      let (high, rest) ← decimal? spaced rest
      let high ← high
      match rest with
      | '}' :: rest => if low ≤ high then some (low, some high, rest) else none
      | _ => none
  | _ => none

/-! ### Groups -/

private def flag? : Char → Option Flag
  | 'i' => some .caseless
  | 'm' => some .multiline
  | 's' => some .dotAll
  | 'U' => some .swapGreed
  | 'u' => some .unicode
  | 'R' => some .crlf
  | 'x' => some .spaced
  | _ => none

/-- The flags after `(?`, up to the colon or parenthesis that ends them. -/
private def flags? (value : Bool) (last : Bool) (done : FlagChanges) :
    List Char → Option (FlagChanges × Char × List Char)
  | [] => none
  | c :: rest =>
    if c = ':' ∨ c = ')' then if last then none else some (done.reverse, c, rest)
    else if c = '-' then if value then flags? false true done rest else none
    else do
      let f ← flag? c
      if done.any (·.1 = f) then none else flags? value false ((f, value) :: done) rest

/-- Whether a character may stand in the name of a group. -/
private def isNameChar (first : Bool) (c : Char) : Bool :=
  if first then c = '_' || letters.contains c
  else c = '_' || c = '.' || c = '[' || c = ']' || alphanumerics.contains c

/-- The name of a group, up to the bracket that closes it. -/
private def groupName? (cs : List Char) : Option (String × List Char) :=
  let name := cs.takeWhile (· ≠ '>')
  match name, cs.dropWhile (· ≠ '>') with
  | first :: more, _ :: rest =>
    if isNameChar true first && more.all (isNameChar false) then some (String.ofList name, rest) else none
  | _, _ => none

/-- What stands before a group that is open, and what holds when it is closed. -/
private structure Level where
  /-- The alternatives before the current one, reversed. -/
  alternatives : List Tree
  /-- The parts of the current alternative, reversed. -/
  parts : List Tree
  /-- The flags of the group inside. -/
  changes : FlagChanges
  /-- Whether white space counts outside the group inside. -/
  spaced : Bool

/-- A regular expression while it is read. -/
private structure State where
  levels : List Level
  alternatives : List Tree
  parts : List Tree
  spaced : Bool
  names : List String

private def sequence (parts : List Tree) : Tree :=
  match parts with
  | [] => .empty
  | [t] => t
  | parts => .seq parts.reverse

/-- All alternatives of the innermost group. -/
private def State.whole (s : State) : Tree :=
  match s.alternatives with
  | [] => sequence s.parts
  | alternatives => .alt (sequence s.parts :: alternatives).reverse

private def State.add (s : State) (t : Tree) : State := { s with parts := t :: s.parts }

/-- Repeats the last part, which must be there and match something of its own. -/
private def State.repeatLast? (s : State) (low : Nat) (high : Option Nat) : Option State :=
  match s.parts with
  | [] => none
  | .empty :: _ => none
  | .flags _ :: _ => none
  | t :: parts => some { s with parts := .repeated low high t :: parts }

private def spacedAfter (changes : FlagChanges) (spaced : Bool) : Bool := (changes.lookup .spaced).getD spaced

/-- Opens a group, or sets flags, after a parenthesis. -/
private def open? (s : State) (cs : List Char) : Option (State × List Char) :=
  let group (changes : FlagChanges) : State :=
    { s with levels := ⟨s.alternatives, s.parts, changes, s.spaced⟩ :: s.levels, alternatives := [], parts := [],
             spaced := spacedAfter changes s.spaced }
  let named (rest : List Char) : Option (State × List Char) := do
    let (name, rest) ← groupName? rest
    guard !s.names.contains name
    return ({ group [] with names := name :: s.names }, rest)
  match skip s.spaced cs with
  | '?' :: '=' :: _ => none
  | '?' :: '!' :: _ => none
  | '?' :: '<' :: '=' :: _ => none
  | '?' :: '<' :: '!' :: _ => none
  | '?' :: 'P' :: '<' :: rest => named rest
  | '?' :: '<' :: rest => named rest
  | '?' :: rest => do
    let (changes, terminator, rest) ← flags? true false [] rest
    if terminator = ':' then return (group changes, rest)
    else if changes.isEmpty then none
    else return ({ s.add (.flags changes) with spaced := spacedAfter changes s.spaced }, rest)
  | rest => some (group [], rest)

/-- Closes the innermost group. -/
private def close? (s : State) : Option State :=
  match s.levels with
  | [] => none
  | level :: levels =>
    some { s with levels, alternatives := level.alternatives, parts := .group level.changes s.whole :: level.parts,
                  spaced := level.spaced }

/-- Drops the mark that reverses the greed of a repetition. -/
private def dropMark : List Char → List Char
  | '?' :: rest => rest
  | rest => rest

/-- Reads the next part of an expression. -/
private def step? (s : State) (c : Char) (rest : List Char) : Option (State × List Char) :=
  match c with
  | '(' => open? s rest
  | ')' => (close? s).map (·, rest)
  | '|' => some ({ s with alternatives := sequence s.parts :: s.alternatives, parts := [] }, rest)
  | '[' => do
    let (negated, items, rest) ← openClass? s.spaced rest
    let (t, rest) ← class? s.spaced (rest.length + 1) [.bracket [] negated] items rest
    return (s.add t, rest)
  | '?' => do return (← s.repeatLast? 0 (some 1), dropMark rest)
  | '*' => do return (← s.repeatLast? 0 none, dropMark rest)
  | '+' => do return (← s.repeatLast? 1 none, dropMark rest)
  | '{' => do
    let (low, high, rest) ← bounds? s.spaced rest
    return (← s.repeatLast? low high, dropMark (skip s.spaced rest))
  | '\\' => do
    let (atom, rest) ← escape? s.spaced rest
    let t : Tree := match atom with
      | .literal l => .literal l
      | .anchor a => .anchor a
      | .shorthand kind negated => .shorthand kind negated
      | .property query negated => .property query negated
    return (s.add t, rest)
  | '.' => some (s.add .dot, rest)
  | '^' => some (s.add (.anchor .lineStart), rest)
  | '$' => some (s.add (.anchor .lineEnd), rest)
  | _ => some (s.add (.literal ⟨c, false⟩), rest)

/-- Reads part after part. -/
private def run? : Nat → State → List Char → Option State
  | 0, _, _ => none
  | fuel + 1, s, cs =>
    match skip s.spaced cs with
    | [] => some s
    | c :: rest => do
      let (s, rest) ← step? s c rest
      run? fuel s rest

/-- The tree of a regular expression. -/
def parse? (pattern : String) : Option Tree := do
  let cs := pattern.toList
  let s ← run? (cs.length + 1) ⟨[], [], [], false, []⟩ cs
  guard s.levels.isEmpty
  let t := s.whole
  guard (t.depth ≤ depthLimit)
  return t

end ScriptHost.Regex
