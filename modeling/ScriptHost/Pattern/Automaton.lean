/-!
# Matching patterns

A pattern over items of any kind, such as characters or bytes, is made into a program of a machine that reads the
items one after the other and keeps the set of all places in the program at which it may be.  The machine needs a
number of steps that is bounded by the product of the sizes of the program and the text, whatever the pattern.
-/

namespace ScriptHost.Pattern

/-- A pattern over items of the type `α`. -/
inductive Expr (α : Type) where
  /-- The empty text. -/
  | empty
  /-- Nothing at all. -/
  | nothing
  /-- One item of a set. -/
  | item (p : α → Bool)
  /-- The empty text, between items of which `p` holds; there is none at the ends of the text. -/
  | look (p : Option α → Option α → Bool)
  | seq (a b : Expr α)
  | alt (a b : Expr α)
  | star (a : Expr α)

namespace Expr

variable {α : Type}

/-- One pattern after the other. -/
def seqs : List (Expr α) → Expr α
  | [] => empty
  | [a] => a
  | a :: rest => seq a (seqs rest)

/-- Any of several patterns. -/
def alts : List (Expr α) → Expr α
  | [] => nothing
  | [a] => a
  | a :: rest => alt a (alts rest)

/-- A pattern, followed by another one `n` times. -/
def followed (before a : Expr α) : Nat → Expr α
  | 0 => before
  | n + 1 => followed (seq before a) a n

/-- A pattern `n` times. -/
def times (a : Expr α) : Nat → Expr α
  | 0 => empty
  | n + 1 => followed a a n

/-- A pattern at most `n` times. -/
def upTo (a : Expr α) : Nat → Expr α
  | 0 => empty
  | n + 1 => alt (seq a (upTo a n)) empty

/-- A pattern at least `low` times, and at most `high` times if that is given. -/
def repeated (a : Expr α) (low : Nat) (high : Option Nat) : Expr α :=
  match high with
  | none => seq (times a low) (star a)
  | some high => if low = high then times a low else seq (times a low) (upTo a (high - low))

end Expr

/-! ### Programs -/

/-- A step of the machine, with the places at which it goes on. -/
inductive Instr (α : Type) where
  | accept
  | read (p : α → Bool) (next : Nat)
  | look (p : Option α → Option α → Bool) (next : Nat)
  | split (next other : Nat)
  /-- There is no way on. -/
  | stuck

/-- The steps of the machine. -/
abbrev Code (α : Type) := Array (Instr α)

/-- Adds the program of a pattern that goes on at `next`; the answer is where it starts. -/
def Expr.compile {α : Type} : Expr α → Nat → Code α → Nat × Code α
  | .empty, next, code => (next, code)
  | .nothing, _, code => (code.size, code.push .stuck)
  | .item p, next, code => (code.size, code.push (.read p next))
  | .look p, next, code => (code.size, code.push (.look p next))
  | .seq a b, next, code =>
    let (next, code) := b.compile next code
    a.compile next code
  | .alt a b, next, code =>
    let (first, code) := a.compile next code
    let (second, code) := b.compile next code
    (code.size, code.push (.split first second))
  | .star a, next, code =>
    let here := code.size
    let (first, code) := a.compile here (code.push .stuck)
    (here, code.setIfInBounds here (.split first next))

/-- A program with the place at which it starts. -/
structure Program (α : Type) where
  code : Code α
  start : Nat

/-- The program of a pattern. -/
def Expr.program {α : Type} (e : Expr α) : Program α :=
  let (start, code) := e.compile 0 #[.accept]
  ⟨code, start⟩

/-! ### Runs -/

namespace Program

variable {α : Type}

/-- The places that can be reached without reading. -/
structure Reach where
  /-- Which places have been reached. -/
  seen : Array Bool
  /-- The places from which the machine goes on by reading. -/
  waiting : List Nat
  accepted : Bool

/-- Follows all ways that lead on without reading, from the places `todo`. -/
def reach (code : Code α) (before after : Option α) : Nat → List Nat → Reach → Reach
  | 0, _, r => r
  | _ + 1, [], r => r
  | fuel + 1, place :: todo, r =>
    if r.seen.getD place true then reach code before after fuel todo r
    else
      let r := { r with seen := r.seen.setIfInBounds place true }
      match code[place]? with
      | some .accept => reach code before after fuel todo { r with accepted := true }
      | some (.read _ _) => reach code before after fuel todo { r with waiting := place :: r.waiting }
      | some (.look p next) =>
        reach code before after fuel (if p before after then next :: todo else todo) r
      | some (.split next other) => reach code before after fuel (next :: other :: todo) r
      | _ => reach code before after fuel todo r

/-- What is reached from a set of places between two items. -/
def reachFrom (code : Code α) (before after : Option α) (places : List Nat) : Reach :=
  reach code before after (places.length + 2 * code.size + 1) places ⟨Array.replicate code.size false, [], false⟩

/-- The places after an item has been read. -/
def advance (code : Code α) (x : α) (waiting : List Nat) : List Nat :=
  waiting.filterMap fun place =>
    match code[place]? with
    | some (Instr.read p next) => if p x then some next else none
    | _ => none

/-- Whether a run from the places, or one that starts later, ends in acceptance. -/
def searchFrom (p : Program α) (before : Option α) (places : List Nat) : List α → Bool
  | [] => (reachFrom p.code before none (p.start :: places)).accepted
  | x :: rest =>
    let r := reachFrom p.code before (some x) (p.start :: places)
    r.accepted || searchFrom p (some x) (advance p.code x r.waiting) rest

/-- Whether some part of a text matches. -/
def matchesPart (p : Program α) (text : List α) : Bool := searchFrom p none [] text

/-- Whether a run from the places accepts at the end of the text. -/
def runFrom (p : Program α) (before : Option α) (places : List Nat) : List α → Bool
  | [] => (reachFrom p.code before none places).accepted
  | x :: rest =>
    let r := reachFrom p.code before (some x) places
    runFrom p (some x) (advance p.code x r.waiting) rest

/-- Whether a text matches as a whole. -/
def matchesAll (p : Program α) (text : List α) : Bool := runFrom p none [p.start] text

end Program

end ScriptHost.Pattern
