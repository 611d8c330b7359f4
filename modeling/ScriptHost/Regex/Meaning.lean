import ScriptHost.Pattern.Automaton
import ScriptHost.Regex.Reader

/-!
# What regular expressions match

A tree is made into a pattern over characters, read with the flags that hold at its place.  Without the flag `u` only
ASCII characters may be meant by classes.  A pattern whose machine would be too large is refused before it is built.
Its size is estimated for this and not measured, so for a pattern whose machine comes close to the limit of the regex
library, that may decide otherwise.
-/

namespace ScriptHost.Regex

open ScriptHost.Pattern ScriptHost.Unicode

/-- The flags that hold at a place. -/
structure Flags where
  caseless : Bool
  multiline : Bool
  dotAll : Bool
  unicode : Bool
  crlf : Bool

namespace Flags

/-- The flags that hold where none have been set. -/
def standard : Flags := ⟨false, false, false, true, false⟩

/-- Sets one flag. -/
def set (f : Flags) : Flag × Bool → Flags
  | (.caseless, b) => { f with caseless := b }
  | (.multiline, b) => { f with multiline := b }
  | (.dotAll, b) => { f with dotAll := b }
  | (.unicode, b) => { f with unicode := b }
  | (.crlf, b) => { f with crlf := b }
  | (.swapGreed, _) => f
  | (.spaced, _) => f

/-- Sets several flags. -/
def setAll (f : Flags) (changes : FlagChanges) : Flags := changes.foldl set f

end Flags

/-! ### Sets of characters -/

private def asciiDigits : CharSet := [(48, 57)]
private def asciiBlanks : CharSet := [(9, 13), (32, 32)]
private def asciiWord : CharSet := [(48, 57), (65, 90), (95, 95), (97, 122)]

/-- A set of ASCII letters in either case, if it holds any. -/
private def foldAscii (s : CharSet) : CharSet :=
  let shift (lo hi : Nat) (up : Bool) : CharSet :=
    (s.inter [(lo, hi)]).map fun (a, b) => if up then (a + 32, b + 32) else (a - 32, b - 32)
  s.union (shift 65 90 true ++ shift 97 122 false)

/-- A set as it is meant under the flags. -/
private def folded (f : Flags) (s : CharSet) : CharSet :=
  if f.caseless then if f.unicode then foldCase s else foldAscii s else s

/-- A set or the characters that it lacks.  Without Unicode these would be bytes, which must be ASCII. -/
private def negated? (f : Flags) (negated : Bool) (s : CharSet) : Option CharSet :=
  if f.unicode then some (if negated then s.complement else s)
  else
    let s := if negated then s.complement.inter [(0, 255)] else s
    if s.isAscii then some s else none

/-- The code of a character in a class. -/
private def code? (f : Flags) (l : Literal) : Option Nat :=
  if f.unicode ∨ l.char.toNat < 128 ∨ (l.isByte ∧ l.char.toNat < 256) then some l.char.toNat else none

private def shorthand? (f : Flags) (kind : Shorthand) (negated : Bool) : Option CharSet :=
  negated? f negated <|
    match kind, f.unicode with
    | .digit, true => digits
    | .space, true => blanks
    | .word, true => wordChars
    | .digit, false => asciiDigits
    | .space, false => asciiBlanks
    | .word, false => asciiWord

private def propertySet? (f : Flags) (query : PropertyQuery) (negated : Bool) : Option CharSet := do
  guard f.unicode
  let s ← match query with
    | .name n => Unicode.property? n
    | .value p v => propertyValue? p v
  negated? f negated (folded f s)

mutual

/-- The characters in a part of a class. -/
private def itemSet? (f : Flags) : ClassItem → Option CharSet
  | .range a b => do return [(← code? f a, ← code? f b)]
  | .shorthand kind negated => shorthand? f kind negated
  | .named name negated => negated? f negated (folded f ((asciiClasses.lookup name).getD []))
  | .property query negated => propertySet? f query negated
  | .bracket negated set => do negated? f negated (folded f (← setOf? f set))

/-- The characters in a class, before it is negated. -/
private def setOf? (f : Flags) : ClassSet → Option CharSet
  | .union items => itemsSet? f items
  | .join op a b => do
    let a := folded f (← setOf? f a)
    let b := folded f (← setOf? f b)
    return match op with
      | .intersection => a.inter b
      | .difference => a.difference b
      | .symmetricDifference => a.symmetricDifference b

/-- The characters in any part of a class. -/
private def itemsSet? (f : Flags) : List ClassItem → Option CharSet
  | [] => some []
  | i :: rest => do return (← itemSet? f i).union (← itemsSet? f rest)

end

/-! ### Patterns -/

/-- A pattern, with the size of its machine in bytes. -/
structure Sized where
  expr : Expr Char
  size : Nat

/-- The size which a machine must not exceed. -/
def sizeLimit : Nat := 10 * Nat.pow 2 20

/-- The size of one place of a machine. -/
private def placeSize : Nat := 32

private def setPattern (s : CharSet) : Sized :=
  ⟨.item s.contains, if s.isAscii then placeSize + 8 * s.length else 70 * s.length⟩

private def look (p : Option Char → Option Char → Bool) : Sized := ⟨.look p, placeSize⟩

/-- What a place between characters asks of them. -/
private def anchorPattern (f : Flags) (a : Anchor) : Sized :=
  let word : Option Char → Bool := fun c => c.any (if f.unicode then wordChars else asciiWord).contains
  let is (d : Char) : Option Char → Bool := fun c => c == some d
  match a with
  | .textStart => look fun before _ => before.isNone
  | .textEnd => look fun _ after => after.isNone
  | .lineStart =>
    if !f.multiline then look fun before _ => before.isNone
    else if f.crlf then
      look fun before after => before.isNone || is '\n' before || (is '\r' before && !is '\n' after)
    else look fun before _ => before.isNone || is '\n' before
  | .lineEnd =>
    if !f.multiline then look fun _ after => after.isNone
    else if f.crlf then look fun before after => after.isNone || is '\r' after || (is '\n' after && !is '\r' before)
    else look fun _ after => after.isNone || is '\n' after
  | .wordBoundary => look fun before after => word before != word after
  | .noWordBoundary => look fun before after => word before == word after
  | .wordStart => look fun before after => !word before && word after
  | .wordEnd => look fun before after => word before && !word after
  | .wordStartHalf => look fun before _ => !word before
  | .wordEndHalf => look fun _ after => !word after

/-- Any character but the ends of lines, unless these are meant too. -/
private def dotSet? (f : Flags) : Option CharSet :=
  if !f.unicode then none
  else if f.dotAll then some [(0, CharSet.lastCode)]
  else if f.crlf then some (CharSet.complement [(10, 10), (13, 13)])
  else some (CharSet.complement [(10, 10)])

private def literalPattern? (f : Flags) (l : Literal) : Option Sized :=
  let n := l.char.toNat
  if !f.unicode ∧ l.isByte ∧ n ≥ 128 then none
  else
    let s : CharSet := folded f [(n, n)]
    if s.length = 1 ∧ s.all (fun r => r.1 = r.2) then some ⟨.item (· == l.char), placeSize * l.char.utf8Size⟩
    else some (setPattern s)

/-- Whether a pattern matches nothing but the empty text. -/
private def isEmptyOnly : Expr Char → Bool
  | .empty => true
  | .nothing => false
  | .item _ => false
  | .look _ => true
  | .seq a b => isEmptyOnly a && isEmptyOnly b
  | .alt a b => isEmptyOnly a && isEmptyOnly b
  | .star a => isEmptyOnly a

/-- Repeats a pattern, unless the machine would be too large. -/
private def repeat? (s : Sized) (low : Nat) (high : Option Nat) : Option Sized :=
  let emptyOnly := isEmptyOnly s.expr
  let low := if emptyOnly then min low 1 else low
  let high := if emptyOnly then some (min (high.getD 1) 1) else high
  let size := match high with
    | none => max low 1 * s.size + placeSize + 8
    | some high => low * s.size + (high - low) * (s.size + placeSize + 8)
  if size ≤ sizeLimit ∧ low + high.getD 0 ≤ sizeLimit then some ⟨.repeated s.expr low high, size⟩ else none

mutual

/-- The pattern of a tree, and the flags that hold behind it. -/
private def pattern? (f : Flags) : Tree → Option (Sized × Flags)
  | .empty => some (⟨.empty, 0⟩, f)
  | .flags changes => some (⟨.empty, 0⟩, f.setAll changes)
  | .literal l => (literalPattern? f l).map (·, f)
  | .dot => (dotSet? f).map (setPattern ·, f)
  | .anchor a => some (anchorPattern f a, f)
  | .shorthand kind negated => (shorthand? f kind negated).map (setPattern ·, f)
  | .property query negated => (propertySet? f query negated).map (setPattern ·, f)
  | .bracket negated set => do return (setPattern (← negated? f negated (folded f (← setOf? f set))), f)
  | .repeated low high t => do
    let (s, f) ← pattern? f t
    return (← repeat? s low high, f)
  | .group changes t => do
    let (s, _) ← pattern? (f.setAll changes) t
    return (⟨s.expr, s.size + 2 * placeSize⟩, f)
  | .seq ts => do
    let (ss, f) ← patterns? f ts
    return (⟨.seqs (ss.map (·.expr)), (ss.map (·.size)).sum⟩, f)
  | .alt ts => do
    let (ss, f) ← patterns? f ts
    return (⟨.alts (ss.map (·.expr)), (ss.map (·.size + 8)).sum + placeSize⟩, f)

/-- The patterns of trees that stand one after the other. -/
private def patterns? (f : Flags) : List Tree → Option (List Sized × Flags)
  | [] => some ([], f)
  | t :: rest => do
    let (s, f) ← pattern? f t
    let (ss, f) ← patterns? f rest
    return (s :: ss, f)

end

/-- The machine of a regular expression. -/
def compile? (pattern : String) : Option (Program Char) := do
  let (s, _) ← pattern? .standard (← parse? pattern)
  guard (s.size ≤ sizeLimit)
  return s.expr.program

end ScriptHost.Regex
