import ScriptHost.Unicode.Property

/-!
# Regular expressions as trees

What a regular expression consists of.  Flags are part of the tree, because what they mean depends on where they stand.
-/

namespace ScriptHost.Regex

/-- What can be switched on and off. -/
inductive Flag where
  /-- `i`: case does not count. -/
  | caseless
  /-- `m`: `^` and `$` match at the ends of lines too. -/
  | multiline
  /-- `s`: `.` matches the ends of lines too. -/
  | dotAll
  /-- `U`: repetitions take as little as they can, unless they are marked. -/
  | swapGreed
  /-- `u`: characters are those of Unicode. -/
  | unicode
  /-- `R`: a carriage return ends lines too. -/
  | crlf
  /-- `x`: white space and comments do not count. -/
  | spaced
  deriving DecidableEq

/-- Flags with what becomes of them. -/
abbrev FlagChanges := List (Flag × Bool)

/-- Places between characters. -/
inductive Anchor where
  | lineStart | lineEnd | textStart | textEnd
  | wordBoundary | noWordBoundary | wordStart | wordEnd | wordStartHalf | wordEndHalf
  deriving DecidableEq

/-- The classes of characters that have a letter. -/
inductive Shorthand where
  | digit | space | word
  deriving DecidableEq

/-- A character that is written out. -/
structure Literal where
  char : Char
  /-- Whether it is written as a byte, with two digits. -/
  isByte : Bool
  deriving DecidableEq

/-- How a property is named. -/
inductive PropertyQuery where
  | name (n : List Char)
  | value (property value : List Char)
  deriving DecidableEq

/-- How the parts of a class are joined. -/
inductive SetOp where
  | intersection | difference | symmetricDifference
  deriving DecidableEq

mutual

/-- A part of a class of characters. -/
inductive ClassItem where
  | range (first last : Literal)
  | shorthand (kind : Shorthand) (negated : Bool)
  /-- A class of ASCII characters with a name. -/
  | named (name : String) (negated : Bool)
  | property (query : PropertyQuery) (negated : Bool)
  | bracket (negated : Bool) (set : ClassSet)

/-- What a class of characters consists of. -/
inductive ClassSet where
  | union (items : List ClassItem)
  | join (op : SetOp) (left right : ClassSet)

end

/-- A regular expression. -/
inductive Tree where
  | empty
  | flags (changes : FlagChanges)
  | literal (l : Literal)
  | dot
  | anchor (a : Anchor)
  | shorthand (kind : Shorthand) (negated : Bool)
  | property (query : PropertyQuery) (negated : Bool)
  | bracket (negated : Bool) (set : ClassSet)
  | repeated (low : Nat) (high : Option Nat) (t : Tree)
  | group (changes : FlagChanges) (t : Tree)
  | seq (ts : List Tree)
  | alt (ts : List Tree)

/-! ### Depth -/

mutual

/-- How deep the brackets in a part of a class are nested. -/
def ClassItem.depth : ClassItem → Nat
  | .bracket _ set => set.depth + 1
  | _ => 0

/-- How deep the brackets in a class are nested, where several parts count as a level. -/
def ClassSet.depth : ClassSet → Nat
  | .union items => if items.length ≤ 1 then depthOfItems items else depthOfItems items + 1
  | .join _ a b => max a.depth b.depth + 1

/-- How deep the brackets in the parts of a class are nested. -/
def depthOfItems : List ClassItem → Nat
  | [] => 0
  | i :: rest => max i.depth (depthOfItems rest)

end

mutual

/-- How deep the parts of a regular expression are nested. -/
def Tree.depth : Tree → Nat
  | .bracket _ set => set.depth + 1
  | .repeated _ _ t => t.depth + 1
  | .group _ t => t.depth + 1
  | .seq ts => depthOfTrees ts + 1
  | .alt ts => depthOfTrees ts + 1
  | _ => 0

/-- How deep the parts of several regular expressions are nested. -/
def depthOfTrees : List Tree → Nat
  | [] => 0
  | t :: rest => max t.depth (depthOfTrees rest)

end

end ScriptHost.Regex
