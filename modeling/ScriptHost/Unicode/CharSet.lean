import ScriptHost.Text.Digits

/-!
# Sets of characters

A set of characters is a list of ranges of code points.  All operations give ranges that are sorted and lie apart.

A table is the text of such a list: for every range its distance from the end of the range before, and, after a dot, its
length less one if that is not zero, all in digits of base 36.
-/

namespace ScriptHost.Unicode

open ScriptHost.Text

/-- Ranges of code points, each with its first and last one. -/
abbrev CharSet := List (Nat × Nat)

/-! ### Tables -/

/-- Divides a list of characters at every `c`. -/
def splitAt (c : Char) : List Char → List (List Char)
  | [] => [[]]
  | d :: rest =>
    match splitAt c rest with
    | [] => [[d]]
    | w :: ws => if d = c then [] :: w :: ws else (d :: w) :: ws

/-- The words of a table. -/
def words (table : String) : List (List Char) := (splitAt ' ' table.toList).filter (!·.isEmpty)

/-- The number that a word writes in base 36. -/
def number (w : List Char) : Nat := numberOf 36 w

/-- The numbers between the dots of a word. -/
def numbers (w : List Char) : List Nat := (splitAt '.' w).map number

namespace CharSet

/-- The set that a table writes. -/
def ofTable (table : String) : CharSet :=
  ((words table).foldl (fun (done, last) w =>
    match numbers w with
    | [gap] => ((last + gap, last + gap) :: done, last + gap)
    | [gap, more] => ((last + gap, last + gap + more) :: done, last + gap + more)
    | _ => (done, last)) (([] : CharSet), 0)).1.reverse

/-! ### Operations -/

/-- Whether a code point lies in a set. -/
def containsCode (s : CharSet) (n : Nat) : Bool := s.any fun (lo, hi) => lo ≤ n && n ≤ hi

/-- Whether a character lies in a set. -/
def contains (s : CharSet) (c : Char) : Bool := containsCode s c.toNat

/-- Joins sorted ranges that touch. -/
private def join : List (Nat × Nat) → CharSet
  | [] => []
  | [r] => [r]
  | (lo, hi) :: (lo', hi') :: rest =>
    if lo' ≤ hi + 1 then join ((lo, max hi hi') :: rest) else (lo, hi) :: join ((lo', hi') :: rest)
  termination_by l => l.length

/-- The set of the characters in any of the ranges. -/
def ofRanges (ranges : List (Nat × Nat)) : CharSet := join (ranges.mergeSort fun a b => a.1 ≤ b.1)

/-- The characters in either of two sets. -/
def union (s t : CharSet) : CharSet := ofRanges (s ++ t)

/-- The last code point. -/
def lastCode : Nat := 0x10FFFF

/-- The code points from `next` on that do not lie in a sorted list of ranges. -/
private def gaps (next : Nat) : List (Nat × Nat) → CharSet
  | [] => if next ≤ lastCode then [(next, lastCode)] else []
  | (lo, hi) :: rest => if next < lo then (next, lo - 1) :: gaps (hi + 1) rest else gaps (hi + 1) rest

/-- The characters that do not lie in a set. -/
def complement (s : CharSet) : CharSet := gaps 0 (ofRanges s)

/-- The characters in both of two sets. -/
def inter (s t : CharSet) : CharSet := complement (union (complement s) (complement t))

/-- The characters in the first of two sets alone. -/
def difference (s t : CharSet) : CharSet := inter s (complement t)

/-- The characters in one of two sets alone. -/
def symmetricDifference (s t : CharSet) : CharSet := union (difference s t) (difference t s)

/-- Whether all characters of a set take 7 bits. -/
def isAscii (s : CharSet) : Bool := s.all (·.2 < 128)

end CharSet

end ScriptHost.Unicode
