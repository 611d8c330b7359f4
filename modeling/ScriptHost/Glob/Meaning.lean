import ScriptHost.Glob.Syntax
import ScriptHost.Pattern.Automaton

/-!
# What glob patterns match

A glob pattern matches a path as a whole, byte by byte.  A `Style` says whether `?` and `*` match slashes too.
Alternatives with nothing in them do not count.

The globset library limits the size of the machine for one glob and for several of them together.  These limits are left
out: `compile` and `together` make machines of any size.  That the machine for several globs may be refused is kept, as
the `Builder` that makes it may be any other.
-/

namespace ScriptHost.Glob

open ScriptHost.Pattern

/-- How glob patterns are read. -/
structure Style where
  /-- Whether `?` and `*` match no slashes. -/
  separate : Bool
  /-- Whether a bracket that is not closed stands for itself. -/
  lenient : Bool

/-- The style of patterns that exclude scripts. -/
def Style.plain : Style := ⟨false, false⟩

/-- The style of patterns in ignore files. -/
def Style.ignoreFile : Style := ⟨true, true⟩

/-- The bytes of a character. -/
def bytesOf (c : Char) : List UInt8 := c.toString.toUTF8.toList

/-- Any byte that `?` stands for. -/
private def wildcard (separate : Bool) : Expr UInt8 := .item fun b => !separate || b != 47

private def anyBytes : Expr UInt8 := .star (.item fun _ => true)

private def slash : Expr UInt8 := .item (· == 47)

/-- The ranges of bytes that stand for a range of characters: the last byte of the first character is joined to the
first byte of the last one, and all other bytes stand for themselves. -/
def byteRanges (first last : Char) : List (UInt8 × UInt8) :=
  if first = last then (bytesOf first).map fun b => (b, b)
  else
    match (bytesOf first).reverse, bytesOf last with
    | a :: before, b :: after => (before.map fun b => (b, b)) ++ (a, b) :: after.map fun b => (b, b)
    | _, _ => []

mutual

/-- The pattern of one part. -/
def Part.expr (separate : Bool) : Part → Expr UInt8
  | .literal c => .seqs ((bytesOf c).map fun b => .item (· == b))
  | .any => wildcard separate
  | .star => .star (wildcard separate)
  | .leading => .alts [.empty, slash, .seq anyBytes slash]
  | .trailing => .seq slash anyBytes
  | .inner => .alt slash (.seqs [slash, anyBytes, slash])
  | .class negated ranges =>
    let bytes := ranges.flatMap fun (first, last) => byteRanges first last
    .item fun b => (bytes.any fun (lo, hi) => lo ≤ b && b ≤ hi) != negated
  | .alternates all =>
    match exprsOf separate all with
    | [] => .empty
    | es => .alts es

/-- The pattern of parts that stand one after the other. -/
def exprOf (separate : Bool) : List Part → Expr UInt8
  | [] => .empty
  | p :: rest => .seq (p.expr separate) (exprOf separate rest)

/-- The patterns of alternatives, but of those that say nothing. -/
def exprsOf (separate : Bool) : List (List Part) → List (Expr UInt8)
  | [] => []
  | ps :: rest => if saysNothing ps then exprsOf separate rest else exprOf separate ps :: exprsOf separate rest

/-- Whether parts consist of nothing but alternatives that say nothing. -/
def saysNothing : List Part → Bool
  | [] => true
  | .alternates all :: rest => sayNothing all && saysNothing rest
  | _ :: _ => false

/-- Whether all alternatives say nothing. -/
def sayNothing : List (List Part) → Bool
  | [] => true
  | ps :: rest => saysNothing ps && sayNothing rest

end

/-- The pattern of a whole glob; `**` alone matches everything. -/
def expr (separate : Bool) : List Part → Expr UInt8
  | [.leading] => anyBytes
  | ps => exprOf separate ps

/-- The pattern that a glob writes. -/
def read (style : Style) (pattern : String) : Except Error (Expr UInt8) :=
  (parse style.lenient pattern).map (expr style.separate)

/-- The machine of a glob pattern. -/
def compile (style : Style) (pattern : String) : Except Error (Program UInt8) := (read style pattern).map (·.program)

/-- Makes one machine for several globs, which is to match what any of them matches, or says why that cannot be done. -/
abbrev Builder := List (Expr UInt8) → Except String (Program UInt8)

/-- The builder that makes machines of any size. -/
def together : Builder := fun globs => .ok (Expr.alts globs).program

end ScriptHost.Glob
