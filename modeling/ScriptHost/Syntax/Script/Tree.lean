import ScriptHost.Syntax.Script.Grammar

/-!
# The tree of a script

`tree d text` is the syntax tree of a whole text.  Statements are read one after the other; text that is no statement
becomes an `ERROR` node, behind which reading goes on.  Comments are put into the deepest construct that begins before
them and does not end before them.

Errors are recovered from at the top level only.  Every `ERROR` node is a child of the root and holds nothing but the
tokens that were passed over, and there are no `MISSING` nodes.  The trees of tree-sitter are different here: they have
errors inside of constructs that are completed around them, constructs inside of errors, and tokens that are put in.
-/

namespace ScriptHost.Syntax.Script

/-! ### Comments -/

/-- The node of a comment. -/
def commentNode (c : Comment) : Node := .leaf "comment" true none c.start c.text

mutual

/-- Puts the comments that lie within a node into it. -/
def weave (comments : List Comment) : Node → Node
  | .leaf kind named place start text => .leaf kind named place start text
  | .branch kind place start stop children => .branch kind place start stop (weaveAll comments children)

/-- Puts comments between and into the nodes of a list; nodes and comments are in the order of the text. -/
def weaveAll (comments : List Comment) : List Node → List Node
  | [] => comments.map commentNode
  | n :: rest =>
    let (before, others) := comments.span (·.start < n.start)
    let (within, after) := others.span (·.stop ≤ n.stop)
    before.map commentNode ++ weave within n :: weaveAll after rest

end

/-! ### Text that is no statement -/

/-- The token at the next place of a text in which no statement can be read, with the place behind it. -/
def strayToken (gap : Gap) : Node × Cursor :=
  let token (kind : String) (taken : List Char × List Char) : Node × Cursor :=
    (.leaf kind true none gap.next.offset (String.ofList taken.1), gap.next.past taken.1 taken.2)
  match gap.next.rest with
  | [] => (.leaf "" false none gap.next.offset "", gap.next)
  | c :: rest =>
    match takeWord? (c :: rest), takeNumber? (c :: rest) with
    | some taken, _ => token (if reservedWords.contains (String.ofList taken.1) then "keyword" else "identifier") taken
    | none, some taken => token "number" taken
    | none, none =>
      let (body, left) := rest.span fun d => d != c && d != '\n'
      match c == '"' || c == '\'', left with
      | true, quote :: left => token "string" (c :: (body ++ [quote]), left)
      | _, _ => (.leaf (String.singleton c) false none gap.next.offset (String.singleton c), gap.next.past [c] rest)

/-- What has been read of a text: its statements and the comments between and in them, latest first. -/
structure Progress where
  place : Cursor
  statements : List Node
  comments : List Comment

/-- Reads the statement at a place. -/
def readStatement (d : Dialect) (place : Cursor) : Reading := (Rule.ref Symbol.statement).read (grammar d) place

/-- Passes over tokens until a statement can be read again, and returns the tokens and the comments passed, latest
first.  If a statement begins but breaks off further on, the tokens up to there are passed over as well. -/
def passOver (d : Dialect) : Nat → Nat → Progress → Progress
  | 0, _, p => p
  | fuel + 1, reach, p =>
    let gap := Gap.scan p.place
    let pass (reach : Nat) : Progress :=
      let (token, behind) := strayToken gap
      passOver d fuel reach ⟨behind, token :: p.statements, gap.comments ++ p.comments⟩
    if gap.next.rest.isEmpty then { p with comments := gap.comments ++ p.comments, place := gap.next }
    else if gap.next.offset < reach then pass reach
    else
      match readStatement d p.place with
      | .matched _ => p
      | .failed later => pass (later + 1)

/-- Reads statements until the text ends. -/
def readAll (d : Dialect) : Nat → Progress → Progress
  | 0, p => p
  | fuel + 1, p =>
    let gap := Gap.scan p.place
    if gap.next.rest.isEmpty then { p with comments := gap.comments ++ p.comments }
    else
      match readStatement d p.place with
      | .matched s => readAll d fuel ⟨s.tail, s.nodes ++ p.statements, s.comments ++ p.comments⟩
      | .failed reach =>
        let skipped := passOver d fuel reach ⟨p.place, [], []⟩
        let skipped := if skipped.statements.isEmpty then passOver d fuel (reach + 1) ⟨p.place, [], []⟩ else skipped
        let error := skipped.statements.reverse
        let start := (error.head?.map Node.start).getD 0
        let stop := (skipped.statements.head?.map Node.stop).getD 0
        readAll d fuel ⟨skipped.place, .branch "ERROR" none start stop error :: p.statements,
          skipped.comments ++ p.comments⟩

/-- The syntax tree of a text. -/
def tree (d : Dialect) (text : String) : Node :=
  let chars := text.toList
  let start : Progress :=
    match (Rule.leaf "hash_bang_line" .hashBang : Part).read (grammar d) ⟨0, chars⟩ with
    | .matched s => ⟨s.tail, s.nodes, s.comments⟩
    | .failed _ => ⟨⟨0, chars⟩, [], []⟩
  let whole := readAll d (chars.length + 1) start
  .branch "program" none 0 text.utf8ByteSize (weaveAll whole.comments.reverse whole.statements.reverse)

end ScriptHost.Syntax.Script
