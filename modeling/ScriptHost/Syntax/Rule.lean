import ScriptHost.Syntax.Lexeme
import ScriptHost.Syntax.Node

/-!
# Grammars and the machine that reads them

A grammar gives a rule for each of its symbols.  Choice is ordered: the first alternative that matches is taken, and
it is not given up when what follows fails.  `read` runs a rule on a small-step machine, which keeps the rules still
to be matched and the alternatives still open on lists of its own, so that the depth of the text costs no native
stack.
-/

namespace ScriptHost.Syntax

/-- The right-hand side of a grammar over the symbols `σ`. -/
inductive Rule (σ : Type) where
  /-- Matches without taking anything. -/
  | nothing
  /-- A token, after any white space and comments. -/
  | token (kind : String) (named : Bool) (l : Lexeme)
  /-- A token that follows the previous one immediately. -/
  | glued (kind : String) (named : Bool) (l : Lexeme)
  /-- A place where a statement may end without a semicolon; comments before it on the line belong to the statement. -/
  | ending (e : Ending)
  /-- No line ends before the next token. -/
  | sameLine
  | seq (a b : Rule σ)
  /-- The first of the two that matches. -/
  | alt (a b : Rule σ)
  /-- As many repetitions as match. -/
  | many (a : Rule σ)
  /-- Matches without taking anything where `a` does not match. -/
  | absent (a : Rule σ)
  | ref (s : σ)
  /-- A construct made of what `a` reads. -/
  | node (kind : String) (a : Rule σ)
  /-- A construct made of the last node read, in the place `f`, and of what `a` reads. -/
  | grow (kind : String) (f : Option Field) (a : Rule σ)
  /-- The node that `a` reads fills the place `f`. -/
  | field (f : Field) (a : Rule σ)
  /-- Reads the last node again as another construct. -/
  | recast (f : Node → Node)

namespace Rule

variable {σ : Type}

/-- The keyword `w`. -/
def kw (w : String) : Rule σ := token w false (.keyword w)

/-- The punctuation `s`, unless one of the characters `barring` follows. -/
def op (s : String) (barring : String := "") : Rule σ := token s false (.symbol s.toList barring.toList)

/-- A token that is a construct of its own. -/
def leaf (kind : String) (l : Lexeme) : Rule σ := token kind true l

/-- The keyword `w`, which is a construct of its own. -/
def constant (w : String) : Rule σ := token w true (.keyword w)

/-- One rule after the other. -/
def seqs (rules : List (Rule σ)) : Rule σ := rules.foldr seq nothing

/-- Matches nowhere. -/
def fail : Rule σ := absent nothing

/-- The first of the rules that matches. -/
def alts : List (Rule σ) → Rule σ
  | [] => fail
  | [r] => r
  | r :: rest => alt r (alts rest)

/-- At most one match. -/
def opt (r : Rule σ) : Rule σ := alt r nothing

/-- Matches without taking anything where `r` matches. -/
def ahead (r : Rule σ) : Rule σ := absent (absent r)

/-- One or more matches of `r` with `sep` between them. -/
def sepBy1 (r sep : Rule σ) : Rule σ := seq r (many (seq sep r))

/-- One or more matches of `r` with commas between them. -/
def commas1 (r : Rule σ) : Rule σ := sepBy1 r (op ",")

/-- Any number of matches of `r` with commas between them, after the last and in place of any. -/
def commas (r : Rule σ) : Rule σ := seq (opt r) (many (seq (op ",") (opt r)))

end Rule

/-! ### The machine -/

/-- What has been read and what is ahead. -/
structure State where
  /-- The place behind the last token. -/
  tail : Cursor
  /-- What lies between the last token and the next. -/
  gap : Gap
  /-- The word at the next token, empty if there is none. -/
  word : String
  /-- The nodes read so far in the current construct, latest first. -/
  nodes : List Node
  /-- The comments passed so far, latest first. -/
  comments : List Comment

namespace State

/-- The state with its last token ending at `c`. -/
def behind (c : Cursor) (nodes : List Node) (comments : List Comment) : State :=
  let gap := Gap.scan c
  let word := match takeWord? gap.next.rest with
    | some (taken, _) => String.ofList taken
    | none => ""
  ⟨c, gap, word, nodes, comments⟩

/-- The state after a token that starts at the next place. -/
def token? (s : State) (kind : String) (named : Bool) (l : Lexeme) : Option State :=
  (l.take? s.word s.gap.next.rest).map fun (taken, left) =>
    .behind (s.gap.next.past taken left) (.leaf kind named none s.gap.next.offset (String.ofList taken) :: s.nodes)
      (s.gap.comments ++ s.comments)

/-- The state after a token that starts behind the last one. -/
def glued? (s : State) (kind : String) (named : Bool) (l : Lexeme) : Option State :=
  let word := if s.tail.offset == s.gap.next.offset then s.word else ""
  (l.take? word s.tail.rest).map fun (taken, left) =>
    .behind (s.tail.past taken left) (.leaf kind named none s.tail.offset (String.ofList taken) :: s.nodes) s.comments

/-- The state at the end of a statement without a semicolon.  As long as the statement may not end, a comment that comes
next is taken into it. -/
def ending? (e : Ending) (s : State) : Option State :=
  if endsStatement e s.tail.rest then some s
  else
    let rec go : Nat → State → List Comment → Option State
      | 0, _, _ => none
      | _, _, [] => none
      | fuel + 1, s, c :: later =>
        let s := State.behind (skipTo s c.stop) s.nodes (c :: s.comments)
        if endsStatement e s.tail.rest then some s else go fuel s later
    go s.gap.comments.length s s.gap.comments.reverse
where
  /-- The cursor moved on to the byte `stop`. -/
  skipTo (s : State) (stop : Nat) : Cursor :=
    let rec go : Nat → List Char → Cursor
      | offset, [] => ⟨offset, []⟩
      | offset, c :: rest => if stop ≤ offset then ⟨offset, c :: rest⟩ else go (offset + c.utf8Size) rest
    go s.tail.offset s.tail.rest

/-- Makes the nodes read in the current construct one node among the nodes `outer` around it. -/
def close (kind : String) (outer : List Node) (s : State) : State :=
  let children := s.nodes.reverse
  let start := (children.head?.map Node.start).getD s.tail.offset
  { s with nodes := .branch kind none start s.tail.offset children :: outer }

/-- Changes the last node. -/
def mapLast (f : Node → Node) (s : State) : State :=
  match s.nodes with
  | n :: rest => { s with nodes := f n :: rest }
  | [] => s

end State

mutual

/-- What the machine still has to do. -/
inductive Task (σ : Type) where
  | run (r : Rule σ)
  /-- Close the current construct. -/
  | close (kind : String) (outer : List Node)
  | label (f : Field)
  /-- Give up the alternatives opened since. -/
  | settle (choices : List (Choice σ))
  /-- Repeat a rule if it has moved on from the byte `offset`. -/
  | again (r : Rule σ) (offset : Nat)
  /-- Fail, because a rule matched that must not. -/
  | refuse (choices : List (Choice σ))

/-- An alternative: what to do instead, and from which state. -/
inductive Choice (σ : Type) where
  | mk (tasks : List (Task σ)) (state : State)

end

/-- A configuration of the machine. -/
structure Machine (σ : Type) where
  tasks : List (Task σ)
  state : State
  choices : List (Choice σ)
  /-- The furthest byte at which a token was refused. -/
  reach : Nat

/-- What comes of reading a rule. -/
inductive Reading where
  | matched (s : State)
  /-- No alternative matches, and none gets beyond the token at the byte `reach`. -/
  | failed (reach : Nat)

namespace Machine

variable {σ : Type}

/-- Takes up the latest alternative. -/
def backtrack (m : Machine σ) : Machine σ ⊕ Reading :=
  match m.choices with
  | .mk tasks state :: rest => .inl { m with tasks := tasks, state := state, choices := rest }
  | [] => .inr (.failed m.reach)

/-- Goes on with the state after a token, or with another alternative if there is none. -/
def next (m : Machine σ) (rest : List (Task σ)) (s : Option State) : Machine σ ⊕ Reading :=
  match s with
  | some s => .inl { m with tasks := rest, state := s }
  | none => backtrack { m with reach := max m.reach m.state.gap.next.offset }

/-- One step. -/
def step (grammar : σ → Rule σ) (m : Machine σ) : Machine σ ⊕ Reading :=
  match m.tasks with
  | [] => .inr (.matched m.state)
  | task :: rest =>
    match task with
    | .close kind outer => .inl { m with tasks := rest, state := m.state.close kind outer }
    | .label f => .inl { m with tasks := rest, state := m.state.mapLast (Node.withField f) }
    | .settle choices => .inl { m with tasks := rest, choices := choices }
    | .refuse choices => backtrack { m with choices := choices }
    | .again r offset =>
      if m.state.tail.offset == offset then .inl { m with tasks := rest }
      else .inl { m with tasks := .run (.many r) :: rest }
    | .run r =>
      match r with
      | .nothing => .inl { m with tasks := rest }
      | .token kind named l => m.next rest (m.state.token? kind named l)
      | .glued kind named l => m.next rest (m.state.glued? kind named l)
      | .ending e => m.next rest (m.state.ending? e)
      | .sameLine => m.next rest (if m.state.gap.broken then none else some m.state)
      | .seq a b => .inl { m with tasks := .run a :: .run b :: rest }
      | .alt a b =>
        .inl { m with
          tasks := .run a :: .settle m.choices :: rest
          choices := .mk (.run b :: rest) m.state :: m.choices }
      | .many a =>
        .inl { m with
          tasks := .run a :: .settle m.choices :: .again a m.state.tail.offset :: rest
          choices := .mk rest m.state :: m.choices }
      | .absent a =>
        .inl { m with
          tasks := [.run a, .refuse m.choices]
          choices := .mk rest m.state :: m.choices }
      | .ref s => .inl { m with tasks := .run (grammar s) :: rest }
      | .node kind a =>
        .inl { m with
          tasks := .run a :: .close kind m.state.nodes :: rest
          state := { m.state with nodes := [] } }
      | .grow kind f a =>
        match m.state.nodes with
        | left :: outer =>
          .inl { m with
            tasks := .run a :: .close kind outer :: rest
            state := { m.state with nodes := [f.elim left left.withField] } }
        | [] => m.backtrack
      | .field f a => .inl { m with tasks := .run a :: .label f :: rest }
      | .recast f => .inl { m with tasks := rest, state := m.state.mapLast f }

/-- Steps until the machine stops. -/
def run (grammar : σ → Rule σ) : Nat → Machine σ → Reading
  | 0, m => .failed m.reach
  | fuel + 1, m =>
    match m.step grammar with
    | .inl m => run grammar fuel m
    | .inr reading => reading

end Machine

/-- Reads a rule from the cursor `c` on. -/
def Rule.read {σ : Type} (grammar : σ → Rule σ) (r : Rule σ) (c : Cursor) : Reading :=
  Machine.run grammar (Nat.pow 10 12) ⟨[.run r], .behind c [] [], [], c.offset⟩

end ScriptHost.Syntax
