/-!
# Syntax trees

A concrete syntax tree keeps every token of the text it was read from.  A node has a kind, a byte range and, where an
analysis asks for it by name, the field it fills in its parent.  Named nodes stand for constructs of the language; the
other leaves are keywords and punctuation.

`Node.preorder` lists a tree parents first, and `Node.visit` walks it with a stack of pending nodes.
-/

namespace ScriptHost.Syntax

/-- The places in a parent that an analysis looks up by name. -/
inductive Field where
  | name
  | declaration
  | source
  | function
  | arguments
  deriving DecidableEq, Repr

/-- A concrete syntax tree. -/
inductive Node where
  /-- A token with its text, which starts at the byte `start`. -/
  | leaf (kind : String) (named : Bool) (field : Option Field) (start : Nat) (text : String)
  /-- A construct that covers the bytes from `start` to `stop`. -/
  | branch (kind : String) (field : Option Field) (start stop : Nat) (children : List Node)
  deriving Inhabited, Repr

namespace Node

/-- The name of the construct or token. -/
def kind : Node → String
  | leaf kind .. => kind
  | branch kind .. => kind

/-- Whether the node stands for a construct and not for a keyword or punctuation. -/
def isNamed : Node → Bool
  | leaf _ named .. => named
  | branch .. => true

/-- The place the node fills in its parent. -/
def field : Node → Option Field
  | leaf _ _ field .. => field
  | branch _ field .. => field

/-- The byte at which the node starts. -/
def start : Node → Nat
  | leaf _ _ _ start _ => start
  | branch _ _ start .. => start

/-- The byte after the node. -/
def stop : Node → Nat
  | leaf _ _ _ start text => start + text.utf8ByteSize
  | branch _ _ _ stop _ => stop

/-- The nodes directly below. -/
def children : Node → List Node
  | leaf .. => []
  | branch _ _ _ _ children => children

/-- The constructs directly below. -/
def namedChildren (n : Node) : List Node := n.children.filter isNamed

/-- The first node below that fills the place `f`. -/
def child? (n : Node) (f : Field) : Option Node := n.children.find? (·.field == some f)

/-- The node in the place `f` of its parent. -/
def withField (f : Field) : Node → Node
  | leaf kind named _ start text => leaf kind named (some f) start text
  | branch kind _ start stop children => branch kind (some f) start stop children

/-- The text of the node within the text the tree was read from. -/
def textIn (source : String) (n : Node) : String :=
  match n with
  | leaf _ _ _ _ text => text
  | branch _ _ start stop _ => String.Pos.Raw.extract source ⟨start⟩ ⟨stop⟩

mutual

/-- The number of nodes of a tree. -/
def size : Node → Nat
  | leaf .. => 1
  | branch _ _ _ _ children => 1 + sizeAll children

/-- The number of nodes of several trees. -/
def sizeAll : List Node → Nat
  | [] => 0
  | n :: rest => n.size + sizeAll rest

end

mutual

/-- The constructs of a tree with the construct directly above each, parents first and in the order of the text. -/
def preorder (parent : Option Node) : Node → List (Option Node × Node)
  | n@(leaf _ named ..) => if named then [(parent, n)] else []
  | n@(branch _ _ _ _ children) => (parent, n) :: preorderAll (some n) children

/-- The constructs of several trees below one parent. -/
def preorderAll (parent : Option Node) : List Node → List (Option Node × Node)
  | [] => []
  | n :: rest => n.preorder parent ++ preorderAll parent rest

end

/-- Walks over pending constructs, each with its parent: the first one is met and replaced by the constructs below it.
-/
def visit : Nat → List (Option Node × Node) → List (Option Node × Node)
  | 0, _ => []
  | _, [] => []
  | fuel + 1, (parent, n) :: pending => (parent, n) :: visit fuel (n.namedChildren.map (some n, ·) ++ pending)

/-- The constructs of a tree in the order in which a walk with a stack meets them. -/
def walk (root : Node) : List (Option Node × Node) := visit root.size [(none, root)]

/-- The deepest node below `n` that covers the bytes from `first` up to `last`; a node with text that ends at or before
`first` does not cover it. -/
def smallestCovering (first last : Nat) (n : Node) : Node :=
  let rec go : Nat → Node → Node
    | 0, n => n
    | fuel + 1, n =>
      match n.children.find? fun c => last ≤ c.stop && first < c.stop with
      | some c => if c.start ≤ first then go fuel c else n
      | none => n
  go n.size n

end Node

end ScriptHost.Syntax
