import Mathlib.Algebra.Order.BigOperators.Group.List
import Mathlib.Algebra.Order.Ring.Nat
import ScriptHost.Syntax.Node

/-!
# Walking a tree

A walk with a stack of pending constructs meets every construct once, parents first and in the order of the text, as a
recursion does (`walk_eq_traversal`, `map_snd_walk`).  The pending constructs stand for all that is below them
(`outstanding_cons`): when one of them is met, the constructs below it take its place.  So after each step the first
pending construct is the next one that the recursion meets (`head?_iterate_advance`), and at the end nothing is pending.
-/

namespace ScriptHost.Syntax.Node

/-- What holds of tokens, and of a construct if it holds of all nodes directly below it, holds of all nodes. -/
@[elab_as_elim]
theorem induction {P : Node → Prop}
    (leaf : ∀ kind named place start text, P (.leaf kind named place start text))
    (branch : ∀ kind place start stop children, (∀ n ∈ children, P n) → P (.branch kind place start stop children))
    (n : Node) : P n :=
  @Node.rec P (fun nodes => ∀ n ∈ nodes, P n) leaf branch (fun _ h => nomatch h)
    (fun _ _ hn hrest => List.forall_mem_cons.2 ⟨hn, hrest⟩) n

mutual

/-- A node and all nodes below it, parents first and in the order of the text. -/
def nodes : Node → List Node
  | n@(leaf ..) => [n]
  | n@(branch _ _ _ _ children) => n :: nodesAll children

/-- Several nodes and all nodes below them. -/
def nodesAll : List Node → List Node
  | [] => []
  | n :: rest => n.nodes ++ nodesAll rest

end

theorem nodesAll_eq_flatMap (children : List Node) : nodesAll children = children.flatMap nodes := by
  induction children with
  | nil => rw [nodesAll, List.flatMap_nil]
  | cons n rest ih => rw [nodesAll, ih, List.flatMap_cons]

theorem nodes_eq (n : Node) : n.nodes = n :: n.children.flatMap nodes := by
  cases n with
  | leaf => rw [nodes, children, List.flatMap_nil]
  | branch => rw [nodes, nodesAll_eq_flatMap, children]

theorem mem_nodes_self (n : Node) : n ∈ n.nodes := by
  rw [nodes_eq]
  exact List.mem_cons_self ..

/-- The nodes below a child are nodes below its parent. -/
theorem mem_nodes_of_mem_children {n c m : Node} (hc : c ∈ n.children) (hm : m ∈ c.nodes) : m ∈ n.nodes := by
  rw [nodes_eq]
  exact List.mem_cons_of_mem _ (List.mem_flatMap.2 ⟨c, hc, hm⟩)

theorem mem_nodes_trans {n m l : Node} (hm : m ∈ n.nodes) (hl : l ∈ m.nodes) : l ∈ n.nodes := by
  induction n using Node.induction with
  | leaf =>
    rw [nodes, List.mem_singleton] at hm
    rwa [hm] at hl
  | branch kind place start stop children ih =>
    rw [nodes_eq, List.mem_cons, List.mem_flatMap] at hm
    rcases hm with rfl | ⟨c, hc, hm⟩
    · exact hl
    · exact mem_nodes_of_mem_children hc (ih c hc hm)

theorem sizeAll_eq_sum (children : List Node) : sizeAll children = (children.map size).sum := by
  induction children with
  | nil => rw [sizeAll, List.map_nil, List.sum_nil]
  | cons n rest ih => rw [sizeAll, ih, List.map_cons, List.sum_cons]

private theorem preorderAll_eq_flatMap (parent : Option Node) (children : List Node) :
    preorderAll parent children = children.flatMap (preorder parent) := by
  induction children with
  | nil => rw [preorderAll, List.flatMap_nil]
  | cons n rest ih => rw [preorderAll, ih, List.flatMap_cons]

private theorem preorder_of_not_isNamed {n : Node} (h : n.isNamed = false) (parent : Option Node) :
    n.preorder parent = [] := by
  cases n with
  | leaf kind named place start text =>
    rw [preorder, if_neg (by rw [show named = false from h]; exact Bool.false_ne_true)]
  | branch => cases h

private theorem flatMap_filter_preorder (parent : Option Node) (children : List Node) :
    (children.filter isNamed).flatMap (preorder parent) = children.flatMap (preorder parent) := by
  induction children with
  | nil => rfl
  | cons c rest ih =>
    rw [List.flatMap_cons, ← ih]
    cases hc : c.isNamed with
    | false => rw [List.filter_cons_of_neg (by simp [hc]), preorder_of_not_isNamed hc, List.nil_append]
    | true => rw [List.filter_cons_of_pos hc, List.flatMap_cons]

/-- A construct comes before the constructs below it. -/
private theorem preorder_of_isNamed {n : Node} (h : n.isNamed = true) (parent : Option Node) :
    n.preorder parent = (parent, n) :: n.namedChildren.flatMap (preorder (some n)) := by
  cases n with
  | leaf kind named place start text =>
    rw [preorder, if_pos (show named = true from h)]
    rfl
  | branch kind place start stop children =>
    rw [preorder, preorderAll_eq_flatMap, namedChildren, flatMap_filter_preorder]
    rfl

/-! ### Recursion -/

private theorem sum_size_namedChildren_lt (n : Node) : (n.namedChildren.map size).sum < n.size := by
  cases n with
  | leaf kind named place start text =>
    rw [size]
    exact Nat.one_pos
  | branch kind place start stop children =>
    have hle : ((children.filter isNamed).map size).sum ≤ (children.map size).sum :=
      (List.Sublist.map size List.filter_sublist).sum_le_sum (fun _ _ => Nat.zero_le _)
    rw [size, sizeAll_eq_sum]
    exact Nat.lt_one_add_iff.2 hle

private theorem size_lt_of_mem_namedChildren {n c : Node} (hc : c ∈ n.namedChildren) : c.size < n.size :=
  (List.le_sum_of_mem (List.mem_map_of_mem hc)).trans_lt n.sum_size_namedChildren_lt

/-- The constructs that a recursion meets: a node, and then, one after the other, the constructs directly below it, each
with all that the recursion meets there. -/
def traversal (parent : Option Node) (n : Node) : List (Option Node × Node) :=
  (parent, n) :: n.namedChildren.attach.flatMap fun c => c.val.traversal (some n)
termination_by n.size
decreasing_by exact size_lt_of_mem_namedChildren c.property

private theorem traversal_eq (parent : Option Node) (n : Node) :
    n.traversal parent = (parent, n) :: n.namedChildren.flatMap (traversal (some n)) := by
  rw [traversal]
  conv_rhs => rw [← List.attach_map_subtype_val n.namedChildren, List.flatMap_map]

/-- Below a construct the recursion meets what is listed parents first. -/
private theorem preorder_eq_traversal {n : Node} (h : n.isNamed = true) (parent : Option Node) :
    n.preorder parent = n.traversal parent := by
  induction n using Node.induction generalizing parent with
  | leaf kind named place start text =>
    rw [preorder_of_isNamed h, traversal_eq]
    rfl
  | branch kind place start stop children ih =>
    rw [preorder_of_isNamed h, traversal_eq]
    refine congrArg (List.cons _) (List.flatMap_congr fun c hc => ?_)
    obtain ⟨hmem, hnamed⟩ := List.mem_filter.1 hc
    exact ih c hmem hnamed _

private theorem length_traversal_le (parent : Option Node) (n : Node) : (n.traversal parent).length ≤ n.size := by
  induction n using Node.induction generalizing parent with
  | leaf kind named place start text =>
    rw [traversal_eq, size]
    rfl
  | branch kind place start stop children ih =>
    have hsum := sum_size_namedChildren_lt (.branch kind place start stop children)
    have hbelow : ((Node.branch kind place start stop children).namedChildren.map fun c =>
        (c.traversal (some (.branch kind place start stop children))).length).sum ≤
          ((Node.branch kind place start stop children).namedChildren.map size).sum := by
      apply List.sum_le_sum
      intro c hc
      exact ih c (List.mem_filter.1 hc).1 _
    rw [traversal_eq, List.length_cons, List.length_flatMap]
    omega

/-! ### A stack of pending constructs -/

/-- One step of a walk: the first pending construct makes way for the constructs directly below it. -/
def advance : List (Option Node × Node) → List (Option Node × Node)
  | [] => []
  | (_, n) :: pending => n.namedChildren.map (some n, ·) ++ pending

/-- All that is still to be met. -/
def outstanding (pending : List (Option Node × Node)) : List (Option Node × Node) :=
  pending.flatMap fun x => x.2.traversal x.1

theorem outstanding_cons (x : Option Node × Node) (pending : List (Option Node × Node)) :
    outstanding (x :: pending) = x :: outstanding (advance (x :: pending)) := by
  obtain ⟨parent, n⟩ := x
  simp [outstanding, advance, List.flatMap_append, List.flatMap_map, traversal_eq parent n]

/-- What is met in a number of steps is that much of what is outstanding. -/
private theorem visit_eq_take (fuel : Nat) (pending : List (Option Node × Node)) :
    visit fuel pending = (outstanding pending).take fuel := by
  induction fuel generalizing pending with
  | zero => rw [visit, List.take_zero]
  | succ fuel ih =>
    cases pending with
    | nil => rfl
    | cons x pending =>
      rw [outstanding_cons, List.take_succ_cons, ← ih]
      rfl

/-- After a number of steps the first pending construct is the one that a recursion meets then. -/
theorem head?_iterate_advance (steps : Nat) (pending : List (Option Node × Node)) :
    (advance^[steps] pending).head? = (outstanding pending)[steps]? := by
  induction steps generalizing pending with
  | zero =>
    cases pending with
    | nil => rfl
    | cons x pending =>
      rw [outstanding_cons]
      rfl
  | succ steps ih =>
    rw [Function.iterate_succ_apply, ih]
    cases pending with
    | nil => rfl
    | cons x pending => rw [outstanding_cons, List.getElem?_cons_succ]

/-- Nothing is pending as soon as, and not before, there have been as many steps as there is outstanding. -/
theorem iterate_advance_eq_nil_iff (steps : Nat) (pending : List (Option Node × Node)) :
    advance^[steps] pending = [] ↔ (outstanding pending).length ≤ steps := by
  rw [← List.head?_eq_none_iff, head?_iterate_advance, List.getElem?_eq_none_iff]

theorem outstanding_root (root : Node) : outstanding [(none, root)] = root.traversal none := List.flatMap_singleton ..

/-- The walk with a stack meets what the recursion meets. -/
theorem walk_eq_traversal (root : Node) : root.walk = root.traversal none := by
  rw [walk, visit_eq_take, outstanding_root, List.take_of_length_le (length_traversal_le none root)]

/-- Every construct is listed once, in the place that it has among all nodes. -/
private theorem map_snd_preorder (parent : Option Node) (n : Node) :
    (n.preorder parent).map Prod.snd = n.nodes.filter isNamed := by
  induction n using Node.induction generalizing parent with
  | leaf kind named place start text =>
    rw [preorder, nodes, List.filter_singleton]
    cases named <;> rfl
  | branch kind place start stop children ih =>
    rw [preorder, nodes, preorderAll_eq_flatMap, nodesAll_eq_flatMap, List.map_cons,
      List.filter_cons_of_pos (by rfl), List.map_flatMap, List.filter_flatMap]
    refine congrArg (List.cons _) (List.flatMap_congr fun c hc => ?_)
    exact ih c hc _

/-- The recursion meets a node and every construct below it once, in the place that it has among all nodes. -/
theorem map_snd_traversal (parent : Option Node) (n : Node) :
    (n.traversal parent).map Prod.snd = n :: (n.children.flatMap nodes).filter isNamed := by
  have hbelow : n.namedChildren.flatMap (traversal (some n)) = n.children.flatMap (preorder (some n)) := by
    rw [← flatMap_filter_preorder]
    refine List.flatMap_congr fun c hc => ?_
    exact (preorder_eq_traversal (List.mem_filter.1 hc).2 _).symm
  rw [traversal_eq, hbelow, List.map_cons, List.map_flatMap, List.filter_flatMap]
  refine congrArg (List.cons n) (List.flatMap_congr fun c _ => ?_)
  exact map_snd_preorder _ c

/-- The walk meets the constructs of a tree in the order in which they stand among its nodes. -/
theorem map_snd_walk {root : Node} (h : root.isNamed = true) :
    root.walk.map Prod.snd = root.nodes.filter isNamed := by
  rw [walk_eq_traversal, ← preorder_eq_traversal h, map_snd_preorder]

end ScriptHost.Syntax.Node
