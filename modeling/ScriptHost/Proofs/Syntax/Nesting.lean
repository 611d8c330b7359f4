import Mathlib.Data.List.Pairwise
import Mathlib.Data.List.TakeWhile
import ScriptHost.Proofs.Syntax.Walk
import ScriptHost.Syntax.Script.Tree

/-!
# Nodes within nodes

In a tidy tree the nodes below a construct stand within it, one after the other, and names are tokens with a text
(`Node.Tidy`).  So a name is found from each of its bytes (`Node.Tidy.smallestCovering_eq`).

Comments are read beside the nodes and put between and into them later.  This keeps a tree tidy if no comment stands
across the edge of a construct (`Layout.weaveAll`).
-/

namespace ScriptHost.Syntax

/-- The items of a list stand between two bytes, one after the other. -/
structure InOrder {α : Type} (start stop : α → Nat) (lo hi : Nat) (l : List α) : Prop where
  le : lo ≤ hi
  within : ∀ a ∈ l, lo ≤ start a ∧ start a ≤ stop a ∧ stop a ≤ hi
  pairwise : l.Pairwise fun a b => stop a ≤ start b

namespace InOrder

variable {α : Type} {start stop : α → Nat} {lo mid hi lo' hi' : Nat} {l l' : List α}

theorem nil (h : lo ≤ hi) : InOrder start stop lo hi [] := ⟨h, nofun, .nil⟩

theorem singleton {a : α} (h : lo ≤ start a) (h' : start a ≤ stop a) (h'' : stop a ≤ hi) :
    InOrder start stop lo hi [a] :=
  ⟨(h.trans h').trans h'', by simpa using ⟨h, h', h''⟩, List.pairwise_singleton ..⟩

theorem append (h : InOrder start stop lo mid l) (h' : InOrder start stop mid hi l') :
    InOrder start stop lo hi (l ++ l') where
  le := h.le.trans h'.le
  within a ha := by
    rcases List.mem_append.1 ha with ha | ha
    · obtain ⟨hlo, hle, hmid⟩ := h.within a ha
      exact ⟨hlo, hle, hmid.trans h'.le⟩
    · obtain ⟨hmid, hle, hhi⟩ := h'.within a ha
      exact ⟨h.le.trans hmid, hle, hhi⟩
  pairwise :=
    List.pairwise_append.2 ⟨h.pairwise, h'.pairwise, fun a ha b hb =>
      (h.within a ha).2.2.trans (h'.within b hb).1⟩

/-- Some of the items stand in order between any bytes that they stand between. -/
theorem restrict (h : InOrder start stop lo hi l) (hsub : l'.Sublist l) (hle : lo' ≤ hi')
    (hlo : ∀ a ∈ l', lo' ≤ start a) (hhi : ∀ a ∈ l', stop a ≤ hi') : InOrder start stop lo' hi' l' where
  le := hle
  within a ha := ⟨hlo a ha, (h.within a (hsub.subset ha)).2.1, hhi a ha⟩
  pairwise := h.pairwise.sublist hsub

theorem sublist (h : InOrder start stop lo hi l) (hsub : l'.Sublist l) : InOrder start stop lo hi l' :=
  h.restrict hsub h.le (fun a ha => (h.within a (hsub.subset ha)).1) fun a ha => (h.within a (hsub.subset ha)).2.2

theorem map {β : Type} {f : β → α} {l : List β} (h : InOrder (fun b => start (f b)) (fun b => stop (f b)) lo hi l) :
    InOrder start stop lo hi (l.map f) where
  le := h.le
  within a ha := by
    obtain ⟨b, hb, rfl⟩ := List.mem_map.1 ha
    exact h.within b hb
  pairwise := List.pairwise_map.2 h.pairwise

/-- Items that overlap are the same. -/
theorem eq_of_overlap (h : InOrder start stop lo hi l) {a b : α} (ha : a ∈ l) (hb : b ∈ l) (hab : start a < stop b)
    (hba : start b < stop a) : a = b := by
  by_contra hne
  have : Std.Symm fun a b => stop a ≤ start b ∨ stop b ≤ start a := ⟨fun _ _ => Or.symm⟩
  rcases (h.pairwise.imp fun {a b} h => (Or.inl h : stop a ≤ start b ∨ stop b ≤ start a)).forall ha hb hne with hle | hle
  all_goals omega

end InOrder

/-! ### Tidy trees -/

/-- Names, the kinds of which are given, are tokens with a text, and the nodes below a construct stand within it, one
after the other. -/
inductive Node.Tidy (isName : String → Bool) : Node → Prop where
  | leaf {kind named place start text} (h : isName kind = true → named = true ∧ text ≠ "") :
    Tidy isName (.leaf kind named place start text)
  | branch {kind place start stop children} (hkind : isName kind = false)
    (horder : InOrder Node.start Node.stop start stop children) (hchildren : ∀ n ∈ children, Tidy isName n) :
    Tidy isName (.branch kind place start stop children)

/-- The nodes below each construct of a tree stand within it, one after the other. -/
def Node.Nested (n : Node) : Prop := n.Tidy fun _ => false

namespace Node.Tidy

variable {isName : String → Bool} {n l : Node}

theorem nested (h : n.Tidy isName) : n.Nested := by
  induction h with
  | leaf => exact .leaf nofun
  | branch hkind horder hchildren ih => exact .branch rfl horder ih

/-- A name is a token with a text. -/
theorem of_isName (h : n.Tidy isName) (hn : isName n.kind = true) :
    n.isNamed = true ∧ n.children = [] ∧ n.start < n.stop := by
  cases h with
  | leaf h =>
    rename_i kind named place start text
    obtain ⟨hnamed, htext⟩ := h hn
    have hpos : text.utf8ByteSize ≠ 0 := by rwa [Ne, String.utf8ByteSize_eq_zero_iff]
    refine ⟨hnamed, rfl, ?_⟩
    show start < start + text.utf8ByteSize
    omega
  | branch hkind => exact absurd (hkind.symm.trans hn) Bool.false_ne_true

/-- All nodes of a tree stand within it, and are tidy with it. -/
theorem of_mem_nodes (h : n.Tidy isName) (hl : l ∈ n.nodes) : l.Tidy isName ∧ n.start ≤ l.start ∧ l.stop ≤ n.stop := by
  induction h with
  | leaf h =>
    rw [nodes, List.mem_singleton] at hl
    subst hl
    exact ⟨.leaf h, le_rfl, le_rfl⟩
  | branch hkind horder hchildren ih =>
    rw [nodes, nodesAll_eq_flatMap, List.mem_cons, List.mem_flatMap] at hl
    rcases hl with rfl | ⟨c, hc, hl⟩
    · exact ⟨.branch hkind horder hchildren, le_rfl, le_rfl⟩
    · obtain ⟨htidy, hstart, hstop⟩ := ih c hc hl
      obtain ⟨hlo, -, hhi⟩ := horder.within c hc
      exact ⟨htidy, hlo.trans hstart, hstop.trans hhi⟩

private theorem start_le_stop (h : n.Tidy isName) : n.start ≤ n.stop := by
  cases h with
  | leaf => exact Nat.le_add_right ..
  | branch hkind horder => exact horder.le

/-- The nodes of a tidy tree are listed in the order in which they start. -/
theorem pairwise_start (h : n.Tidy isName) : n.nodes.Pairwise fun a b => a.start ≤ b.start := by
  induction h with
  | leaf h =>
    rw [nodes]
    exact List.pairwise_singleton ..
  | branch hkind horder hchildren ih =>
    rw [nodes_eq, List.pairwise_cons]
    constructor
    · intro b hb
      obtain ⟨c, hc, hb⟩ := List.mem_flatMap.1 hb
      have hlo := (horder.within c hc).1
      have hstart := ((hchildren c hc).of_mem_nodes hb).2.1
      exact hlo.trans hstart
    · refine List.pairwise_flatMap.2 ⟨ih, horder.pairwise.imp_of_mem ?_⟩
      intro a b ha hb hab x hx y hy
      obtain ⟨htidy, -, hstop⟩ := (hchildren a ha).of_mem_nodes hx
      have hstart := ((hchildren b hb).of_mem_nodes hy).2.1
      have hle := htidy.start_le_stop
      omega

/-- The tokens of a tidy tree stand one after the other. -/
theorem pairwise_tokens (h : n.Tidy isName) :
    n.nodes.Pairwise fun a b => a.children = [] → b.children = [] → a.stop ≤ b.start := by
  induction h with
  | leaf h =>
    rw [nodes]
    exact List.pairwise_singleton ..
  | branch hkind horder hchildren ih =>
    rename_i kind place start stop children
    rw [nodes, nodesAll_eq_flatMap, List.pairwise_cons]
    constructor
    · intro b hb hnil
      obtain rfl : children = [] := hnil
      cases hb
    · refine List.pairwise_flatMap.2 ⟨ih, horder.pairwise.imp_of_mem fun {a b} ha hb hab x hx y hy _ _ => ?_⟩
      obtain ⟨-, -, hstop⟩ := (hchildren a ha).of_mem_nodes hx
      obtain ⟨-, hstart, -⟩ := (hchildren b hb).of_mem_nodes hy
      exact hstop.trans (hab.trans hstart)

/-- The first node below a construct that goes beyond the start of a range is the one in which the range stands. -/
private theorem find?_eq {lo hi first last : Nat} {children : List Node} {c : Node}
    (horder : InOrder Node.start Node.stop lo hi children) (hc : c ∈ children) (hstart : c.start ≤ first)
    (hstop : first < c.stop) (hlast : last ≤ c.stop) :
    children.find? (fun c => last ≤ c.stop && first < c.stop) = some c := by
  obtain ⟨before, behind, rfl⟩ := List.append_of_mem hc
  refine List.find?_eq_some_iff_append.2 ⟨?_, before, behind, rfl, fun b hb => ?_⟩
  · rw [Bool.and_eq_true, decide_eq_true_iff, decide_eq_true_iff]
    omega
  · have hbefore : b.stop ≤ c.start := (List.pairwise_append.1 horder.pairwise).2.2 b hb c (List.mem_cons_self ..)
    have hnot : ¬ first < b.stop := by omega
    simp [hnot]

/-- A token is found from each range that starts and ends in it. -/
theorem smallestCovering_eq (h : n.Tidy isName) (hl : l ∈ n.nodes) (hleaf : l.children = []) {first last : Nat}
    (hfirst : l.start ≤ first) (hlt : first < l.stop) (hlast : last ≤ l.stop) :
    n.smallestCovering first last = l := by
  have hgo : ∀ fuel, n.size ≤ fuel → smallestCovering.go first last fuel n = l := by
    induction h with
    | leaf h =>
      intro fuel hfuel
      rw [nodes, List.mem_singleton] at hl
      subst hl
      cases fuel <;> rfl
    | branch hkind horder hchildren ih =>
      rename_i kind place start stop children
      intro fuel hfuel
      rw [nodes, nodesAll_eq_flatMap, List.mem_cons, List.mem_flatMap] at hl
      rw [size, sizeAll_eq_sum] at hfuel
      cases fuel with
      | zero => omega
      | succ fuel =>
        unfold smallestCovering.go
        rcases hl with rfl | ⟨c, hc, hl⟩
        · rw [hleaf]
          rfl
        · obtain ⟨-, hstart, hstop⟩ := (hchildren c hc).of_mem_nodes hl
          have hsize : c.size ≤ (children.map size).sum := List.le_sum_of_mem (List.mem_map_of_mem hc)
          rw [show (Node.branch kind place start stop children).children = children from rfl,
            find?_eq horder hc (hstart.trans hfirst) (hlt.trans_le hstop) (hlast.trans hstop)]
          dsimp only
          rw [if_pos (hstart.trans hfirst)]
          exact ih c hc hl fuel (by omega)
  exact hgo n.size le_rfl

end Node.Tidy

/-- What is found for a range is the node that was searched, or a node below it that covers the range. -/
theorem Node.smallestCovering_cases (first last : Nat) (n : Node) :
    n.smallestCovering first last = n ∨
      n.smallestCovering first last ∈ n.nodes ∧ (n.smallestCovering first last).start ≤ first ∧
        first < (n.smallestCovering first last).stop ∧ last ≤ (n.smallestCovering first last).stop := by
  have hgo : ∀ fuel (n : Node), smallestCovering.go first last fuel n = n ∨
      smallestCovering.go first last fuel n ∈ n.nodes ∧ (smallestCovering.go first last fuel n).start ≤ first ∧
        first < (smallestCovering.go first last fuel n).stop ∧ last ≤ (smallestCovering.go first last fuel n).stop := by
    intro fuel
    induction fuel with
    | zero => exact fun n => .inl rfl
    | succ fuel ih =>
      intro n
      unfold smallestCovering.go
      split
      · next c hfind =>
        have hc := List.mem_of_find?_eq_some hfind
        have hcovers := List.find?_some hfind
        rw [Bool.and_eq_true, decide_eq_true_iff, decide_eq_true_iff] at hcovers
        split
        · next hstart =>
          rcases ih c with heq | ⟨hmem, hfound⟩
          · rw [heq]
            exact .inr ⟨mem_nodes_of_mem_children hc c.mem_nodes_self, hstart, hcovers.2, hcovers.1⟩
          · exact .inr ⟨mem_nodes_of_mem_children hc hmem, hfound⟩
        · exact .inl rfl
      · exact .inl rfl
  exact hgo n.size n

/-! ### Comments -/

/-- A comment does not stand across the edge of a construct. -/
inductive Comment.Clear (c : Comment) : Node → Prop where
  | before {n : Node} (h : c.stop ≤ n.start) : Clear c n
  | behind {n : Node} (h : n.stop ≤ c.start) : Clear c n
  | inside {kind place start stop children} (hstart : start ≤ c.start) (hstop : c.stop ≤ stop)
    (hchildren : ∀ n ∈ children, Clear c n) : Clear c (.branch kind place start stop children)

namespace Comment

/-- A comment that is clear of a node stands on one side of each of its edges. -/
theorem Clear.edges {c : Comment} {n : Node} (h : c.Clear n) (hn : n.start ≤ n.stop) :
    (c.stop ≤ n.start ∨ n.start ≤ c.start) ∧ (c.stop ≤ n.stop ∨ n.stop ≤ c.start) := by
  cases h with
  | before h => exact ⟨.inl h, .inl (h.trans hn)⟩
  | behind h => exact ⟨.inr (hn.trans h), .inr h⟩
  | inside hstart hstop hchildren => exact ⟨.inr hstart, .inl hstop⟩

theorem Clear.branch {c : Comment} {kind : String} {place : Option Field} {start stop : Nat} {children : List Node}
    (hstart : c.stop ≤ start ∨ start ≤ c.start) (hstop : c.stop ≤ stop ∨ stop ≤ c.start)
    (hchildren : ∀ n ∈ children, c.Clear n) : c.Clear (.branch kind place start stop children) := by
  rcases hstart with hstart | hstart
  · exact .before hstart
  · rcases hstop with hstop | hstop
    · exact .inside hstart hstop hchildren
    · exact .behind hstop

end Comment

/-- Nodes and comments that have been read from one byte to another, both in the order of the text. -/
structure Layout (isName : String → Bool) (lo hi : Nat) (nodes : List Node) (comments : List Comment) : Prop where
  nodesInOrder : InOrder Node.start Node.stop lo hi nodes
  commentsInOrder : InOrder Comment.start Comment.stop lo hi comments
  tidy : ∀ n ∈ nodes, n.Tidy isName
  clear : ∀ c ∈ comments, ∀ n ∈ nodes, c.Clear n

namespace Layout

variable {isName : String → Bool} {lo mid hi : Nat} {nodes nodes' : List Node} {comments comments' : List Comment}

theorem le (h : Layout isName lo hi nodes comments) : lo ≤ hi := h.nodesInOrder.le

theorem nil (h : lo ≤ hi) : Layout isName lo hi [] [] := ⟨.nil h, .nil h, nofun, nofun⟩

/-- What is read later does not stand across the edges of what has been read before. -/
theorem append (h : Layout isName lo mid nodes comments) (h' : Layout isName mid hi nodes' comments') :
    Layout isName lo hi (nodes ++ nodes') (comments ++ comments') where
  nodesInOrder := h.nodesInOrder.append h'.nodesInOrder
  commentsInOrder := h.commentsInOrder.append h'.commentsInOrder
  tidy := List.forall_mem_append.2 ⟨h.tidy, h'.tidy⟩
  clear c hc n hn := by
    rcases List.mem_append.1 hc with hc | hc
    · rcases List.mem_append.1 hn with hn | hn
      · exact h.clear c hc n hn
      · exact .before ((h.commentsInOrder.within c hc).2.2.trans (h'.nodesInOrder.within n hn).1)
    · rcases List.mem_append.1 hn with hn | hn
      · exact .behind ((h.nodesInOrder.within n hn).2.2.trans (h'.commentsInOrder.within c hc).1)
      · exact h'.clear c hc n hn

end Layout

namespace Script

/-! ### Putting comments into nodes -/

theorem start_weave (comments : List Comment) (n : Node) : (weave comments n).start = n.start := by
  cases n with
  | leaf => rw [weave]
  | branch => rw [weave]; rfl

theorem stop_weave (comments : List Comment) (n : Node) : (weave comments n).stop = n.stop := by
  cases n with
  | leaf => rw [weave]
  | branch => rw [weave]; rfl

/-- Behind the first item that does not satisfy a condition, no item does, if those before such an item do. -/
private theorem eq_false_of_mem_dropWhile {α : Type} {p : α → Bool} {l : List α}
    (h : l.Pairwise fun a b => p b = true → p a = true) {a : α} (ha : a ∈ l.dropWhile p) : p a = false := by
  induction l with
  | nil => cases ha
  | cons b l ih =>
    obtain ⟨hb, hl⟩ := List.pairwise_cons.1 h
    cases hp : p b with
    | true =>
      rw [List.dropWhile_cons_of_pos hp] at ha
      exact ih hl ha
    | false =>
      rw [List.dropWhile_cons_of_neg (by simp [hp])] at ha
      rcases List.mem_cons.1 ha with rfl | ha
      · exact hp
      · exact Bool.eq_false_iff.2 fun ht => Bool.false_ne_true (hp.symm.trans (hb a ha ht))

variable {isName : String → Bool} {lo hi : Nat} {nodes : List Node} {comments : List Comment}

/-- The nodes of comments are as tidy as tokens are. -/
private theorem layout_comments (hcomment : isName "comment" = false)
    (h : InOrder Comment.start Comment.stop lo hi comments) : Layout isName lo hi (comments.map commentNode) [] where
  nodesInOrder := .map (f := commentNode) h
  commentsInOrder := .nil h.le
  tidy n hn := by
    obtain ⟨c, -, rfl⟩ := List.mem_map.1 hn
    exact .leaf fun h => absurd (hcomment.symm.trans h) Bool.false_ne_true
  clear := nofun

section

variable {n : Node} (hc : InOrder Comment.start Comment.stop lo hi comments)

include hc

private theorem inOrder_before (hclear : ∀ c ∈ comments, c.Clear n) (hn : n.start ≤ n.stop) (hlo : lo ≤ n.start) :
    InOrder Comment.start Comment.stop lo n.start (comments.takeWhile (·.start < n.start)) := by
  have hsub := List.takeWhile_sublist (l := comments) (·.start < n.start)
  refine hc.restrict hsub hlo (fun c hmem => (hc.within c (hsub.subset hmem)).1) fun c hmem => ?_
  have hlt : c.start < n.start := by simpa using List.mem_takeWhile_imp hmem
  rcases ((hclear c (hsub.subset hmem)).edges hn).1 with h | h
  · exact h
  · exact absurd h (Nat.not_le.2 hlt)

private theorem start_le_of_mem_dropWhile {c : Comment} (hmem : c ∈ comments.dropWhile (·.start < n.start)) :
    n.start ≤ c.start := by
  have hpairwise : comments.Pairwise fun a b =>
      decide (b.start < n.start) = true → decide (a.start < n.start) = true := by
    refine hc.pairwise.imp fun {a b} hab hb => ?_
    have hle : a.start ≤ a.stop := Nat.le_add_right ..
    rw [decide_eq_true_iff] at hb ⊢
    omega
  simpa using eq_false_of_mem_dropWhile hpairwise hmem

private theorem inOrder_inside (hn : n.start ≤ n.stop) : InOrder Comment.start Comment.stop n.start n.stop
    ((comments.dropWhile (·.start < n.start)).takeWhile (·.stop ≤ n.stop)) := by
  have hsub := List.takeWhile_sublist (l := comments.dropWhile (·.start < n.start)) (·.stop ≤ n.stop)
  refine hc.restrict (hsub.trans (List.dropWhile_sublist _)) hn (fun c hmem => ?_) fun c hmem => ?_
  · exact start_le_of_mem_dropWhile hc (hsub.subset hmem)
  · simpa using List.mem_takeWhile_imp hmem

private theorem inOrder_behind (hclear : ∀ c ∈ comments, c.Clear n) (hn : n.start ≤ n.stop) (hhi : n.stop ≤ hi) :
    InOrder Comment.start Comment.stop n.stop hi
      ((comments.dropWhile (·.start < n.start)).dropWhile (·.stop ≤ n.stop)) := by
  have hothers := List.dropWhile_sublist (l := comments) (·.start < n.start)
  have hsub := (List.dropWhile_sublist (l := comments.dropWhile (·.start < n.start)) (·.stop ≤ n.stop)).trans hothers
  refine hc.restrict hsub hhi (fun c hmem => ?_) fun c hmem => (hc.within c (hsub.subset hmem)).2.2
  have hpairwise : (comments.dropWhile (·.start < n.start)).Pairwise fun a b =>
      decide (b.stop ≤ n.stop) = true → decide (a.stop ≤ n.stop) = true := by
    refine (hc.pairwise.sublist hothers).imp fun {a b} hab hb => ?_
    have hle : b.start ≤ b.stop := Nat.le_add_right ..
    rw [decide_eq_true_iff] at hb ⊢
    omega
  have hlt : n.stop < c.stop := by simpa using eq_false_of_mem_dropWhile hpairwise hmem
  rcases ((hclear c (hsub.subset hmem)).edges hn).2 with h | h
  · exact absurd h (Nat.not_le.2 hlt)
  · exact h

end

/-- What is clear of a construct is clear of the nodes directly below it. -/
private theorem clear_child {c : Comment} {kind : String} {place : Option Field} {start stop : Nat}
    {children : List Node} (h : c.Clear (.branch kind place start stop children))
    (horder : InOrder Node.start Node.stop start stop children) : ∀ n ∈ children, c.Clear n := by
  cases h with
  | before h => exact fun n hn => .before (h.trans (horder.within n hn).1)
  | behind h => exact fun n hn => .behind ((horder.within n hn).2.2.trans h)
  | inside _ _ hchildren => exact hchildren

/-- Comments that are put between and into nodes keep them in order and tidy, if those put into a node do. -/
private theorem layout_weaveAll_of_forall (hcomment : isName "comment" = false)
    (hweave : ∀ n ∈ nodes, ∀ comments, InOrder Comment.start Comment.stop n.start n.stop comments →
      (∀ c ∈ comments, c.Clear n) → n.Tidy isName → (weave comments n).Tidy isName)
    (h : Layout isName lo hi nodes comments) : Layout isName lo hi (weaveAll comments nodes) [] := by
  induction nodes generalizing lo comments with
  | nil =>
    rw [weaveAll]
    exact layout_comments hcomment h.commentsInOrder
  | cons n rest ih =>
    obtain ⟨hlo, hn, hhi⟩ := h.nodesInOrder.within n (List.mem_cons_self ..)
    have hclear : ∀ c ∈ comments, c.Clear n := fun c hc => h.clear c hc n (List.mem_cons_self ..)
    obtain ⟨hfirst, hpairwise⟩ := List.pairwise_cons.1 h.nodesInOrder.pairwise
    have hothers := List.dropWhile_sublist (l := comments) (·.start < n.start)
    have hinside := inOrder_inside h.commentsInOrder hn
    have hbehind := inOrder_behind h.commentsInOrder hclear hn hhi
    rw [weaveAll]
    simp only [List.span_eq_takeWhile_dropWhile]
    have hnode : Layout isName n.start n.stop
        [weave ((comments.dropWhile (·.start < n.start)).takeWhile (·.stop ≤ n.stop)) n] [] := by
      refine ⟨.singleton (start_weave _ n).ge ?_ (stop_weave _ n).le, .nil hn, ?_, nofun⟩
      · rw [start_weave, stop_weave]
        exact hn
      · rw [List.forall_mem_singleton]
        refine hweave n (List.mem_cons_self ..) _ hinside (fun c hc => ?_) (h.tidy n (List.mem_cons_self ..))
        exact hclear c (((List.takeWhile_sublist _).trans hothers).subset hc)
    have hrest : Layout isName n.stop hi rest
        ((comments.dropWhile (·.start < n.start)).dropWhile (·.stop ≤ n.stop)) :=
      { nodesInOrder := h.nodesInOrder.restrict (List.sublist_cons_self ..) hhi hfirst fun m hm =>
          (h.nodesInOrder.within m (List.mem_cons_of_mem _ hm)).2.2
        commentsInOrder := hbehind
        tidy := fun m hm => h.tidy m (List.mem_cons_of_mem _ hm)
        clear := fun c hc m hm =>
          h.clear c (((List.dropWhile_sublist _).trans hothers).subset hc) m (List.mem_cons_of_mem _ hm) }
    exact (layout_comments hcomment (inOrder_before h.commentsInOrder hclear hn hlo)).append
      (hnode.append (ih (fun m hm => hweave m (List.mem_cons_of_mem _ hm)) hrest))

private theorem tidy_weave (hcomment : isName "comment" = false) (n : Node) (comments : List Comment)
    (hc : InOrder Comment.start Comment.stop n.start n.stop comments) (hclear : ∀ c ∈ comments, c.Clear n)
    (hn : n.Tidy isName) : (weave comments n).Tidy isName := by
  induction n using Node.induction generalizing comments with
  | leaf => rwa [weave]
  | branch kind place start stop children ih =>
    cases hn with
    | branch hkind horder hchildren =>
      have hlayout : Layout isName start stop children comments :=
        { nodesInOrder := horder
          commentsInOrder := hc
          tidy := hchildren
          clear := fun c hmem => clear_child (hclear c hmem) horder }
      have hwoven := layout_weaveAll_of_forall hcomment ih hlayout
      rw [weave]
      exact .branch hkind hwoven.nodesInOrder hwoven.tidy

/-- Comments that do not stand across the edges of constructs can be put between and into them, and all stays in order
and tidy. -/
theorem layout_weaveAll (hcomment : isName "comment" = false) (h : Layout isName lo hi nodes comments) :
    Layout isName lo hi (weaveAll comments nodes) [] :=
  layout_weaveAll_of_forall hcomment (fun n _ => tidy_weave hcomment n) h

end Script

end ScriptHost.Syntax
