import ScriptHost.Proofs.Analysis.Declared

/-!
# Which classes inherit from a name

The clauses of a class list the types and expressions that it extends and implements.  Each has a head, the name that it
goes by: the last one of a qualified name, and that in front of the arguments of a type or call (`Node.head?`).  A class
inherits from the heads of what its clauses list (`headsOf`).  The analysis instead collects all names in the clauses
that stand for a value or a type (`heritage_eq`).  So a class is found as an heir of every such name, wherever it stands
in the clauses, and only of those, be they heads or not.
-/

namespace ScriptHost.Analysis

open ScriptHost.Syntax ScriptHost.Text
open ScriptHost.Syntax.Script (OnceMarked marksOf isClassKind)

/-! ### Heads -/

/-- The kinds of names that stand for a value or a type. -/
def isPlainName (kind : String) : Bool := kind == "identifier" || kind == "type_identifier"

/-- The kinds of constructs that are known by their last part: members and types in namespaces. -/
def isQualified (kind : String) : Bool := kind ∈ ["member_expression", "nested_type_identifier"]

/-- The kinds of constructs that are known by their first part. -/
def isApplied (kind : String) : Bool :=
  kind ∈ ["generic_type", "call_expression", "instantiation_expression", "non_null_expression",
    "parenthesized_expression"]

/-- Whether a node is a construct that is no comment. -/
def isPart (n : Node) : Bool := n.isNamed && n.kind != "comment"

mutual

/-- The name that an expression or type goes by, if it has one. -/
def head? : Node → Option Node
  | n@(.leaf kind ..) => if isPlainName kind || kind == "property_identifier" then some n else none
  | .branch kind _ _ _ children =>
    if isQualified kind then headOfLast? children
    else if isApplied kind then headOfFirst? children
    else none

/-- The name that the first part goes by. -/
def headOfFirst? : List Node → Option Node
  | [] => none
  | n :: rest => if isPart n then head? n else headOfFirst? rest

/-- The name that the last part goes by. -/
def headOfLast? : List Node → Option Node
  | [] => none
  | n :: rest => if rest.any isPart then headOfLast? rest else if isPart n then head? n else none

end

/-- The clauses of a class that say what it extends and implements. -/
def clausesOf (d : Node) : List Node := d.children.filter (·.kind == "class_heritage")

/-- The names of what a class extends and implements. -/
def headsOf (d : Node) : List Node := ((clausesOf d).flatMap fun c => c.children.flatMap Node.children).filterMap head?

/-- All names of values and types in the clauses of a class. -/
def plainNamesOf (d : Node) : List Node := ((clausesOf d).flatMap Node.nodes).filter fun n => isPlainName n.kind

/-- A class inherits from a name. -/
def Inherits (source : String) (d : Node) (name : String) : Prop := ∃ n ∈ headsOf d, n.textIn source = name

/-- A name stands for a value or a type somewhere in the clauses of a class. -/
def Mentions (source : String) (d : Node) (name : String) : Prop := ∃ n ∈ plainNamesOf d, n.textIn source = name

private theorem head?_of_headOfFirst? {m : Node} {nodes : List Node} (h : headOfFirst? nodes = some m) :
    ∃ c ∈ nodes, head? c = some m := by
  induction nodes with
  | nil => cases h
  | cons n rest ih =>
    rw [headOfFirst?] at h
    split at h
    · exact ⟨n, List.mem_cons_self .., h⟩
    · obtain ⟨c, hc, h⟩ := ih h
      exact ⟨c, List.mem_cons_of_mem _ hc, h⟩

private theorem head?_of_headOfLast? {m : Node} {nodes : List Node} (h : headOfLast? nodes = some m) :
    ∃ c ∈ nodes, head? c = some m := by
  induction nodes with
  | nil => cases h
  | cons n rest ih =>
    rw [headOfLast?] at h
    split at h
    · obtain ⟨c, hc, h⟩ := ih h
      exact ⟨c, List.mem_cons_of_mem _ hc, h⟩
    · split at h
      · exact ⟨n, List.mem_cons_self .., h⟩
      · cases h

/-- The name that an expression or type goes by is a name in it, of a value or a type or of a member. -/
private theorem of_head? {n m : Node} (h : head? n = some m) :
    m ∈ n.nodes ∧ (isPlainName m.kind = true ∨ m.kind = "property_identifier") := by
  induction n using Node.induction with
  | leaf kind named place start text =>
    rw [head?] at h
    split at h
    · rename_i hkind
      cases h
      rw [Bool.or_eq_true, beq_iff_eq] at hkind
      exact ⟨Node.mem_nodes_self _, hkind⟩
    · cases h
  | branch kind place start stop children ih =>
    have hchild : ∃ c ∈ children, head? c = some m := by
      rw [head?] at h
      split at h
      · exact head?_of_headOfLast? h
      · split at h
        · exact head?_of_headOfFirst? h
        · cases h
    obtain ⟨c, hc, h⟩ := hchild
    obtain ⟨hmem, hkind⟩ := ih c hc h
    exact ⟨Node.mem_nodes_of_mem_children hc hmem, hkind⟩

/-- What a class extends or implements goes by a name in its clauses. -/
private theorem mem_plainNamesOf_of_mem_headsOf {d h : Node} (hh : h ∈ headsOf d) :
    h ∈ plainNamesOf d ∨ h.kind = "property_identifier" := by
  obtain ⟨item, hitem, hhead⟩ := List.mem_filterMap.1 hh
  obtain ⟨clauses, hclauses, hitem⟩ := List.mem_flatMap.1 hitem
  obtain ⟨clause, hclause, hitem⟩ := List.mem_flatMap.1 hitem
  obtain ⟨hmem, hkind⟩ := of_head? hhead
  refine hkind.imp_left fun hplain => List.mem_filter.2 ⟨List.mem_flatMap.2 ⟨clauses, hclauses, ?_⟩, hplain⟩
  exact Node.mem_nodes_of_mem_children hclause (Node.mem_nodes_of_mem_children hitem hmem)

/-! ### What is collected -/

variable {d : Node} {source : String}

/-- The names that a walk collects are all names of values and types. -/
private theorem collected_eq {c : Node} (htidy : c.Tidy isNameKind) (hnamed : c.isNamed = true) (source : String) :
    (c.walk.filterMap fun (_, n) =>
      if n.kind == "identifier" || n.kind == "type_identifier" then some (n.textIn source) else none) =
      (c.nodes.filter fun n => isPlainName n.kind).map (Node.textIn source) := by
  have hplain : ∀ n ∈ c.nodes, (isPlainName n.kind && n.isNamed) = isPlainName n.kind := by
    intro n hn
    cases hkind : isPlainName n.kind with
    | false => rfl
    | true =>
      have hname : isNameKind n.kind = true := by
        rw [isNameKind, show (n.kind == "identifier" || n.kind == "type_identifier") = true from hkind]
        rfl
      rw [((htidy.of_mem_nodes hn).1.of_isName hname).1, Bool.and_true]
  calc c.walk.filterMap ((fun n => if isPlainName n.kind then some (n.textIn source) else none) ∘ Prod.snd)
      = ((c.nodes.filter Node.isNamed).filter fun n => isPlainName n.kind).map (Node.textIn source) := by
        rw [← List.filterMap_map, Node.map_snd_walk hnamed, ← List.filterMap_filter, ← List.filterMap_eq_map]
        rfl
    _ = (c.nodes.filter fun n => isPlainName n.kind).map (Node.textIn source) := by
        rw [List.filter_filter, List.filter_congr hplain]

/-- The names that are collected of a class are those of values and types in its clauses. -/
theorem heritage_eq (hd : d.Everywhere OnceMarked) (htidy : d.Tidy isNameKind) (hclass : isClassKind d.kind = true)
    (source : String) : heritage source d = (plainNamesOf d).map (Node.textIn source) := by
  have hfind : d.namedChildren.find? (·.kind == "class_heritage") = ((clausesOf d).filter Node.isNamed).head? := by
    rw [← List.head?_filter, Node.namedChildren, clausesOf, List.filter_filter, List.filter_filter]
    simp only [Bool.and_comm]
  have hone : (clausesOf d).length ≤ 1 := by
    cases hd with
    | leaf => exact Nat.zero_le _
    | branch honce hchildren =>
      rename_i kind place start stop children
      rw [clausesOf, ← List.countP_eq_length_filter]
      exact honce _ (heritage_mem_marksOf hclass)
  have hclauses : ∀ c ∈ clausesOf d, c.Tidy isNameKind ∧ c.kind = "class_heritage" := by
    intro c hc
    obtain ⟨hmem, hkind⟩ := List.mem_filter.1 hc
    exact ⟨(htidy.of_mem_nodes (Node.mem_nodes_of_mem_children hmem c.mem_nodes_self)).1, beq_iff_eq.1 hkind⟩
  unfold heritage plainNamesOf
  rw [hfind]
  rcases hlist : clausesOf d with _ | ⟨c, _ | ⟨c', rest⟩⟩
  · rfl
  · obtain ⟨hctidy, hckind⟩ := hclauses c (hlist ▸ List.mem_singleton_self c)
    rw [List.flatMap_singleton]
    cases hnamed : c.isNamed with
    | false =>
      -- a token that is no construct has nothing below it
      cases c with
      | branch => cases hnamed
      | leaf kind named place start text =>
        obtain rfl : kind = "class_heritage" := hckind
        rw [List.filter_cons_of_neg (by rw [hnamed]; exact Bool.false_ne_true), Node.nodes]
        rfl
    | true =>
      rw [List.filter_cons_of_pos hnamed]
      exact collected_eq hctidy hnamed source
  · simp [hlist] at hone

private theorem declarationKind?_of_isClassKind {d : Node} (h : isClassKind d.kind = true) (source : String) :
    declarationKind? source d = some "class" := by
  unfold declarationKind?
  rw [isClassKind, Bool.or_eq_true, beq_iff_eq, beq_iff_eq] at h
  rcases h with h | h <;> rw [h] <;> rfl

namespace SyntaxEngine

variable {view : ScriptView} {given : String → Option ParsedScript} {first other name : String} {version : Version}
  {source : String} {s d n : Node}

/-- A class is an heir of a name if and only if the name is among those that are collected of it. -/
private theorem mem_heirs_iff (hother : other ∈ searchOrder view first)
    (hgiven : given other = some (.read other version source))
    (hs : s ∈ (Script.tree (dialectOf other) source).children) (hw : Wraps s d) (hclass : isClassKind d.kind = true)
    (hn : Binds d n) :
    ⟨other, .ofBounds n.start n.stop, "class"⟩ ∈ heirs view given first name ↔ name ∈ heritage source d := by
  constructor
  · intro hmem
    obtain ⟨⟨file, script⟩, hsearched, hmem⟩ := List.mem_flatMap.1 hmem
    obtain ⟨found, hfound, heq⟩ := List.mem_map.1 hmem
    obtain ⟨hfound, hname⟩ := List.mem_filter.1 hfound
    obtain ⟨rfl, hspan, -⟩ := (Implementation.mk.injEq ..).mp heq
    obtain rfl := Option.some.inj ((mem_searched.1 hsearched).2.symm.trans hgiven)
    obtain ⟨above, kind, rfl⟩ := eq_described_of_span hs hw hn hfound hspan
    exact List.contains_iff_mem.1 hname
  · intro hname
    obtain ⟨above, kind, hkind, hmem⟩ := mem_declarations_of_binds version hs hw hn
    obtain rfl : "class" = kind := Option.some.inj ((declarationKind?_of_isClassKind hclass source).symm.trans hkind)
    refine List.mem_flatMap.2 ⟨_, mem_searched.2 ⟨hother, hgiven⟩, ?_⟩
    exact List.mem_map.2 ⟨_, List.mem_filter.2 ⟨hmem, List.contains_iff_mem.2 hname⟩, rfl⟩

/-- A class with the name `n` in a file is found as an heir of a name. -/
def FoundAsHeir (view : ScriptView) (given : String → Option ParsedScript) (first name file : String) (n : Node) :
    Prop :=
  ⟨file, .ofBounds n.start n.stop, "class"⟩ ∈ heirs view given first name

/-- The heirs of a name, which are its implementations if there are any, are the classes in whose clauses it stands for
a value or a type.  Such a class inherits from the name if and only if the name heads something in the clauses; and a
class that inherits is found unless the name only stands at the ends of members. -/
theorem heirs_inherit_iff {e : SyntaxEngine} (he : Consistent view e) {offset : Nat} {target : Target}
    (htarget : nameAt (SyntaxEngine.given view e) first offset = some target)
    (hother : other = first ∨ other ∈ view.names) (htracked : view.version other ≠ untracked)
    (hsource : view.snapshot other = some source)
    (hs : s ∈ (Script.tree (dialectOf other) source).children) (hw : Wraps s d) (hclass : isClassKind d.kind = true)
    (hn : Binds d n) :
    (heirs view (SyntaxEngine.given view e) first target.name ≠ [] →
      (engine.implementations view first offset e).1 =
        some (heirs view (SyntaxEngine.given view e) first target.name)) ∧
    (FoundAsHeir view (SyntaxEngine.given view e) first target.name other n ↔ Mentions source d target.name) ∧
    ((FoundAsHeir view (SyntaxEngine.given view e) first target.name other n ↔ Inherits source d target.name) ↔
      (Mentions source d target.name → Inherits source d target.name) ∧
        ∀ h ∈ headsOf d, h.textIn source = target.name → h.kind = "property_identifier" →
          Mentions source d target.name) := by
  have hgiven := given_of_consistent he htracked hsource
  have horder : other ∈ searchOrder view first := by
    by_cases hfirst : other = first
    · exact hfirst ▸ List.mem_cons_self ..
    · exact List.mem_cons_of_mem _ (List.mem_filter.2 ⟨hother.resolve_left hfirst, by simpa using hfirst⟩)
  have hnodes := Node.mem_nodes_of_mem_children hs (mem_nodes_of_wraps hw)
  have hmentions : FoundAsHeir view (SyntaxEngine.given view e) first target.name other n ↔
      Mentions source d target.name := by
    rw [FoundAsHeir, mem_heirs_iff horder hgiven hs hw hclass hn,
      heritage_eq ((Script.onceMarked_tree _ source).of_mem_nodes hnodes)
        ((Script.tidy_tree _ source).of_mem_nodes hnodes).1 hclass, List.mem_map, Mentions]
  refine ⟨fun hne => ?_, hmentions, ?_⟩
  · have hanswer := (Answers.implementationsAt first offset e (s := SyntaxEngine.given view e) rfl).1
    rw [htarget, Option.bind_some, if_pos (by simpa using hne)] at hanswer
    exact hanswer
  · rw [hmentions]
    constructor
    · intro hiff
      exact ⟨hiff.1, fun h hh hname _ => hiff.2 ⟨h, hh, hname⟩⟩
    · rintro ⟨hstray, hmember⟩
      refine ⟨hstray, fun ⟨h, hh, hname⟩ => ?_⟩
      rcases mem_plainNamesOf_of_mem_headsOf hh with hplain | hkind
      · exact ⟨h, hplain, hname⟩
      · exact hmember h hh hname hkind

/-- A class is found as an heir of the interface in the type arguments of what it extends. -/
theorem heirs_inherit_iff_of_type_argument : ∃ (view : ScriptView) (source : String) (target : Target) (s d n : Node),
    Consistent view fresh ∧ nameAt (SyntaxEngine.given view fresh) "/a.ts" 10 = some target ∧ target.name = "Foo" ∧
      view.version "/a.ts" ≠ untracked ∧ view.snapshot "/a.ts" = some source ∧
      source = "interface Foo {}\nclass A extends Bag<Foo> {}" ∧
      s ∈ (Script.tree (dialectOf "/a.ts") source).children ∧ Wraps s d ∧ isClassKind d.kind = true ∧ Binds d n ∧
      FoundAsHeir view (SyntaxEngine.given view fresh) "/a.ts" target.name "/a.ts" n ∧
      ¬ Inherits source d target.name ∧
      ¬ ((Mentions source d target.name → Inherits source d target.name) ∧
        ∀ h ∈ headsOf d, h.textIn source = target.name → h.kind = "property_identifier" →
          Mentions source d target.name) := by
  let source := "interface Foo {}\nclass A extends Bag<Foo> {}"
  let view : ScriptView :=
    { names := ["/a.ts"]
      version := fun name => if name = "/a.ts" then 1 else untracked
      snapshot := fun name => if name = "/a.ts" then some source else none }
  have hparse : ((Script.tree (dialectOf "/a.ts") source).children.any fun s => s.kind == "class_declaration" &&
      ((plainNamesOf s).any fun m => m.textIn source == "Foo") &&
        ((headsOf s).all fun h => h.textIn source != "Foo") &&
          s.children.any fun n => n.field == some .name && isNameKind n.kind) = true := by
    decide +kernel
  have htarget : ∃ target, nameAt (SyntaxEngine.given view fresh) "/a.ts" 10 = some target ∧ target.name = "Foo" := by
    have hname : (nameAt (SyntaxEngine.given view fresh) "/a.ts" 10).map (·.name) = some "Foo" := by decide +kernel
    exact Option.map_eq_some_iff.1 hname
  obtain ⟨target, htarget, hfoo⟩ := htarget
  simp only [List.any_eq_true, List.all_eq_true, Bool.and_eq_true, beq_iff_eq, bne_iff_ne] at hparse
  obtain ⟨s, hs, ⟨⟨hkind, m, hm, hmfoo⟩, hheads⟩, n, hn, hfield, hname⟩ := hparse
  have hclass : isClassKind s.kind = true := by rw [hkind]; rfl
  have hw : Wraps s s := .bare (by rw [hkind]; decide) (by rw [hkind]; decide)
  have hb : Binds s n := .one (by rw [hkind]; rfl) hn hfield hname
  have he : Consistent view fresh := consistent_fresh view
  have htracked : view.version "/a.ts" ≠ untracked := by decide
  have hinherits : ¬ Inherits source s target.name := fun ⟨h, hh, heq⟩ => hheads h hh (heq.trans hfoo)
  obtain ⟨-, hmentions, hiff⟩ := heirs_inherit_iff he htarget (.inl rfl) htracked rfl hs hw hclass hb
  have hfound := hmentions.2 ⟨m, hm, hmfoo.trans hfoo.symm⟩
  exact ⟨view, source, target, s, s, n, he, htarget, hfoo, htracked, rfl, rfl, hs, hw, hclass, hb, hfound, hinherits,
    fun h => hinherits ((hiff.2 h).1 hfound)⟩

end SyntaxEngine

end ScriptHost.Analysis
