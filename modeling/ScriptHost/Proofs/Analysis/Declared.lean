import ScriptHost.Proofs.Analysis.Answers
import ScriptHost.Proofs.Analysis.Occurrences
import ScriptHost.Proofs.Syntax.Mark

/-!
# What statements declare

`Wraps` says which declaration stands behind the words that export or declare it, and `Binds` which name a declaration
binds.  Both only say where a node stands among the children of another one.  Since no construct has two children with
the same mark, the analysis finds these nodes (`unwrap_of_wraps`, `nameNode?_of_binds`), and so every such declaration
has a description (`ofStatement?_of_binds`).
-/

namespace ScriptHost.Analysis

open ScriptHost.Syntax ScriptHost.Text
open Script (OnceMarked marksOf isClassKind isNamedKind)

/-- An element that is the only one with a property is found. -/
private theorem find?_of_countP_le_one {α : Type} {p : α → Bool} {l : List α} {a : α} (h : l.countP p ≤ 1) (ha : a ∈ l)
    (hp : p a = true) : l.find? p = some a := by
  have hfilter : a ∈ l.filter p := List.mem_filter.2 ⟨ha, hp⟩
  rw [List.countP_eq_length_filter] at h
  obtain ⟨b, hb⟩ := List.length_eq_one_iff.1 (le_antisymm h (List.length_pos_of_mem hfilter))
  rw [hb, List.mem_singleton] at hfilter
  rw [← List.head?_filter, hb, hfilter, List.head?_cons]

/-! ### Declarations behind other words -/

/-- The statement is the declaration itself, or it exports it, or declares it as the first construct behind the word. -/
inductive Wraps : Node → Node → Prop where
  | bare {d : Node} (hexport : d.kind ≠ "export_statement") (hambient : d.kind ≠ "ambient_declaration") : Wraps d d
  | exported {s c d : Node} (hs : s.kind = "export_statement") (hc : c ∈ s.children)
    (hfield : c.field = some .declaration) (h : Wraps c d) : Wraps s d
  | ambient {s c d : Node} (hs : s.kind = "ambient_declaration") (hc : s.namedChildren.head? = some c) (h : Wraps c d) :
    Wraps s d

theorem unwrapDeclarationField_eq (children : List Node) :
    unwrapDeclarationField children = (children.find? (·.field == some .declaration)).map unwrap := by
  induction children with
  | nil => rfl
  | cons n rest ih =>
    rw [unwrapDeclarationField, List.find?_cons, ih]
    by_cases h : n.field = some .declaration
    · rw [if_pos h, beq_iff_eq.2 h]
      rfl
    · rw [if_neg h, beq_false_of_ne h]

theorem unwrapFirstConstruct_eq (children : List Node) :
    unwrapFirstConstruct children = (children.find? Node.isNamed).map unwrap := by
  induction children with
  | nil => rfl
  | cons n rest ih =>
    rw [unwrapFirstConstruct, List.find?_cons, ih]
    cases n.isNamed <;> rfl

/-- The declaration in a statement is found. -/
theorem unwrap_of_wraps {s d : Node} (h : Wraps s d) (hs : s.Everywhere OnceMarked) : unwrap s = d := by
  induction h with
  | @bare d hexport hambient =>
    cases d with
    | leaf => rw [unwrap]
    | branch kind place start stop children =>
      rw [unwrap]
      exact (if_neg hexport).trans (if_neg hambient)
  | @exported s c d hkind hc hfield h ih =>
    cases hs with
    | leaf => cases hc
    | branch honce hchildren =>
      rename_i kind place start stop children
      obtain rfl : kind = "export_statement" := hkind
      have hfind : children.find? (·.field == some .declaration) = some c :=
        find?_of_countP_le_one (honce _ (List.mem_singleton_self _)) hc (beq_iff_eq.2 hfield)
      rw [unwrap, if_pos rfl, unwrapDeclarationField_eq, hfind]
      exact ih (hchildren c hc)
  | @ambient s c d hkind hc h ih =>
    have hmem := List.mem_of_mem_head? hc
    cases hs with
    | leaf => cases (List.mem_filter.1 hmem).1
    | branch honce hchildren =>
      rename_i kind place start stop children
      obtain rfl : kind = "ambient_declaration" := hkind
      have hfind : children.find? Node.isNamed = some c := List.head?_filter.symm.trans hc
      rw [unwrap, if_neg (by decide), if_pos rfl, unwrapFirstConstruct_eq, hfind]
      exact ih (hchildren c (List.mem_filter.1 hmem).1)

/-- What a statement wraps is one of the nodes of the statement. -/
theorem mem_nodes_of_wraps {s d : Node} (h : Wraps s d) : d ∈ s.nodes := by
  induction h with
  | @bare d => exact d.mem_nodes_self
  | exported _ hc _ _ ih => exact Node.mem_nodes_of_mem_children hc ih
  | ambient _ hc _ ih =>
    exact Node.mem_nodes_of_mem_children (List.mem_filter.1 (List.mem_of_mem_head? hc)).1 ih

/-! ### Names of declarations -/

/-- The kinds of declarations that have one name, which is a child of theirs. -/
def declaresOne (kind : String) : Bool := isClassKind kind || isNamedKind kind

/-- A declaration binds a name that is a token: it stands in the place of the name, or, if variables are declared, the
first declarator binds it. -/
inductive Binds (d n : Node) : Prop where
  | one (hd : declaresOne d.kind = true) (hn : n ∈ d.children) (hfield : n.field = some .name)
    (hname : isNameKind n.kind = true)
  | first {v : Node} (hd : declaresVariables d.kind = true)
    (hv : d.namedChildren.find? (·.kind == "variable_declarator") = some v) (hn : n ∈ v.children)
    (hfield : n.field = some .name) (hname : isNameKind n.kind = true)

variable {d n : Node}

private theorem name_mem_marksOf {kind : String} (h : declaresOne kind = true) : .place .name ∈ marksOf kind := by
  unfold marksOf
  rw [if_neg (by rintro rfl; exact absurd h (by decide))]
  split
  · exact List.mem_cons_self ..
  · rename_i hclass
    rw [declaresOne, Bool.eq_false_iff.2 hclass, Bool.false_or] at h
    rw [h, Bool.true_or, if_pos rfl]
    exact List.mem_singleton_self _

theorem heritage_mem_marksOf {kind : String} (h : isClassKind kind = true) : .kind "class_heritage" ∈ marksOf kind := by
  unfold marksOf
  rw [if_neg (by rintro rfl; exact absurd h (by decide)), if_pos h]
  exact List.mem_cons_of_mem _ (List.mem_singleton_self _)

private theorem not_declaresVariables_of_declaresOne {kind : String} (h : declaresOne kind = true) :
    declaresVariables kind = false := by
  unfold declaresVariables
  rw [Bool.or_eq_false_iff]
  constructor <;> refine beq_false_of_ne ?_ <;> rintro rfl <;> exact absurd h (by decide)

/-- A child in the place of the name is found. -/
private theorem child?_name_of_mem {d : Node} (hd : d.Everywhere OnceMarked) (hmark : .place .name ∈ marksOf d.kind)
    (hn : n ∈ d.children) (hfield : n.field = some .name) : d.child? .name = some n := by
  cases hd with
  | leaf => cases hn
  | branch honce => exact find?_of_countP_le_one (honce _ hmark) hn (beq_iff_eq.2 hfield)

/-- The name that a declaration binds is found. -/
theorem nameNode?_of_binds (h : Binds d n) (hd : d.Everywhere OnceMarked) : nameNode? d = some n := by
  unfold nameNode?
  cases h with
  | one hkind hn hfield =>
    rw [if_neg (by rw [not_declaresVariables_of_declaresOne hkind]; exact Bool.false_ne_true)]
    exact child?_name_of_mem hd (name_mem_marksOf hkind) hn hfield
  | @first v hkind hv hn hfield =>
    have hvkind : v.kind = "variable_declarator" := by simpa using List.find?_some hv
    have hvmem : v ∈ d.children := (List.mem_filter.1 (List.mem_of_find?_eq_some hv)).1
    rw [if_pos hkind, hv]
    refine child?_name_of_mem (hd.of_mem_nodes (Node.mem_nodes_of_mem_children hvmem v.mem_nodes_self)) ?_ hn hfield
    rw [hvkind]
    exact List.mem_singleton_self _

/-- The kind of a declaration that binds a name is known. -/
private theorem declarationKind?_of_binds (h : Binds d n) (source : String) :
    ∃ kind, declarationKind? source d = some kind := by
  unfold declarationKind?
  cases h with
  | one hkind =>
    simp only [declaresOne, isClassKind, isNamedKind, Bool.or_eq_true, beq_iff_eq, decide_eq_true_iff, List.mem_cons,
      List.not_mem_nil, or_false] at hkind
    rcases hkind with (h | h) | h | h | h | h | h | h | h | h <;> rw [h] <;> exact ⟨_, rfl⟩
  | first hkind =>
    rw [declaresVariables, Bool.or_eq_true, beq_iff_eq, beq_iff_eq] at hkind
    rcases hkind with hkind | hkind <;> rw [hkind] <;> exact ⟨_, rfl⟩

private theorem isNameKind_of_binds (h : Binds d n) : isNameKind n.kind = true := by
  cases h with
  | one _ _ _ hname | first _ _ _ _ hname => exact hname

/-! ### Descriptions -/

/-- What is known of the declaration `d` of a certain kind in a statement, if it binds the name `n`. -/
def described (source : String) (above : Option Node) (s d n : Node) (kind : String) : Declaration where
  name := n.textIn source
  kind := kind
  nameSpan := .ofBounds n.start n.stop
  display := header (s.textIn source)
  documentation := documentation? source above s
  heritage := Analysis.heritage source d

variable {s : Node}

/-- A statement in which a declaration binds a name is described. -/
theorem ofStatement?_of_binds (hw : Wraps s d) (hn : Binds d n) (hs : s.Everywhere OnceMarked) {source kind : String}
    (hkind : declarationKind? source d = some kind) (above : Option Node) :
    Declaration.ofStatement? source above s = some (described source above s d n kind) := by
  have hd := hs.of_mem_nodes (mem_nodes_of_wraps hw)
  rw [Declaration.ofStatement?, unwrap_of_wraps hw hs, hkind, nameNode?_of_binds hn hd]
  rfl

/-- All that is described of a statement is this. -/
theorem eq_described_of_ofStatement? {source : String} {above : Option Node} {found : Declaration}
    (h : Declaration.ofStatement? source above s = some found) : ∃ n kind, nameNode? (unwrap s) = some n ∧
      declarationKind? source (unwrap s) = some kind ∧ found = described source above s (unwrap s) n kind := by
  unfold Declaration.ofStatement? at h
  obtain ⟨kind, hkind, h⟩ := Option.bind_eq_some_iff.1 h
  obtain ⟨n, hn, h⟩ := Option.bind_eq_some_iff.1 h
  exact ⟨n, kind, hn, hkind, (Option.some.inj h).symm⟩

/-- Such a statement is a construct. -/
private theorem isNamed_of_wraps (hw : Wraps s d) (hn : Binds d n) : s.isNamed = true ∧ s.kind ≠ "comment" := by
  have hbranch : ∀ {m c : Node}, c ∈ m.children → m.isNamed = true := by
    intro m c hc
    cases m with
    | leaf => cases hc
    | branch => rfl
  cases hw with
  | bare =>
    cases hn with
    | one hkind hmem =>
      refine ⟨hbranch hmem, ?_⟩
      intro hcomment
      rw [hcomment] at hkind
      exact absurd hkind (by decide)
    | first hkind hv =>
      refine ⟨hbranch (List.mem_filter.1 (List.mem_of_find?_eq_some hv)).1, ?_⟩
      intro hcomment
      rw [hcomment] at hkind
      exact absurd hkind (by decide)
  | exported hexport hc =>
    rw [hexport]
    exact ⟨hbranch hc, by decide⟩
  | ambient hambient hc =>
    rw [hambient]
    exact ⟨hbranch (List.mem_filter.1 (List.mem_of_mem_head? hc)).1, by decide⟩

/-- The constructs at the top of a tree are its statements, apart from comments. -/
private theorem mem_statementsOf {tree : Node} (hs : s ∈ tree.children) (hnamed : s.isNamed = true)
    (hcomment : s.kind ≠ "comment") : ∃ above, (above, s) ∈ statementsOf tree := by
  have hzip : ((none :: tree.children.map some).zip tree.children).map Prod.snd = tree.children :=
    List.map_snd_zip (by simp)
  rw [← hzip] at hs
  obtain ⟨⟨above, s'⟩, hmem, rfl⟩ := List.mem_map.1 hs
  exact ⟨above, List.mem_filter.2 ⟨hmem, by simp [hnamed, hcomment]⟩⟩

/-- The declarations of a script are described. -/
theorem mem_declarations_of_binds {fileName source : String} (version : Version)
    (hs : s ∈ (Script.tree (dialectOf fileName) source).children) (hw : Wraps s d) (hn : Binds d n) :
    ∃ above kind, declarationKind? source d = some kind ∧
      described source above s d n kind ∈ (ParsedScript.read fileName version source).declarations := by
  obtain ⟨hnamed, hcomment⟩ := isNamed_of_wraps hw hn
  obtain ⟨above, hmem⟩ := mem_statementsOf hs hnamed hcomment
  obtain ⟨kind, hkind⟩ := declarationKind?_of_binds hn source
  have honce := (Script.onceMarked_tree (dialectOf fileName) source).of_mem_nodes
    (Node.mem_nodes_of_mem_children hs s.mem_nodes_self)
  exact ⟨above, kind, hkind, List.mem_filterMap.2 ⟨(above, s), hmem, ofStatement?_of_binds hw hn honce hkind above⟩⟩

/-- A name that a declaration in a statement binds is one of the nodes of the statement. -/
private theorem mem_nodes_of_binds (hw : Wraps s d) (hn : Binds d n) : n ∈ s.nodes := by
  refine Node.mem_nodes_trans (mem_nodes_of_wraps hw) ?_
  cases hn with
  | one _ hmem => exact Node.mem_nodes_of_mem_children hmem n.mem_nodes_self
  | first _ hv hmem =>
    refine Node.mem_nodes_of_mem_children (List.mem_filter.1 (List.mem_of_find?_eq_some hv)).1 ?_
    exact Node.mem_nodes_of_mem_children hmem n.mem_nodes_self

/-! ### Statements and their names -/

private theorem mem_nodes_unwrap (s : Node) : unwrap s ∈ s.nodes := by
  induction s using Node.induction with
  | leaf =>
    rw [unwrap]
    exact Node.mem_nodes_self _
  | branch kind place start stop children ih =>
    have hfound : ∀ p : Node → Bool, ((children.find? p).map unwrap).getD (.branch kind place start stop children) ∈
        (Node.branch kind place start stop children).nodes := by
      intro p
      cases hfind : children.find? p with
      | none => exact Node.mem_nodes_self _
      | some c =>
        have hc := List.mem_of_find?_eq_some hfind
        exact Node.mem_nodes_of_mem_children hc (ih c hc)
    rw [unwrap, unwrapDeclarationField_eq, unwrapFirstConstruct_eq]
    split
    · exact hfound _
    · split
      · exact hfound _
      · exact Node.mem_nodes_self _

private theorem mem_nodes_nameNode? {d n : Node} (h : nameNode? d = some n) : n ∈ d.nodes := by
  have hchild : ∀ {d : Node}, d.child? .name = some n → n ∈ d.nodes :=
    fun h => Node.mem_nodes_of_mem_children (List.mem_of_find?_eq_some h) n.mem_nodes_self
  unfold nameNode? at h
  split at h
  · obtain ⟨v, hv, h⟩ := Option.bind_eq_some_iff.1 h
    exact Node.mem_nodes_of_mem_children (List.mem_filter.1 (List.mem_of_find?_eq_some hv)).1 (hchild h)
  · exact hchild h

/-- Statements that declare a name at the same place are the same. -/
private theorem eq_of_same_name {tree s s' n n' : Node} (htidy : tree.Tidy isNameKind) (hs : s ∈ tree.children)
    (hs' : s' ∈ tree.children) (hn : n ∈ s.nodes) (hn' : n' ∈ s'.nodes) (hname : isNameKind n.kind = true)
    (hspan : Span.ofBounds n'.start n'.stop = .ofBounds n.start n.stop) : s' = s := by
  cases htidy with
  | leaf => cases hs
  | branch hkind horder hchildren =>
    obtain ⟨hntidy, hstart, hstop⟩ := (hchildren s hs).of_mem_nodes hn
    obtain ⟨-, hstart', hstop'⟩ := (hchildren s' hs').of_mem_nodes hn'
    obtain ⟨-, -, hlt⟩ := hntidy.of_isName hname
    obtain ⟨hsame, hlength⟩ : n'.start = n.start ∧ n'.stop - n'.start = n.stop - n.start := (Span.mk.injEq ..).mp hspan
    exact horder.eq_of_overlap hs' hs (by omega) (by omega)

/-- What is described with the name that a declaration binds is that declaration. -/
theorem eq_described_of_span {fileName source : String} {version : Version}
    (hs : s ∈ (Script.tree (dialectOf fileName) source).children) (hw : Wraps s d) (hn : Binds d n)
    {found : Declaration} (hfound : found ∈ (ParsedScript.read fileName version source).declarations)
    (hspan : found.nameSpan = .ofBounds n.start n.stop) :
    ∃ above kind, found = described source above s d n kind := by
  have htree := Script.onceMarked_tree (dialectOf fileName) source
  obtain ⟨⟨above, s'⟩, hs', hfound⟩ := List.mem_filterMap.1 hfound
  obtain ⟨n', kind, hn', -, rfl⟩ := eq_described_of_ofStatement? hfound
  have hmem := Node.mem_nodes_trans (mem_nodes_unwrap s') (mem_nodes_nameNode? hn')
  obtain rfl := eq_of_same_name (Script.tidy_tree (dialectOf fileName) source) hs
    (List.of_mem_zip (List.mem_filter.1 hs').1).2 (mem_nodes_of_binds hw hn) hmem (isNameKind_of_binds hn) hspan
  have hd := htree.of_mem_nodes (Node.mem_nodes_of_mem_children hs (mem_nodes_of_wraps hw))
  rw [unwrap_of_wraps hw (htree.of_mem_nodes (Node.mem_nodes_of_mem_children hs s'.mem_nodes_self))] at hn' ⊢
  obtain rfl := Option.some.inj (hn'.symm.trans (nameNode?_of_binds hn hd))
  exact ⟨above, kind, rfl⟩

namespace SyntaxEngine

variable {view : ScriptView} {e : SyntaxEngine} {fileName source : String}

/-- A script with a version and a text is given as it is read from that text. -/
theorem given_of_consistent (he : Consistent view e) (htracked : view.version fileName ≠ untracked)
    (hsource : view.snapshot fileName = some source) :
    given view e fileName = some (.read fileName (view.version fileName) source) := by
  rw [given, ensure_answer he, ScriptView.script?, if_neg htracked, hsource]
  rfl

/-- The scripts that are searched are those that are given. -/
theorem mem_searched {s : String → Option ParsedScript} {first : String} {script : ParsedScript} :
    (fileName, script) ∈ searched view s first ↔ fileName ∈ searchOrder view first ∧ s fileName = some script := by
  rw [searched, List.mem_filterMap]
  constructor
  · rintro ⟨name, hname, hscript⟩
    obtain ⟨script', hgiven, heq⟩ := Option.map_eq_some_iff.1 hscript
    obtain ⟨rfl, rfl⟩ := Prod.mk.inj heq
    exact ⟨hname, hgiven⟩
  · rintro ⟨hname, hscript⟩
    exact ⟨fileName, hname, by rw [hscript]; rfl⟩

/-- Whatever is asked about a name that a declaration at the top of a script binds, bare or behind words that export or
declare it: the definitions of the name include the place where it is bound.  The byte is passed to the tree in 32 bits.
-/
theorem definitions_of_binding (he : Consistent view e) (htracked : view.version fileName ≠ untracked)
    (hsource : view.snapshot fileName = some source)
    (hs : s ∈ (Script.tree (dialectOf fileName) source).children) (hw : Wraps s d) (hn : Binds d n) {offset : Nat}
    (hstart : n.start ≤ offset) (hstop : offset < n.stop) (hoffset : offset < Nat.pow 2 32) :
    ∃ definitions, (engine.definitions view fileName offset e).1 = some definitions ∧
      ∃ found ∈ definitions, found.fileName = fileName ∧ found.span = .ofBounds n.start n.stop ∧
        found.name = n.textIn source := by
  have hgiven := given_of_consistent he htracked hsource
  have hname : names source (n.textIn source) n = true := by
    rw [names, isNameKind_of_binds hn, beq_self_eq_true]
    rfl
  have htarget : nameAt (given view e) fileName offset = some ⟨n.textIn source, .ofBounds n.start n.stop⟩ := by
    rw [nameAt, hgiven, Option.bind_some]
    exact target?_of_names (Node.mem_nodes_of_mem_children hs (mem_nodes_of_binds hw hn)) hname hstart hstop hoffset
  obtain ⟨above, kind, -, hmem⟩ := mem_declarations_of_binds (view.version fileName) hs hw hn
  have hdeclared : (fileName, described source above s d n kind) ∈
      declared view (given view e) fileName (n.textIn source) := by
    refine List.mem_flatMap.2 ⟨_, mem_searched.2 ⟨List.mem_cons_self .., hgiven⟩, ?_⟩
    exact List.mem_map.2 ⟨_, List.mem_filter.2 ⟨hmem, beq_self_eq_true _⟩, rfl⟩
  have hanswer := (Answers.definitionsAt fileName offset e (s := given view e) rfl).1
  rw [htarget, Option.bind_some] at hanswer
  exact ⟨_, hanswer, _, List.mem_map_of_mem hdeclared, rfl, rfl, rfl⟩

/-- The first of two variables is found behind two words with a comment between them. -/
theorem definitions_of_binding_exported : ∃ (view : ScriptView) (source : String) (s d n : Node)
    (definitions : List Definition),
    Consistent view fresh ∧ view.version "/a.ts" ≠ untracked ∧ view.snapshot "/a.ts" = some source ∧
      source = "export /* one */ declare const a: number, b: string;" ∧
      s ∈ (Script.tree (dialectOf "/a.ts") source).children ∧ s.kind = "export_statement" ∧ Wraps s d ∧ Binds d n ∧
      n.start ≤ 31 ∧ 31 < n.stop ∧ (engine.definitions view "/a.ts" 31 fresh).1 = some definitions ∧
      ∃ found ∈ definitions, found.fileName = "/a.ts" ∧ found.span = .ofBounds n.start n.stop ∧
        found.name = n.textIn source := by
  let source := "export /* one */ declare const a: number, b: string;"
  let view : ScriptView :=
    { names := ["/a.ts"]
      version := fun name => if name = "/a.ts" then 1 else untracked
      snapshot := fun name => if name = "/a.ts" then some source else none }
  have hparse : ((Script.tree (dialectOf "/a.ts") source).children.any fun s => s.kind == "export_statement" &&
      s.children.any fun c => c.field == some .declaration && c.kind == "ambient_declaration" &&
        c.namedChildren.head?.any fun d => d.kind == "lexical_declaration" &&
          (d.namedChildren.find? (·.kind == "variable_declarator")).any fun v => v.children.any fun n =>
            n.field == some .name && isNameKind n.kind && n.start == 31 && n.stop == 32) = true := by
    decide +kernel
  simp only [List.any_eq_true, Option.any_eq_true, Bool.and_eq_true, beq_iff_eq] at hparse
  obtain ⟨s, hs, hexport, c, hc, ⟨hfield, hambient⟩, d, hd, hkind, v, hv, n, hn, ⟨⟨hplace, hname⟩, hstart⟩, hstop⟩ :=
    hparse
  have hlexical : declaresVariables d.kind = true := by rw [hkind]; rfl
  have hw : Wraps s d :=
    .exported hexport hc hfield (.ambient hambient hd (.bare (by rw [hkind]; decide) (by rw [hkind]; decide)))
  have hb : Binds d n := .first hlexical hv hn hplace hname
  have he : Consistent view fresh := consistent_fresh view
  have htracked : view.version "/a.ts" ≠ untracked := by decide
  have hle : n.start ≤ 31 := hstart.le
  have hlt : 31 < n.stop := by omega
  obtain ⟨definitions, hdefinitions, hfound⟩ := definitions_of_binding he htracked rfl hs hw hb hle hlt (by decide)
  exact ⟨view, source, s, d, n, definitions, he, htracked, rfl, rfl, hs, hexport, hw, hb, hle, hlt, hdefinitions,
    hfound⟩

/-- Of the variables of one statement only the first is found: about the second there is no definition. -/
theorem not_definitions_of_second_declarator : ∃ (view : ScriptView) (source : String) (s v n : Node),
    view.version "/a.ts" ≠ untracked ∧ view.snapshot "/a.ts" = some source ∧ source = "let a = 1, b = 2;" ∧
      s ∈ (Script.tree (dialectOf "/a.ts") source).children ∧ s.kind = "lexical_declaration" ∧
      v ∈ s.namedChildren ∧ v.kind = "variable_declarator" ∧ n ∈ v.children ∧ n.field = some .name ∧
      n.kind = "identifier" ∧ (engine.definitions view "/a.ts" n.start fresh).1 = some [] := by
  let source := "let a = 1, b = 2;"
  let view : ScriptView :=
    { names := ["/a.ts"]
      version := fun name => if name = "/a.ts" then 1 else untracked
      snapshot := fun name => if name = "/a.ts" then some source else none }
  have hparse : ((Script.tree (dialectOf "/a.ts") source).children.any fun s => s.kind == "lexical_declaration" &&
      s.namedChildren.any fun v => v.kind == "variable_declarator" && v.children.any fun n =>
        n.field == some .name && n.kind == "identifier" && n.start == 11) = true := by
    decide +kernel
  have hanswer : (engine.definitions view "/a.ts" 11 fresh).1 = some [] := by decide +kernel
  simp only [List.any_eq_true, Bool.and_eq_true, beq_iff_eq] at hparse
  obtain ⟨s, hs, hkind, v, hv, hvkind, n, hn, ⟨hfield, hnkind⟩, hstart⟩ := hparse
  rw [← hstart] at hanswer
  exact ⟨view, source, s, v, n, by decide, rfl, rfl, hs, hkind, hv, hvkind, hn, hfield, hnkind, hanswer⟩

end SyntaxEngine

end ScriptHost.Analysis
