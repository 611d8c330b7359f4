import ScriptHost.Imports.Scan
import ScriptHost.Proofs.Syntax.TidyTree

/-!
# What is collected in a tree

The imports of a script and the references to a name in it are collected by walks over its tree with a stack of pending
constructs.  These walks end, and they collect what a recursion over the tree does, in the same order
(`collected_in_preorder`).  In the tree of a text this is the order of the text (`pairwise_offset_scan`,
`pairwise_start_references_read`).
-/

namespace ScriptHost.Analysis.SyntaxEngine

open ScriptHost.Syntax ScriptHost.Imports

/-- The reference to a name that a node below a certain parent is. -/
def reference? (script : ParsedScript) (name : String) (parent : Option Node) (n : Node) : Option Reference :=
  if isNameKind n.kind && n.textIn script.source == name then
    some ⟨script.unit.fileName, .ofBounds n.start n.stop, namesParent parent n⟩
  else none

variable {source name : String} {script : ParsedScript} {root n : Node} {parent : Option Node}

private theorem offset_of_specifierAt? {i : Specifier} (h : specifierAt? source n = some i) : i.offset = n.start := by
  have hsource : ∀ {form : Form}, fromSource source n form = some i → i.offset = n.start := by
    intro form hfrom
    obtain ⟨literal, -, hfrom⟩ := Option.bind_eq_some_iff.1 hfrom
    obtain ⟨value, -, hfrom⟩ := Option.bind_eq_some_iff.1 hfrom
    obtain rfl := Option.some.inj hfrom
    rfl
  unfold specifierAt? at h
  split at h
  · exact hsource h
  · exact hsource h
  · exact hsource h
  · obtain ⟨callee, -, h⟩ := Option.bind_eq_some_iff.1 h
    obtain ⟨form, -, h⟩ := Option.bind_eq_some_iff.1 h
    obtain ⟨arguments, -, h⟩ := Option.bind_eq_some_iff.1 h
    obtain ⟨first, -, h⟩ := Option.bind_eq_some_iff.1 h
    obtain ⟨value, -, h⟩ := Option.bind_eq_some_iff.1 h
    obtain rfl := Option.some.inj h
    rfl
  · cases h

private theorem start_of_reference? {r : Reference} (h : reference? script name parent n = some r) :
    r.span.start = n.start := by
  unfold reference? at h
  split at h
  · obtain rfl := Option.some.inj h
    rfl
  · cases h

/-- What is collected at the start of each construct of a nested tree is in the order of the text. -/
private theorem pairwise_collected {α : Type} {start : α → Nat} {found? : Option Node → Node → Option α}
    (hstart : ∀ parent n a, found? parent n = some a → start a = n.start) (h : root.Nested) :
    ((root.traversal none).filterMap fun x => found? x.1 x.2).Pairwise fun a b => start a ≤ start b := by
  have hnodes : (root :: root.children.flatMap Node.nodes).Pairwise fun a b => a.start ≤ b.start := by
    rw [← Node.nodes_eq]
    exact Node.Tidy.pairwise_start h
  have hmet : ((root.traversal none).map Prod.snd).Pairwise fun a b => a.start ≤ b.start := by
    rw [Node.map_snd_traversal]
    exact hnodes.sublist (List.filter_sublist.cons_cons root)
  rw [List.pairwise_filterMap]
  refine (List.pairwise_map.1 hmet).imp ?_
  intro x y hxy a ha b hb
  rw [hstart _ _ a ha, hstart _ _ b hb]
  exact hxy

private theorem collect_eq (source : String) (root : Node) :
    collect source root = (root.traversal none).filterMap fun x => specifierAt? source x.2 := by
  rw [← Node.walk_eq_traversal]
  rfl

private theorem references_eq (script : ParsedScript) (name : String) :
    ParsedScript.references script name =
      (script.tree.traversal none).filterMap fun x => reference? script name x.1 x.2 := by
  rw [← Node.walk_eq_traversal]
  rfl

private theorem pairwise_offset_collect (h : root.Nested) (source : String) :
    (collect source root).Pairwise fun i j => i.offset ≤ j.offset := by
  rw [collect_eq]
  exact pairwise_collected (fun _ _ _ => offset_of_specifierAt?) h

private theorem pairwise_start_references (h : script.tree.Nested) (name : String) :
    (ParsedScript.references script name).Pairwise fun r r' => r.span.start ≤ r'.span.start := by
  rw [references_eq]
  exact pairwise_collected (fun _ _ _ => start_of_reference?) h

/-- A walk with a stack of pending constructs ends after as many steps as a recursion meets constructs, and until then
the first of them is the one that the recursion meets next: the root, and each construct below it once, in the place
that it has among all nodes.  So the imports and the references that are collected are those that a recursion finds, in
the same order; and if the nodes are nested, that is the order of the text. -/
theorem collected_in_preorder (source : String) (root : Node) (script : ParsedScript) (name : String) :
    (∀ steps, Node.advance^[steps] [(none, root)] = [] ↔ (root.traversal none).length ≤ steps) ∧
      (∀ steps, (Node.advance^[steps] [(none, root)]).head? = (root.traversal none)[steps]?) ∧
      (root.traversal none).map Prod.snd = root :: (root.children.flatMap Node.nodes).filter Node.isNamed ∧
      collect source root = (root.traversal none).filterMap (fun x => specifierAt? source x.2) ∧
      ParsedScript.references script name =
        (script.tree.traversal none).filterMap (fun x => reference? script name x.1 x.2) ∧
      (root.Nested → (collect source root).Pairwise fun i j => i.offset ≤ j.offset) ∧
      (script.tree.Nested →
        (ParsedScript.references script name).Pairwise fun r r' => r.span.start ≤ r'.span.start) := by
  refine ⟨?_, ?_, Node.map_snd_traversal none root, collect_eq source root, references_eq script name, ?_, ?_⟩
  · intro steps
    rw [Node.iterate_advance_eq_nil_iff, Node.outstanding_root]
  · intro steps
    rw [Node.head?_iterate_advance, Node.outstanding_root]
  · intro h
    exact pairwise_offset_collect h source
  · intro h
    exact pairwise_start_references h name

/-- In a script with a call of `import` behind an import statement both imports are collected in the order of the text,
and so are the references to a name within one another. -/
theorem collected_in_preorder_of_calls : ∃ (source : String) (root : Node) (script : ParsedScript),
    source = "import 'a'; f(f(import('b')));" ∧ root = Script.tree .plain source ∧
      script = .read "/a.ts" 1 source ∧ root.Nested ∧ script.tree.Nested ∧
      collect source root = [⟨"a", .static, 0⟩, ⟨"b", .dynamic, 16⟩] ∧
      (collect source root).Pairwise (fun i j => i.offset ≤ j.offset) ∧
      (ParsedScript.references script "f").map (·.span.start) = [12, 14] ∧
      (ParsedScript.references script "f").Pairwise fun r r' => r.span.start ≤ r'.span.start := by
  let source := "import 'a'; f(f(import('b')));"
  have himports : collect source (Script.tree .plain source) = [⟨"a", .static, 0⟩, ⟨"b", .dynamic, 16⟩] := by
    decide +kernel
  have hreferences : (ParsedScript.references (.read "/a.ts" 1 source) "f").map (·.span.start) = [12, 14] := by
    decide +kernel
  have hroot : (Script.tree .plain source).Nested := (Script.tidy_tree .plain source).nested
  have htree : (ParsedScript.read "/a.ts" 1 source).tree.Nested := (Script.tidy_tree _ source).nested
  obtain ⟨-, -, -, -, -, hoffsets, hstarts⟩ :=
    collected_in_preorder source (Script.tree .plain source) (.read "/a.ts" 1 source) "f"
  exact ⟨source, _, _, rfl, rfl, rfl, hroot, htree, himports, hoffsets hroot, hreferences, hstarts htree⟩

/-! ### The order of the text -/

theorem pairwise_offset_scan (source : String) : (scan source).Pairwise fun i j => i.offset ≤ j.offset :=
  pairwise_offset_collect (Script.tidy_tree .plain source).nested source

theorem pairwise_start_references_read (fileName : String) (version : Version) (source name : String) :
    (ParsedScript.references (.read fileName version source) name).Pairwise fun r r' =>
      r.span.start ≤ r'.span.start :=
  pairwise_start_references (Script.tidy_tree _ source).nested name

end ScriptHost.Analysis.SyntaxEngine
