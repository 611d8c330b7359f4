import Mathlib.Data.List.Forall2
import ScriptHost.Imports.Scan
import ScriptHost.Proofs.Syntax.Walk

/-!
# Imports and comments

Comments may be put between the tokens of a script.  They become constructs of their own, and the rest of the tree
stays as it is (`Annotated`).  What the script imports is then found again, except by a call that gets a comment before
the name of the module (`imported_annotated`): the first construct that the call is given is now the comment.
-/

namespace ScriptHost.Imports

open ScriptHost.Syntax

/-! ### Trees with more comments -/

/-- Whether a node is a comment. -/
def isComment : Node → Bool
  | .leaf kind named place _ _ => kind == "comment" && named && place == none
  | .branch .. => false

private theorem eq_leaf_of_isComment {c : Node} (h : isComment c = true) :
    ∃ start text, c = .leaf "comment" true none start text := by
  cases c with
  | leaf kind named place start text =>
    simp only [isComment, Bool.and_eq_true, beq_iff_eq] at h
    obtain ⟨⟨rfl, rfl⟩, rfl⟩ := h
    exact ⟨start, text, rfl⟩
  | branch => cases h

/-- Whether the text of a construct matters where imports are looked for. -/
def isSpelled (kind : String) : Bool := kind == "identifier" || kind == "string"

mutual

/-- Whether the second node is the first one with comments put in.  The two may stand anywhere in their texts. -/
def annotates (source source' : String) : Node → Node → Bool
  | .leaf kind named place _ text, .leaf kind' named' place' _ text' =>
    kind == kind' && named == named' && place == place' && text == text'
  | n@(.branch kind place _ _ children), n'@(.branch kind' place' _ _ children') =>
    kind == kind' && place == place' && (!isSpelled kind || n.textIn source == n'.textIn source') &&
      annotatesAll source source' children children'
  | _, _ => false

/-- Whether the latter nodes are the former with comments put between and into them. -/
def annotatesAll (source source' : String) : List Node → List Node → Bool
  | [], [] => true
  | _ :: _, [] => false
  | [], c :: rest' => isComment c && annotatesAll source source' [] rest'
  | n :: rest, n' :: rest' =>
    annotates source source' n n' && annotatesAll source source' rest rest' ||
      isComment n' && annotatesAll source source' (n :: rest) rest'

end

/-- Whether the second script is the first one with comments put between the tokens: the comments are constructs of their
own, and else the tree is kept. -/
def Annotated (source source' : String) : Prop :=
  annotates source source' (Script.tree .plain source) (Script.tree .plain source') = true

instance (source source' : String) : Decidable (Annotated source source') := inferInstanceAs (Decidable (_ = true))

variable {source source' : String} {n n' : Node} {nodes nodes' : List Node}

/-- What holds of no nodes, and goes on to hold if a comment is put in front of the latter, or a node in front of both,
holds if comments are put between nodes. -/
private theorem annotatesAll_induction {motive : List Node → List Node → Prop} (nil : motive [] [])
    (comment : ∀ c nodes nodes', isComment c = true → motive nodes nodes' → motive nodes (c :: nodes'))
    (cons : ∀ n n' nodes nodes', annotates source source' n n' = true → motive nodes nodes' →
      motive (n :: nodes) (n' :: nodes'))
    (h : annotatesAll source source' nodes nodes' = true) : motive nodes nodes' := by
  induction nodes' generalizing nodes with
  | nil =>
    cases nodes with
    | nil => exact nil
    | cons n rest => cases h
  | cons n' rest' ih =>
    cases nodes with
    | nil =>
      rw [annotatesAll, Bool.and_eq_true] at h
      exact comment _ _ _ h.1 (ih h.2)
    | cons n rest =>
      rw [annotatesAll, Bool.or_eq_true, Bool.and_eq_true, Bool.and_eq_true] at h
      rcases h with h | h
      · exact cons _ _ _ _ h.1 (ih h.2)
      · exact comment _ _ _ h.1 (ih h.2)

/-- What is asked of a node where imports are looked for is the same of two nodes, and below there may be more comments.
-/
structure Alike (source source' : String) (n n' : Node) : Prop where
  kind : n'.kind = n.kind
  isNamed : n'.isNamed = n.isNamed
  field : n'.field = n.field
  isComment : isComment n' = isComment n
  textIn : isSpelled n.kind = true → n'.textIn source' = n.textIn source
  children : annotatesAll source source' n.children n'.children = true

private theorem alike_of_annotates (h : annotates source source' n n' = true) : Alike source source' n n' := by
  cases n with
  | leaf kind named place start text =>
    cases n' with
    | leaf kind' named' place' start' text' =>
      simp only [annotates, Bool.and_eq_true, beq_iff_eq] at h
      obtain ⟨⟨⟨rfl, rfl⟩, rfl⟩, rfl⟩ := h
      exact ⟨rfl, rfl, rfl, rfl, fun _ => rfl, rfl⟩
    | branch => cases h
  | branch kind place start stop children =>
    cases n' with
    | leaf => cases h
    | branch kind' place' start' stop' children' =>
      simp only [annotates, Bool.and_eq_true, beq_iff_eq, Bool.or_eq_true, Bool.not_eq_true'] at h
      obtain ⟨⟨⟨rfl, rfl⟩, htext⟩, hchildren⟩ := h
      refine ⟨rfl, rfl, rfl, rfl, fun hspelled => ?_, hchildren⟩
      rcases htext with htext | htext
      · exact absurd (htext.symm.trans hspelled) Bool.false_ne_true
      · exact htext.symm

/-- The first node of a sort that comments are not of stays the first one. -/
private theorem find?_annotatesAll {p : Node → Bool} (h : annotatesAll source source' nodes nodes' = true)
    (hcomment : ∀ c, isComment c = true → p c = false)
    (hp : ∀ n n', Alike source source' n n' → p n' = p n) :
    Option.Rel (annotates source source' · · = true) (nodes.find? p) (nodes'.find? p) := by
  refine annotatesAll_induction (motive := fun nodes nodes' =>
      Option.Rel (annotates source source' · · = true) (nodes.find? p) (nodes'.find? p))
    .none (fun c nodes nodes' hc ih => ?_) (fun n n' nodes nodes' hn ih => ?_) h
  · rwa [List.find?_cons_of_neg (by rw [hcomment c hc]; exact Bool.false_ne_true)]
  · have hsame := hp n n' (alike_of_annotates hn)
    cases hpn : p n with
    | true =>
      rw [List.find?_cons_of_pos hpn, List.find?_cons_of_pos (hsame.trans hpn)]
      exact .some hn
    | false =>
      rw [List.find?_cons_of_neg (by simp [hpn]), List.find?_cons_of_neg (by simp [hsame, hpn])]
      exact ih

private theorem child?_annotates (h : annotates source source' n n' = true) (f : Field) :
    Option.Rel (annotates source source' · · = true) (n.child? f) (n'.child? f) := by
  refine find?_annotatesAll (alike_of_annotates h).children (fun c hc => ?_) (fun n n' hn => ?_)
  · obtain ⟨start, text, rfl⟩ := eq_leaf_of_isComment hc
    rfl
  · rw [hn.field]

/-- The first construct below a node that is no comment stays the first one. -/
private theorem find?_namedChildren (h : annotates source source' n n' = true) :
    Option.Rel (annotates source source' · · = true) (n.namedChildren.find? (!isComment ·))
      (n'.namedChildren.find? (!isComment ·)) := by
  rw [Node.namedChildren, Node.namedChildren, List.find?_filter, List.find?_filter]
  refine find?_annotatesAll (alike_of_annotates h).children (fun c hc => ?_) (fun n n' hn => ?_)
  · simp [hc]
  · simp [hn.isNamed, hn.isComment]

/-- If the first construct below a node is a comment, there is still a comment in front. -/
private theorem any_head?_namedChildren (h : annotates source source' n n' = true)
    (hfirst : n.namedChildren.head?.any isComment = true) : n'.namedChildren.head?.any isComment = true := by
  rw [Node.namedChildren, List.head?_filter] at hfirst ⊢
  refine annotatesAll_induction (motive := fun nodes nodes' =>
      (nodes.find? Node.isNamed).any isComment = true → (nodes'.find? Node.isNamed).any isComment = true)
    id (fun c nodes nodes' hc _ _ => ?_) (fun n n' nodes nodes' hn ih hfirst => ?_)
    (alike_of_annotates h).children hfirst
  · obtain ⟨start, text, rfl⟩ := eq_leaf_of_isComment hc
    rfl
  · have hn := alike_of_annotates hn
    cases hnamed : n.isNamed with
    | true =>
      rw [List.find?_cons_of_pos hnamed] at hfirst
      rw [List.find?_cons_of_pos (hn.isNamed.trans hnamed)]
      exact hn.isComment.trans hfirst
    | false =>
      rw [List.find?_cons_of_neg (by simp [hnamed])] at hfirst
      rw [List.find?_cons_of_neg (by simp [hn.isNamed, hnamed])]
      exact ih hfirst

/-! ### Imports behind comments -/

/-- What is named and how it is imported. -/
def Specifier.entry (i : Specifier) : String × Form := (i.name, i.form)

/-- The module that a call imports if its name is what `first?` finds among the constructs that the call is given. -/
def callSpecifier? (source : String) (first? : List Node → Option Node) (n : Node) : Option Specifier := do
  let form ← callForm? source (← n.child? .function)
  let first ← first? (← n.child? .arguments).namedChildren
  return ⟨← stringValue? source first, form, n.start⟩

/-- The module that a construct imports by itself, if comments between its parts are passed over. -/
def bareSpecifierAt? (source : String) (n : Node) : Option Specifier :=
  if n.kind = "call_expression" then callSpecifier? source (·.find? (!isComment ·)) n else specifierAt? source n

/-- Whether a construct is a call that has a comment before everything that it is given. -/
def opensWithComment (n : Node) : Bool :=
  n.kind == "call_expression" && ((n.child? .arguments).bind (·.namedChildren.head?)).any isComment

/-- What a script imports, in the order of the text. -/
def imported (source : String) : List (String × Form) := (scan source).map Specifier.entry

/-- What the calls that have a comment before the name of the module would import without it. -/
def hiddenImports (source : String) : List (String × Form) :=
  (Script.tree .plain source).nodes.filterMap fun n =>
    if opensWithComment n then (bareSpecifierAt? source n).map Specifier.entry else none

private theorem stringValue?_of_isComment (source : String) (h : isComment n = true) :
    stringValue? source n = none := by
  obtain ⟨start, text, rfl⟩ := eq_leaf_of_isComment h
  rfl

private theorem head?_eq_find? (h : nodes.head?.any isComment = false) : nodes.head? = nodes.find? (!isComment ·) := by
  cases nodes with
  | nil => rfl
  | cons n rest => exact (List.find?_cons_of_pos (by rw [show isComment n = false from h]; rfl)).symm

private theorem specifierAt?_of_call (source : String) (hkind : n.kind = "call_expression") :
    specifierAt? source n = callSpecifier? source List.head? n := by
  rw [specifierAt?, hkind]
  rfl

/-- A construct imports what it imports if comments are passed over, unless a comment hides it. -/
private theorem specifierAt?_eq (source : String) (n : Node) :
    specifierAt? source n = if opensWithComment n then none else bareSpecifierAt? source n := by
  unfold bareSpecifierAt? opensWithComment
  by_cases hkind : n.kind = "call_expression"
  · rw [if_pos hkind, specifierAt?_of_call source hkind, beq_iff_eq.2 hkind, Bool.true_and]
    unfold callSpecifier?
    cases n.child? .arguments with
    | none => simp
    | some arguments =>
      cases hfirst : arguments.namedChildren.head?.any isComment with
      | false =>
        rw [if_neg (by rw [Option.bind_some, hfirst]; exact Bool.false_ne_true)]
        simp only [Option.bind_eq_bind, Option.bind_some, head?_eq_find? hfirst]
      | true =>
        obtain ⟨first, hhead, hcomment⟩ := (Option.any_eq_true _ _).1 hfirst
        rw [if_pos (by rw [Option.bind_some]; exact hfirst)]
        simp [hhead, stringValue?_of_isComment source hcomment]
  · rw [if_neg hkind, beq_eq_false_iff_ne.2 hkind, Bool.false_and, if_neg Bool.false_ne_true]

/-- The import that a construct makes if comments are passed over, and whether a comment hides it. -/
def candidate? (source : String) (n : Node) : Option ((String × Form) × Bool) :=
  (bareSpecifierAt? source n).map fun i => (i.entry, opensWithComment n)

/-- The imports of a script if comments are passed over, each with whether a comment hides it. -/
def candidates (source : String) : List ((String × Form) × Bool) :=
  (Script.tree .plain source).nodes.filterMap (candidate? source)

private theorem specifierAt?_leaf (source kind : String) (named : Bool) (place : Option Field) (start : Nat)
    (text : String) : specifierAt? source (.leaf kind named place start text) = none := by
  unfold specifierAt?
  split <;> rfl

private theorem candidate?_leaf (source kind : String) (named : Bool) (place : Option Field) (start : Nat)
    (text : String) : candidate? source (.leaf kind named place start text) = none := by
  unfold candidate? bareSpecifierAt?
  split
  · rfl
  · rw [specifierAt?_leaf, Option.map_none]

private theorem filterMap_nodes_of_isComment (h : isComment n = true) : n.nodes.filterMap (candidate? source) = [] := by
  obtain ⟨start, text, rfl⟩ := eq_leaf_of_isComment h
  rw [Node.nodes, List.filterMap_cons_none (candidate?_leaf ..), List.filterMap_nil]

/-- The imports that no comment hides are those that the scan finds. -/
private theorem imported_eq (source : String) : imported source = ((candidates source).filter (!·.2)).map Prod.fst := by
  -- tokens that are no constructs import nothing
  have hnamed : ∀ n ∈ (Script.tree .plain source).nodes,
      (if n.isNamed then specifierAt? source n else none) = specifierAt? source n := by
    intro n _
    cases n with
    | leaf => rw [specifierAt?_leaf, ite_self]
    | branch => rfl
  calc imported source
      = ((Script.tree .plain source).walk.filterMap (specifierAt? source ∘ Prod.snd)).map Specifier.entry := rfl
    _ = ((Script.tree .plain source).nodes.filterMap (specifierAt? source)).map Specifier.entry := by
        rw [← List.filterMap_map, Node.map_snd_walk rfl, List.filterMap_filter, List.filterMap_congr hnamed]
    _ = ((candidates source).filter (!·.2)).map Prod.fst := by
        rw [candidates, List.filter_filterMap, List.map_filterMap, List.map_filterMap]
        refine List.filterMap_congr fun n _ => ?_
        rw [specifierAt?_eq, candidate?]
        cases opensWithComment n <;> cases bareSpecifierAt? source n <;> rfl

private theorem hiddenImports_eq (source : String) :
    hiddenImports source = ((candidates source).filter (·.2)).map Prod.fst := by
  rw [hiddenImports, candidates, List.filter_filterMap, List.map_filterMap]
  refine List.filterMap_congr fun n _ => ?_
  rw [candidate?]
  cases opensWithComment n <;> cases bareSpecifierAt? source n <;> rfl

/-! ### Imports in trees with more comments -/

private theorem stringValue?_alike (h : Alike source source' n n') :
    stringValue? source' n' = stringValue? source n := by
  unfold stringValue?
  rw [h.kind]
  split
  next hkind => rw [h.textIn (by rw [hkind]; rfl)]
  next => rfl

private theorem callForm?_alike (h : Alike source source' n n') : callForm? source' n' = callForm? source n := by
  unfold callForm?
  rw [h.kind]
  by_cases hkind : n.kind = "identifier"
  · rw [h.textIn (by rw [hkind]; rfl)]
  · simp only [hkind, false_and]

private theorem bind_eq_of_rel {α β γ : Type} {r : α → β → Prop} {a : Option α} {b : Option β} {f : α → Option γ}
    {g : β → Option γ} (h : Option.Rel r a b) (hfg : ∀ x y, r x y → g y = f x) : b.bind g = a.bind f := by
  cases h with
  | none => rfl
  | some h => exact hfg _ _ h

private theorem entry_fromSource (h : annotates source source' n n' = true) (form : Form) :
    (fromSource source' n' form).map Specifier.entry = (fromSource source n form).map Specifier.entry := by
  unfold fromSource
  simp only [Option.bind_eq_bind, Option.map_bind]
  refine bind_eq_of_rel (child?_annotates h .source) fun c c' hc => ?_
  rw [Function.comp_apply, Function.comp_apply, stringValue?_alike (alike_of_annotates hc)]
  cases stringValue? source c <;> rfl

/-- What is imported apart from comments does not change if comments are put in. -/
private theorem entry_bareSpecifierAt? (h : annotates source source' n n' = true) :
    (bareSpecifierAt? source' n').map Specifier.entry = (bareSpecifierAt? source n).map Specifier.entry := by
  unfold bareSpecifierAt?
  rw [(alike_of_annotates h).kind]
  by_cases hkind : n.kind = "call_expression"
  · rw [if_pos hkind, if_pos hkind]
    unfold callSpecifier?
    simp only [Option.bind_eq_bind, Option.map_bind]
    refine bind_eq_of_rel (child?_annotates h .function) fun callee callee' hcallee => ?_
    rw [Function.comp_apply, Function.comp_apply, callForm?_alike (alike_of_annotates hcallee)]
    cases callForm? source callee with
    | none => rfl
    | some form =>
      simp only [Option.bind_some, Option.map_bind]
      refine bind_eq_of_rel (child?_annotates h .arguments) fun given given' hgiven => ?_
      simp only [Function.comp_apply, Option.map_bind]
      refine bind_eq_of_rel (find?_namedChildren hgiven) fun first first' hfirst => ?_
      simp only [stringValue?_alike (alike_of_annotates hfirst)]
      cases stringValue? source first <;> rfl
  · rw [if_neg hkind, if_neg hkind]
    unfold specifierAt?
    rw [(alike_of_annotates h).kind]
    split
    · exact entry_fromSource h _
    · exact entry_fromSource h _
    · exact entry_fromSource h _
    · exact absurd ‹_› hkind
    · rfl

/-- A call that has a comment in front still has one. -/
private theorem opensWithComment_of_annotates (h : annotates source source' n n' = true)
    (hopens : opensWithComment n = true) : opensWithComment n' = true := by
  unfold opensWithComment at hopens ⊢
  rw [Bool.and_eq_true] at hopens ⊢
  refine ⟨(alike_of_annotates h).kind ▸ hopens.1, ?_⟩
  have hgiven := child?_annotates h .arguments
  have hfirst := hopens.2
  generalize n.child? .arguments = given at hgiven hfirst
  generalize n'.child? .arguments = given' at hgiven
  cases hgiven with
  | none => exact hfirst
  | some hgiven => exact any_head?_namedChildren hgiven hfirst

/-- The second candidate imports the same as the first one, and it is hidden if that is. -/
def NoLessHidden (x x' : (String × Form) × Bool) : Prop := x'.1 = x.1 ∧ (x.2 = true → x'.2 = true)

private theorem rel_candidate? (h : annotates source source' n n' = true) :
    Option.Rel NoLessHidden (candidate? source n) (candidate? source' n') := by
  have hentry := entry_bareSpecifierAt? h
  unfold candidate?
  cases hbare : bareSpecifierAt? source n <;> cases hbare' : bareSpecifierAt? source' n' <;>
    rw [hbare, hbare'] at hentry
  · exact .none
  · cases hentry
  · cases hentry
  · exact .some ⟨Option.some.inj hentry, opensWithComment_of_annotates h⟩

private theorem forall₂_filterMap_cons (h : annotates source source' n n' = true)
    (hrest : List.Forall₂ NoLessHidden (nodes.filterMap (candidate? source)) (nodes'.filterMap (candidate? source'))) :
    List.Forall₂ NoLessHidden ((n :: nodes).filterMap (candidate? source))
      ((n' :: nodes').filterMap (candidate? source')) := by
  have hrel := rel_candidate? h
  cases hfound : candidate? source n <;> cases hfound' : candidate? source' n' <;> rw [hfound, hfound'] at hrel
  · rwa [List.filterMap_cons_none hfound, List.filterMap_cons_none hfound']
  · cases hrel
  · cases hrel
  · rw [List.filterMap_cons_some hfound, List.filterMap_cons_some hfound']
    cases hrel with
    | some hrel => exact .cons hrel hrest

/-- Comments put into a tree leave its imports, and hide no fewer of them. -/
private theorem forall₂_candidates (h : annotates source source' n n' = true) :
    List.Forall₂ NoLessHidden (n.nodes.filterMap (candidate? source)) (n'.nodes.filterMap (candidate? source')) := by
  induction n' using Node.induction generalizing n with
  | leaf kind named place start text =>
    cases n with
    | leaf =>
      rw [Node.nodes, Node.nodes, List.filterMap_cons_none (candidate?_leaf ..),
        List.filterMap_cons_none (candidate?_leaf ..)]
      exact .nil
    | branch => cases h
  | branch kind place start stop children' ih =>
    cases n with
    | leaf => cases h
    | branch kind' place' start' stop' children =>
      rw [Node.nodes, Node.nodes, Node.nodesAll_eq_flatMap, Node.nodesAll_eq_flatMap]
      refine forall₂_filterMap_cons h ?_
      -- comments between the nodes below import nothing
      refine annotatesAll_induction (motive := fun nodes nodes' =>
          (∀ c' ∈ nodes', ∀ {c}, annotates source source' c c' = true → List.Forall₂ NoLessHidden
            (c.nodes.filterMap (candidate? source)) (c'.nodes.filterMap (candidate? source'))) →
          List.Forall₂ NoLessHidden ((nodes.flatMap Node.nodes).filterMap (candidate? source))
            ((nodes'.flatMap Node.nodes).filterMap (candidate? source')))
        (fun _ => .nil) (fun c nodes nodes' hc ih hbelow => ?_) (fun n n' nodes nodes' hn ih hbelow => ?_)
        (alike_of_annotates h).children ih
      · rw [List.flatMap_cons, List.filterMap_append, filterMap_nodes_of_isComment hc, List.nil_append]
        exact ih fun c' hc' => hbelow c' (.tail _ hc')
      · rw [List.flatMap_cons, List.flatMap_cons, List.filterMap_append, List.filterMap_append]
        exact List.rel_append (hbelow n' (.head _) hn) (ih fun c' hc' => hbelow c' (.tail _ hc'))

/-- If no fewer candidates are hidden, no more are shown. -/
private theorem sublist_of_forall₂ {xs xs' : List ((String × Form) × Bool)} (h : List.Forall₂ NoLessHidden xs xs') :
    ((xs'.filter (!·.2)).map Prod.fst).Sublist ((xs.filter (!·.2)).map Prod.fst) ∧
      ((xs.filter (·.2)).map Prod.fst).Sublist ((xs'.filter (·.2)).map Prod.fst) := by
  induction h with
  | nil => exact ⟨.refl _, .refl _⟩
  | @cons x x' xs xs' hx _ ih =>
    obtain ⟨entry, hidden⟩ := x
    obtain ⟨entry', hidden'⟩ := x'
    obtain ⟨rfl, hhidden⟩ : entry' = entry ∧ (hidden = true → hidden' = true) := hx
    cases hidden <;> cases hidden'
    · exact ⟨ih.1.cons_cons _, ih.2⟩
    · exact ⟨ih.1.cons _, ih.2.cons _⟩
    · exact absurd (hhidden rfl) Bool.false_ne_true
    · exact ⟨ih.1, ih.2.cons_cons _⟩

/-- If comments are put into a script, what is imported was imported before, and what was hidden stays hidden.  The
imports stay the same if and only if no more of them are hidden by a comment before the name of the module. -/
theorem imported_annotated (h : Annotated source source') :
    (imported source').Sublist (imported source) ∧ (hiddenImports source).Sublist (hiddenImports source') ∧
      (imported source' = imported source ↔ hiddenImports source' = hiddenImports source) := by
  have hcandidates : List.Forall₂ NoLessHidden (candidates source) (candidates source') := forall₂_candidates h
  obtain ⟨himported, hhidden⟩ := sublist_of_forall₂ hcandidates
  rw [← imported_eq, ← imported_eq] at himported
  rw [← hiddenImports_eq, ← hiddenImports_eq] at hhidden
  have hall (source : String) :
      (hiddenImports source).length + (imported source).length = (candidates source).length := by
    rw [imported_eq, hiddenImports_eq, List.length_map, List.length_map]
    exact (List.length_eq_length_filter_add _).symm
  have hlength := hcandidates.length_eq
  rw [← hall, ← hall] at hlength
  refine ⟨himported, hhidden, fun heq => ?_, fun heq => himported.eq_of_length ?_⟩
  · refine (hhidden.eq_of_length ?_).symm
    rw [heq] at hlength
    omega
  · rw [heq] at hlength
    omega

/-- Of comments in all places of imports, the one before the name in a call hides what is imported. -/
theorem imported_annotated_of_hidden_call :
    let plain := "import a from './a';\nrequire('./x');\nimport('./y');\n"
    let commented :=
      "import /* 1 */ a /* 2 */ from './a';\nrequire /* 3 */ (/* 4 */ './x');\nimport('./y' /* 5 */);\n"
    Annotated plain commented ∧
      ((imported commented).Sublist (imported plain) ∧ (hiddenImports plain).Sublist (hiddenImports commented) ∧
        (imported commented = imported plain ↔ hiddenImports commented = hiddenImports plain)) ∧
      imported plain = [("./a", .static), ("./x", .require), ("./y", .dynamic)] ∧
      imported commented = [("./a", .static), ("./y", .dynamic)] ∧
      hiddenImports commented = [("./x", .require)] := by
  intro plain commented
  have hannotated : Annotated plain commented := by decide +kernel
  exact ⟨hannotated, imported_annotated hannotated, by decide +kernel⟩

end ScriptHost.Imports
