import ScriptHost.Proofs.Syntax.Derivation
import ScriptHost.Proofs.Syntax.TidyTree

/-!
# How constructs are made

What holds of a construct because of the rule that made it holds throughout the tree of every text
(`Script.Invariant.everywhere_tree`), whether the text can be read without an error or not.  An invariant is about
constructs of some kinds, and it is about their children only as far as comments between them make no difference.  That
every rule that makes such a construct is of the right form can be seen from the grammar (`Rule.makes`).
-/

namespace ScriptHost.Syntax

/-- Every construct of a tree has a property, which is about its kind, the bytes it covers and its children. -/
inductive Node.Everywhere (R : String → Nat → Nat → List Node → Prop) : Node → Prop where
  | leaf {kind named place start text} : Everywhere R (.leaf kind named place start text)
  | branch {kind place start stop children} (h : R kind start stop children)
    (hchildren : ∀ n ∈ children, Everywhere R n) :
    Everywhere R (.branch kind place start stop children)

variable {R : String → Nat → Nat → List Node → Prop}

namespace Node.Everywhere

theorem of_mem_nodes {n m : Node} (h : n.Everywhere R) (hm : m ∈ n.nodes) : m.Everywhere R := by
  induction h with
  | leaf =>
    rw [nodes, List.mem_singleton] at hm
    exact hm ▸ .leaf
  | branch h hchildren ih =>
    rw [nodes, nodesAll_eq_flatMap, List.mem_cons, List.mem_flatMap] at hm
    rcases hm with rfl | ⟨c, hc, hm⟩
    · exact .branch h hchildren
    · exact ih c hc hm

/-- A construct with a node below it has the property. -/
theorem here {n c : Node} (h : n.Everywhere R) (hc : c ∈ n.children) : R n.kind n.start n.stop n.children := by
  cases h with
  | leaf => cases hc
  | branch h => exact h

private theorem withField {n : Node} (h : n.Everywhere R) (f : Field) : (n.withField f).Everywhere R := by
  cases h with
  | leaf => exact .leaf
  | branch h hchildren => exact .branch h hchildren

end Node.Everywhere

/-! ### Rules -/

section

variable {σ : Type} {grammar : σ → Rule σ}

namespace Rule

/-- Whether all constructs that a rule makes are of kinds of which nothing is asked, or are made as `check` asks. -/
def makes (plain : String → Bool) (check : String → Rule σ → Bool) : Rule σ → Bool
  | seq a b => a.makes plain check && b.makes plain check
  | alt a b => a.makes plain check && b.makes plain check
  | many a => a.makes plain check
  | node kind a => (plain kind || check kind a) && a.makes plain check
  | grow kind _ a => plain kind && a.makes plain check
  | field _ a => a.makes plain check
  | _ => true

end Rule

/-- A rule recasts nodes only as the rules of a grammar do. -/
def Recasts (grammar : σ → Rule σ) (r : Rule σ) : Prop := ∀ f ∈ r.recasts, ∃ x, f ∈ (grammar x).recasts

/-- Constructs of the text `chars` have a property since nothing is asked of their kinds or since `check` is passed. -/
structure Sound (grammar : σ → Rule σ) (chars : List Char) (plain : String → Bool) (check : String → Rule σ → Bool)
    (R : String → Nat → Nat → List Node → Prop) : Prop where
  plain {kind} : plain kind = true → ∀ start stop children, R kind start stop children
  construct {kind a s s'} : check kind a = true → Recasts grammar a → a.Derives grammar s s' → s.In chars →
    s.nodes = [] → R kind (s'.construct kind).start s'.tail.offset s'.nodes.reverse

/-- The rules of a grammar make constructs in the right way, and how they recast nodes does not change that. -/
structure Makes (grammar : σ → Rule σ) (plain : String → Bool) (check : String → Rule σ → Bool)
    (R : String → Nat → Nat → List Node → Prop) : Prop where
  makes x : (grammar x).makes plain check = true
  recasts x : ∀ f ∈ (grammar x).recasts, ∀ n : Node, n.Everywhere R → (f n).Everywhere R

private theorem State.forall_mapLast {P : Node → Prop} {f : Node → Node} {s : State} (hf : ∀ n, P n → P (f n))
    (h : ∀ n ∈ s.nodes, P n) : ∀ n ∈ (s.mapLast f).nodes, P n := by
  unfold mapLast
  split
  · rename_i n rest hs
    obtain ⟨hn, hrest⟩ := List.forall_mem_cons.1 (hs ▸ h)
    exact List.forall_mem_cons.2 ⟨hf n hn, hrest⟩
  · exact h

/-- All that is derived has a property everywhere. -/
private theorem Rule.Derives.everywhere {chars : List Char} {plain : String → Bool} {check : String → Rule σ → Bool}
    (hR : Sound grammar chars plain check R) (hg : Makes grammar plain check R) {r : Rule σ} {s s' : State}
    (h : r.Derives grammar s s') (hmakes : r.makes plain check = true)
    (hrecasts : Recasts grammar r) (hs : s.In chars) (hnodes : ∀ n ∈ s.nodes, n.Everywhere R) :
    ∀ n ∈ s'.nodes, n.Everywhere R := by
  induction h with
  | nothing | sameLine | enough | absent => exact hnodes
  | token h =>
    rw [hs.eq_behind] at h
    obtain ⟨taken, left, -, rfl⟩ := State.of_token _ _ h
    exact List.forall_mem_cons.2 ⟨.leaf, hnodes⟩
  | glued h =>
    rw [hs.eq_behind] at h
    obtain ⟨taken, left, -, rfl⟩ := State.of_glued _ _ h
    exact List.forall_mem_cons.2 ⟨.leaf, hnodes⟩
  | ending h =>
    rw [hs.eq_behind] at h
    obtain ⟨c', comments', -, rfl⟩ := State.of_ending _ h
    exact hnodes
  | seq ha hb iha ihb =>
    rw [makes, Bool.and_eq_true] at hmakes
    obtain ⟨hra, hrb⟩ := List.forall_mem_append.1 hrecasts
    exact ihb hmakes.2 hrb (ha.leadsTo hs).1 (iha hmakes.1 hra hs hnodes)
  | first h ih =>
    rw [makes, Bool.and_eq_true] at hmakes
    exact ih hmakes.1 (List.forall_mem_append.1 hrecasts).1 hs hnodes
  | second h ih =>
    rw [makes, Bool.and_eq_true] at hmakes
    exact ih hmakes.2 (List.forall_mem_append.1 hrecasts).2 hs hnodes
  | more ha hmany iha ihmany =>
    exact ihmany hmakes hrecasts (ha.leadsTo hs).1 (iha hmakes hrecasts hs hnodes)
  | ref h ih => exact ih (hg.makes _) (fun f hf => ⟨_, hf⟩) hs hnodes
  | node h ih =>
    rw [makes, Bool.and_eq_true, Bool.or_eq_true] at hmakes
    have hinner := ih hmakes.2 hrecasts (hs.withNodes _) (List.forall_mem_nil _)
    refine List.forall_mem_cons.2 ⟨.branch ?_ fun n hn => hinner n (List.mem_reverse.1 hn), hnodes⟩
    rcases hmakes.1 with hplain | hcheck
    · exact hR.plain hplain _ _ _
    · exact hR.construct hcheck hrecasts h (hs.withNodes _) rfl
  | grow hleft h ih =>
    rename_i kind f a s s' left outer
    rw [makes, Bool.and_eq_true] at hmakes
    obtain ⟨hfirst, houter⟩ := List.forall_mem_cons.1 (hleft ▸ hnodes)
    have hfirst' : (f.elim left left.withField).Everywhere R := by
      cases f with
      | none => exact hfirst
      | some f => exact hfirst.withField f
    have hinner := ih hmakes.2 hrecasts (hs.withNodes _) (List.forall_mem_singleton.2 hfirst')
    exact List.forall_mem_cons.2
      ⟨.branch (hR.plain hmakes.1 _ _ _) fun n hn => hinner n (List.mem_reverse.1 hn), houter⟩
  | field h ih => exact State.forall_mapLast (fun n hn => hn.withField _) (ih hmakes hrecasts hs hnodes)
  | recast =>
    obtain ⟨x, hf⟩ := hrecasts _ (List.mem_singleton_self _)
    exact State.forall_mapLast (hg.recasts x _ hf) hnodes

end

namespace Script

/-! ### Recast nodes -/

/-- The kinds that nodes get when they are recast. -/
def isRecast (kind : String) : Bool :=
  kind ∈ ["object_pattern", "array_pattern", "pair_pattern", "rest_pattern", "assignment_pattern",
    "shorthand_property_identifier_pattern", "required_parameter", "optional_parameter"]

section

variable {plain : String → Bool}
  (hplain : ∀ kind, plain kind = true → ∀ start stop children, R kind start stop children)
  (hkinds : ∀ kind, isRecast kind = true → plain kind = true)

include hplain hkinds

private theorem everywhere_markOptional {n : Node} (h : n.Everywhere R) : (markOptional n).Everywhere R := by
  unfold markOptional
  split
  · cases h with
    | branch h hchildren =>
      refine .branch (hplain _ (hkinds _ ?_) _ _ _) hchildren
      split <;> rfl
  · exact h

private theorem everywhere_asTarget {n : Node} (h : n.Everywhere R) : (asTarget n).Everywhere R := by
  induction h with
  | leaf =>
    rename_i kind named place start text
    obtain ⟨kind', heq, -⟩ := asTarget_leaf kind named place start text
    rw [heq]
    exact .leaf
  | branch h hchildren ih =>
    rename_i kind place start stop children
    unfold asTarget
    split
    case h_5 =>
      rename_i heq
      cases heq
      exact .branch (hplain _ (hkinds _ rfl) _ _ _) hchildren
    case h_6 =>
      rename_i heq
      cases heq
    case h_7 => exact .branch h hchildren
    all_goals
      rename_i heq
      cases heq
      exact .branch (hplain _ (hkinds _ rfl) _ _ _) (forall_mem_asTargets ih)

end

/-! ### Trees -/

/-- A node among which comments have been put is a comment or has been there before. -/
theorem mem_weaveAll {comments : List Comment} {nodes : List Node} {n : Node} (h : n ∈ weaveAll comments nodes) :
    (∃ c, n = commentNode c) ∨ ∃ m ∈ nodes, ∃ comments', n = weave comments' m := by
  have hcomments : ∀ comments : List Comment, n ∈ comments.map commentNode → ∃ c, n = commentNode c := by
    intro comments hn
    obtain ⟨c, -, rfl⟩ := List.mem_map.1 hn
    exact ⟨c, rfl⟩
  induction nodes generalizing comments with
  | nil =>
    rw [weaveAll] at h
    exact .inl (hcomments _ h)
  | cons m rest ih =>
    rw [weaveAll] at h
    rcases List.mem_append.1 h with h | h
    · exact .inl (hcomments _ h)
    · rcases List.mem_cons.1 h with rfl | h
      · exact .inr ⟨m, List.mem_cons_self .., _, rfl⟩
      · rcases ih h with hc | ⟨m', hm', h⟩
        · exact .inl hc
        · exact .inr ⟨m', List.mem_cons_of_mem _ hm', h⟩

private theorem everywhere_weave (hweave : ∀ kind start stop comments children, R kind start stop children →
    R kind start stop (weaveAll comments children)) {n : Node} (h : n.Everywhere R) (comments : List Comment) :
    (weave comments n).Everywhere R := by
  induction h generalizing comments with
  | leaf =>
    rw [weave]
    exact .leaf
  | branch h hchildren ih =>
    rw [weave]
    refine .branch (hweave _ _ _ _ _ h) fun n hn => ?_
    rcases mem_weaveAll hn with ⟨c, rfl⟩ | ⟨m, hm, comments', rfl⟩
    · exact .leaf
    · exact ih m hm comments'

/-- All tokens that are passed over have a property that all tokens have. -/
private theorem forall_passOver {P : Node → Prop}
    (hP : ∀ kind named place start text, P (.leaf kind named place start text))
    (d : Dialect) (fuel reach : Nat) {p : Progress} (h : ∀ n ∈ p.statements, P n) :
    ∀ n ∈ (passOver d fuel reach p).statements, P n := by
  refine passOver_keeps (I := fun p => ∀ n ∈ p.statements, P n) (fun hrest h => ?_) id d fuel reach h
  obtain ⟨kind, named, taken, left, htoken, -⟩ := strayToken_spec hrest
  refine List.forall_mem_cons.2 ⟨?_, h⟩
  rw [htoken]
  exact hP ..

/-- What holds of every statement that is read in a text, and of errors that consist of tokens, holds of all that is
read. -/
private theorem forall_readAll {P : Node → Prop} {d : Dialect} {start : Cursor}
    (hread : ∀ c s, start.LeadsTo c → readStatement d c = .matched s → ∀ n ∈ s.nodes, P n)
    (herror : ∀ start stop tokens,
      (∀ n ∈ tokens, ∃ kind named place start text, n = .leaf kind named place start text) → P (.branch "ERROR" none start stop tokens))
    (fuel : Nat) {p : Progress} (hp : start.LeadsTo p.place) (h : ∀ n ∈ p.statements, P n) :
    ∀ n ∈ (readAll d fuel p).statements, P n := by
  induction fuel generalizing p with
  | zero => exact h
  | succ fuel ih =>
    unfold readAll
    dsimp only
    split
    · exact h
    · cases hmatched : readStatement d p.place with
      | matched s =>
        obtain ⟨-, hleads, -⟩ := Rule.leadsTo_of_read (leads_grammar d) begins_statement hmatched
        refine ih (hp.trans ((Gap.leadsTo_scan p.place).trans hleads)) ?_
        exact List.forall_mem_append.2 ⟨hread _ _ hp hmatched, h⟩
      | failed reach =>
        dsimp only
        split <;>
        · refine ih (hp.trans ((Progress.Laid.refl p.place).passOver d fuel _).leads)
            (List.forall_mem_cons.2 ⟨herror _ _ _ fun n hn => ?_, h⟩)
          have htokens := forall_passOver
            (P := fun n => ∃ kind named place start text, n = .leaf kind named place start text)
            (fun kind named place start text => ⟨kind, named, place, start, text, rfl⟩) d fuel
          exact htokens _ (p := ⟨p.place, [], []⟩) (List.forall_mem_nil _) n (List.mem_reverse.1 hn)

/-- A property that the constructs of a text have by the rules that make them. -/
structure Invariant (d : Dialect) (chars : List Char) (plain : String → Bool) (check : String → Part → Bool)
    (R : String → Nat → Nat → List Node → Prop) : Prop where
  sound : Sound (grammar d) chars plain check R
  makes x : (grammar d x).makes plain check = true
  recast kind : isRecast kind = true → plain kind = true
  error : plain "ERROR" = true
  program : plain "program" = true
  weave {kind start stop children} comments : R kind start stop children →
    R kind start stop (weaveAll comments children)

namespace Invariant

variable {d : Dialect} {text : String} {plain : String → Bool} {check : String → Part → Bool}

private theorem grammar_makes (h : Invariant d text.toList plain check R) : Makes (grammar d) plain check R where
  makes := h.makes
  recasts x f hf n hn := by
    rcases eq_of_mem_recasts hf with rfl | rfl
    · exact everywhere_asTarget (fun _ => h.sound.plain) h.recast hn
    · exact everywhere_markOptional (fun _ => h.sound.plain) h.recast hn

/-- Such a property holds throughout the tree of the text. -/
theorem everywhere_tree (h : Invariant d text.toList plain check R) : (tree d text).Everywhere R := by
  have hplain : ∀ {kind place start stop children}, plain kind = true → (∀ n ∈ children, n.Everywhere R) →
      (Node.branch kind place start stop children).Everywhere R := fun hkind => .branch (h.sound.plain hkind _ _ _)
  have hbegin := laid_beginning d text.toList
  have hfirst : ∀ n ∈ (beginning d text.toList).statements, n.Everywhere R := by
    unfold beginning
    split
    · rename_i s hread
      obtain ⟨taken, left, -, rfl⟩ := State.of_token _ _ (Rule.of_read_token hread)
      exact List.forall_mem_singleton.2 .leaf
    · exact List.forall_mem_nil _
  have hall := forall_readAll (P := Node.Everywhere R) (d := d)
    (fun c s (hc : (Cursor.mk 0 text.toList).LeadsTo c) hread => by
      have hderives := Rule.derives_of_read hread
      exact hderives.everywhere h.sound h.grammar_makes rfl (List.forall_mem_nil _) (.of_behind hc _ _)
        (List.forall_mem_nil _))
    (fun start stop tokens htokens => hplain h.error fun n hn => by
      obtain ⟨kind, named, place, start, text, rfl⟩ := htokens n hn
      exact .leaf)
    (text.toList.length + 1) hbegin.leads hfirst
  refine hplain h.program fun n hn => ?_
  rcases mem_weaveAll hn with ⟨c, rfl⟩ | ⟨m, hm, comments, rfl⟩
  · exact .leaf
  · exact everywhere_weave (fun _ _ _ comments _ => h.weave comments) (hall m (List.mem_reverse.1 hm)) comments

end Invariant

end Script

end ScriptHost.Syntax
