import ScriptHost.Proofs.Syntax.Construct

/-!
# What a declaration has once

An export statement has one declaration at most, a declaration one name, and a class one heritage.  This can be seen
from the rules: none that makes such a construct adds two nodes with the same mark to it (`Rule.addsOnce`).
-/

namespace ScriptHost.Syntax

/-- What an analysis knows a node by: the place that it fills in its parent, or its kind. -/
inductive Mark where
  | place (f : Field)
  | kind (k : String)

namespace Mark

/-- Whether a node has the mark. -/
def on : Mark → Node → Bool
  | place f, n => n.field == some f
  | kind k, n => n.kind == k

/-- Whether tokens and constructs of a kind have the mark. -/
def isOf : Mark → String → Bool
  | place _, _ => false
  | kind k, k' => k' == k

/-- Whether a node gets the mark in the place `f`. -/
def isAt : Mark → Field → Bool
  | place f, f' => f' == f
  | kind _, _ => false

variable {m : Mark}

private theorem on_leaf (kind : String) (named : Bool) (start : Nat) (text : String) :
    m.on (.leaf kind named none start text) = m.isOf kind := by
  cases m <;> rfl

private theorem on_construct (kind : String) (s : State) : m.on (s.construct kind) = m.isOf kind := by
  cases m <;> rfl

private theorem on_of_on_withField {f : Field} {n : Node} (hf : m.isAt f = false) (h : m.on (n.withField f) = true) :
    m.on n = true := by
  cases m with
  | place f' =>
    have hfield : (n.withField f).field = some f := by cases n <;> rfl
    rw [on, hfield] at h
    exact absurd (hf.symm.trans h) Bool.false_ne_true
  | kind k => cases n <;> exact h

end Mark

/-! ### Rules -/

section

variable {σ : Type} {grammar : σ → Rule σ} {m : Mark} {e : σ → Bool}

namespace Rule

/-- Whether a rule may add a node with a mark, if the symbols `e` may. -/
def adds (m : Mark) (e : σ → Bool) : Rule σ → Bool
  | token kind _ _ => m.isOf kind
  | glued kind _ _ => m.isOf kind
  | seq a b => a.adds m e || b.adds m e
  | alt a b => a.adds m e || b.adds m e
  | many a => a.adds m e
  | ref x => e x
  | node kind _ => m.isOf kind
  | grow kind _ _ => m.isOf kind
  | field f a => m.isAt f || a.adds m e
  | _ => false

/-- Whether a rule adds at most one node with a mark. -/
def addsOnce (m : Mark) (e : σ → Bool) : Rule σ → Bool
  | seq a b => (a.addsOnce m e && !b.adds m e) || (!a.adds m e && b.addsOnce m e)
  | alt a b => a.addsOnce m e && b.addsOnce m e
  | many a => !a.adds m e
  | field f a => if m.isAt f then !a.adds m e else a.addsOnce m e
  | _ => true

end Rule

/-- The symbols `e` are those that may add a node with a mark; they add one at most, and no mark comes of recasting. -/
structure Marks (grammar : σ → Rule σ) (m : Mark) (e : σ → Bool) : Prop where
  adds x : (grammar x).adds m e = true → e x = true
  addsOnce x : e x = true → (grammar x).addsOnce m e = true
  recasts x : ∀ f ∈ (grammar x).recasts, ∀ n, m.on (f n) = true → m.on n = true

namespace State

private theorem countP_mapLast_le {f : Node → Node} (hf : ∀ n, m.on (f n) = true → m.on n = true) (s : State) :
    (s.mapLast f).nodes.countP m.on ≤ s.nodes.countP m.on := by
  unfold mapLast
  split
  · rename_i n rest hs
    rw [hs, List.countP_cons, List.countP_cons]
    have hle : (if m.on (f n) = true then 1 else 0) ≤ if m.on n = true then 1 else 0 := by
      split
      · rw [if_pos (hf n ‹_›)]
      · exact Nat.zero_le _
    omega
  · exact le_rfl

private theorem countP_mapLast_le_succ (f : Node → Node) (s : State) :
    (s.mapLast f).nodes.countP m.on ≤ s.nodes.countP m.on + 1 := by
  unfold mapLast
  split
  · rename_i n rest hs
    rw [hs, List.countP_cons, List.countP_cons]
    split <;> omega
  · exact Nat.le_succ _

end State

namespace Rule.Derives

variable {chars : List Char} {r : Rule σ} {s s' : State}

/-- A rule that adds no node with a mark leaves no more of them than there were. -/
theorem countP_le (hg : Marks grammar m e) (h : r.Derives grammar s s') (hs : s.In chars) (hr : r.adds m e = false)
    (hrecasts : Recasts grammar r) :
    s'.nodes.countP m.on ≤ s.nodes.countP m.on := by
  -- a new node does not count if it has no mark
  have hnew : ∀ {n : Node} {nodes : List Node}, m.on n = false → (n :: nodes).countP m.on ≤ nodes.countP m.on :=
    fun hn => (List.countP_cons_of_neg (by rw [hn]; exact Bool.false_ne_true)).le
  induction h with
  | nothing | sameLine | enough | absent => exact le_rfl
  | token h =>
    rw [hs.eq_behind] at h
    obtain ⟨taken, left, -, rfl⟩ := State.of_token _ _ h
    exact hnew ((Mark.on_leaf ..).trans hr)
  | glued h =>
    rw [hs.eq_behind] at h
    obtain ⟨taken, left, -, rfl⟩ := State.of_glued _ _ h
    exact hnew ((Mark.on_leaf ..).trans hr)
  | ending h =>
    rw [hs.eq_behind] at h
    obtain ⟨c', comments', -, rfl⟩ := State.of_ending _ h
    exact le_rfl
  | seq ha hb iha ihb =>
    rw [adds, Bool.or_eq_false_iff] at hr
    obtain ⟨hra, hrb⟩ := List.forall_mem_append.1 hrecasts
    exact (ihb (ha.leadsTo hs).1 hr.2 hrb).trans (iha hs hr.1 hra)
  | first h ih =>
    rw [adds, Bool.or_eq_false_iff] at hr
    exact ih hs hr.1 (List.forall_mem_append.1 hrecasts).1
  | second h ih =>
    rw [adds, Bool.or_eq_false_iff] at hr
    exact ih hs hr.2 (List.forall_mem_append.1 hrecasts).2
  | more ha hmany iha ihmany => exact (ihmany (ha.leadsTo hs).1 hr hrecasts).trans (iha hs hr hrecasts)
  | ref h ih =>
    refine ih hs (Bool.eq_false_iff.2 fun hadds => ?_) fun f hf => ⟨_, hf⟩
    exact Bool.false_ne_true (hr.symm.trans (hg.adds _ hadds))
  | node h ih => exact hnew ((Mark.on_construct ..).trans hr)
  | grow hleft h ih =>
    rw [hleft]
    exact (hnew ((Mark.on_construct ..).trans hr)).trans (List.sublist_cons_self ..).countP_le
  | field h ih =>
    rw [adds, Bool.or_eq_false_iff] at hr
    exact (State.countP_mapLast_le (fun n => Mark.on_of_on_withField hr.1) _).trans (ih hs hr.2 hrecasts)
  | recast =>
    obtain ⟨x, hf⟩ := hrecasts _ (List.mem_singleton_self _)
    exact State.countP_mapLast_le (hg.recasts x _ hf) _

/-- A rule that adds one node with a mark at most leaves at most one more of them than there were. -/
private theorem countP_le_succ (hg : Marks grammar m e) (h : r.Derives grammar s s') (hs : s.In chars)
    (hr : r.addsOnce m e = true) (hrecasts : Recasts grammar r) :
    s'.nodes.countP m.on ≤ s.nodes.countP m.on + 1 := by
  have hnew : ∀ (n : Node) (nodes : List Node), (n :: nodes).countP m.on ≤ nodes.countP m.on + 1 := by
    intro n nodes
    rw [List.countP_cons]
    split <;> omega
  induction h with
  | nothing | sameLine | enough | absent => exact Nat.le_succ _
  | token h =>
    rw [hs.eq_behind] at h
    obtain ⟨taken, left, -, rfl⟩ := State.of_token _ _ h
    exact hnew _ _
  | glued h =>
    rw [hs.eq_behind] at h
    obtain ⟨taken, left, -, rfl⟩ := State.of_glued _ _ h
    exact hnew _ _
  | ending h =>
    rw [hs.eq_behind] at h
    obtain ⟨c', comments', -, rfl⟩ := State.of_ending _ h
    exact Nat.le_succ _
  | seq ha hb iha ihb =>
    obtain ⟨hra, hrb⟩ := List.forall_mem_append.1 hrecasts
    have hs₁ := (ha.leadsTo hs).1
    rw [addsOnce, Bool.or_eq_true, Bool.and_eq_true, Bool.and_eq_true, Bool.not_eq_true', Bool.not_eq_true'] at hr
    rcases hr with ⟨honce, hnone⟩ | ⟨hnone, honce⟩
    · exact (hb.countP_le hg hs₁ hnone hrb).trans (iha hs honce hra)
    · exact (ihb hs₁ honce hrb).trans (Nat.succ_le_succ (ha.countP_le hg hs hnone hra))
  | first h ih =>
    rw [addsOnce, Bool.and_eq_true] at hr
    exact ih hs hr.1 (List.forall_mem_append.1 hrecasts).1
  | second h ih =>
    rw [addsOnce, Bool.and_eq_true] at hr
    exact ih hs hr.2 (List.forall_mem_append.1 hrecasts).2
  | more ha hmany iha ihmany =>
    rw [addsOnce, Bool.not_eq_true'] at hr
    exact ((more ha hmany).countP_le hg hs hr hrecasts).trans (Nat.le_succ _)
  | @ref x s s' h ih =>
    cases hx : e x with
    | true => exact ih hs (hg.addsOnce x hx) fun f hf => ⟨x, hf⟩
    | false => exact ((ref h).countP_le hg hs hx (List.forall_mem_nil _)).trans (Nat.le_succ _)
  | node h ih => exact hnew _ _
  | grow hleft h ih =>
    rw [hleft]
    exact (hnew _ _).trans (Nat.succ_le_succ (List.sublist_cons_self ..).countP_le)
  | @field f a s s' h ih =>
    cases hat : m.isAt f with
    | true =>
      rw [addsOnce, if_pos hat, Bool.not_eq_true'] at hr
      exact (State.countP_mapLast_le_succ _ _).trans (Nat.succ_le_succ (h.countP_le hg hs hr hrecasts))
    | false =>
      rw [addsOnce, if_neg (by rw [hat]; exact Bool.false_ne_true)] at hr
      exact (State.countP_mapLast_le (fun n => Mark.on_of_on_withField hat) _).trans (ih hs hr hrecasts)
  | recast => exact State.countP_mapLast_le_succ _ _

end Rule.Derives

end

/-! ### The script grammar -/

namespace Script

/-- The kinds of constructs that declare a class. -/
def isClassKind (kind : String) : Bool := kind == "class_declaration" || kind == "abstract_class_declaration"

/-- The kinds of constructs that declare something else by a name of its own. -/
def isNamedKind (kind : String) : Bool :=
  kind ∈ ["function_declaration", "generator_function_declaration", "function_signature", "interface_declaration",
    "type_alias_declaration", "enum_declaration", "module", "internal_module"]

/-- The marks that a construct has at most one child with. -/
def marksOf (kind : String) : List Mark :=
  if kind = "export_statement" then [.place .declaration]
  else if isClassKind kind then [.place .name, .kind "class_heritage"]
  else if isNamedKind kind || kind == "variable_declarator" then [.place .name]
  else []

/-- The symbols that may add a node with a mark: what a class inherits from has a symbol of its own. -/
def addsMark : Mark → Symbol → Bool
  | .kind "class_heritage", .classHeritage => true
  | _, _ => false

/-- Whether a construct is made with no more than one child with each of its marks. -/
def marksOnce (kind : String) (a : Part) : Bool := (marksOf kind).all fun m => a.addsOnce m (addsMark m)

private theorem makes_marksOnce (d : Dialect) (x : Symbol) :
    (grammar d x).makes (fun kind => (marksOf kind).isEmpty) marksOnce = true := by
  cases x with
  | binary level => cases level using cases_level <;> rfl
  | _ => cases d <;> rfl

/-- A node that is recast gets another kind, and it stays in its place. -/
theorem eq_or_isRecast {d : Dialect} {x : Symbol} {f : Node → Node} (hf : f ∈ (grammar d x).recasts) (n : Node) :
    f n = n ∨ (f n).field = n.field ∧ isRecast (f n).kind = true := by
  rcases eq_of_mem_recasts hf with rfl | rfl
  · unfold asTarget
    split
    case h_7 => exact .inl rfl
    all_goals exact .inr ⟨rfl, rfl⟩
  · unfold markOptional
    split
    · rename_i place start stop children
      refine .inr ⟨rfl, ?_⟩
      show isRecast (if children.any (·.kind == "?") then "optional_parameter" else "required_parameter") = true
      split <;> rfl
    · exact .inl rfl

/-- No node gets a mark by being recast. -/
private theorem on_of_on_recast {m : Mark} (hm : ∀ kind, isRecast kind = true → m.isOf kind = false) {d : Dialect}
    {x : Symbol}
    {f : Node → Node} (hf : f ∈ (grammar d x).recasts) {n : Node} (h : m.on (f n) = true) : m.on n = true := by
  rcases eq_or_isRecast hf n with heq | ⟨hfield, hkind⟩
  · rwa [heq] at h
  · cases m with
    | place f' =>
      rw [Mark.on, hfield] at h
      exact h
    | kind k => exact absurd ((hm _ hkind).symm.trans h) Bool.false_ne_true

private theorem marks_name (d : Dialect) : Marks (grammar d) (.place .name) (addsMark (.place .name)) where
  adds x := by
    cases x with
    | binary level => cases level using cases_level <;> exact nofun
    | _ => cases d <;> exact nofun
  addsOnce x := nofun
  recasts x f hf n := on_of_on_recast (fun _ _ => rfl) hf

theorem marks_declaration (d : Dialect) :
    Marks (grammar d) (.place .declaration) (addsMark (.place .declaration)) where
  adds x := by
    cases x with
    | binary level => cases level using cases_level <;> exact nofun
    | _ => cases d <;> exact nofun
  addsOnce x := nofun
  recasts x f hf n := on_of_on_recast (fun _ _ => rfl) hf

private theorem marks_heritage (d : Dialect) :
    Marks (grammar d) (.kind "class_heritage") (addsMark (.kind "class_heritage")) where
  adds x := by
    cases x with
    | binary level => cases level using cases_level <;> exact nofun
    | classHeritage => exact fun _ => rfl
    | _ => cases d <;> exact nofun
  addsOnce x hx := by
    cases x with
    | classHeritage => rfl
    | _ => cases hx
  recasts x f hf n := on_of_on_recast (by simp [isRecast, Mark.isOf]) hf

/-- Among the children of a construct there is at most one with each of its marks. -/
def OnceMarked (kind : String) (_ _ : Nat) (children : List Node) : Prop :=
  ∀ m ∈ marksOf kind, children.countP m.on ≤ 1

/-- Only three marks are asked for. -/
private theorem marks_of_mem {kind : String} {m : Mark} (hm : m ∈ marksOf kind) (d : Dialect) :
    Marks (grammar d) m (addsMark m) := by
  unfold marksOf at hm
  split at hm
  · rw [List.mem_singleton.1 hm]
    exact marks_declaration d
  · split at hm
    · rcases List.mem_pair.1 hm with rfl | rfl
      · exact marks_name d
      · exact marks_heritage d
    · split at hm
      · rw [List.mem_singleton.1 hm]
        exact marks_name d
      · cases hm

private theorem on_weave (m : Mark) (comments : List Comment) (n : Node) : m.on (weave comments n) = m.on n := by
  cases n with
  | leaf => rw [weave]
  | branch => rw [weave]; cases m <;> rfl

private theorem countP_weaveAll {m : Mark} (hm : m.isOf "comment" = false) (comments : List Comment)
    (nodes : List Node) : (weaveAll comments nodes).countP m.on = nodes.countP m.on := by
  have hcomment : ∀ c, m.on (commentNode c) = false := fun c => (Mark.on_leaf ..).trans hm
  have hmap := map_filter_weaveAll (f := fun _ => ()) (on_weave m) (fun _ _ => rfl) hcomment comments nodes
  have hlength := congrArg List.length hmap
  rwa [List.length_map, List.length_map, ← List.countP_eq_length_filter, ← List.countP_eq_length_filter] at hlength

private theorem isOf_comment_of_mem {kind : String} {m : Mark} (hm : m ∈ marksOf kind) : m.isOf "comment" = false := by
  unfold marksOf at hm
  split at hm
  · rw [List.mem_singleton.1 hm]
    rfl
  · split at hm
    · rcases List.mem_pair.1 hm with rfl | rfl <;> rfl
    · split at hm
      · rw [List.mem_singleton.1 hm]
        rfl
      · cases hm

private theorem invariant_onceMarked (d : Dialect) (chars : List Char) :
    Invariant d chars (fun kind => (marksOf kind).isEmpty) marksOnce OnceMarked where
  sound :=
    { plain := fun hkind start stop children m hm => by
        rw [List.isEmpty_iff.1 hkind] at hm
        cases hm
      construct := fun {kind a s s'} hcheck hrecasts hderives hs hnil m hm => by
        have hone := hderives.countP_le_succ (marks_of_mem hm d) hs (List.all_eq_true.1 hcheck m hm) hrecasts
        rw [hnil] at hone
        rwa [List.countP_reverse] }
  makes := makes_marksOnce d
  recast := by simp [isRecast, marksOf, isClassKind, isNamedKind]
  error := rfl
  program := rfl
  weave comments h m hm := by
    rw [countP_weaveAll (isOf_comment_of_mem hm)]
    exact h m hm

/-- In the tree of every text, no construct has two children with the same one of its marks. -/
theorem onceMarked_tree (d : Dialect) (text : String) : (tree d text).Everywhere OnceMarked :=
  (invariant_onceMarked d text.toList).everywhere_tree

end Script

end ScriptHost.Syntax
