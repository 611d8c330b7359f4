import ScriptHost.Proofs.Syntax.Place
import ScriptHost.Syntax.Script.Tree

/-!
# What a statement covers

A statement that has been read is one construct, which begins with the token that came next and ends where reading goes
on (`readStatement_covers`).  The first follows since every construct begins with its first child, the second from the
shape of the rules: a statement is closed last.
-/

namespace ScriptHost.Syntax

open ScriptHost.Text

section

variable {σ : Type} {grammar : σ → Rule σ} {e : σ → Bool}

/-! ### Beginnings -/

/-- The nodes of the constructs around the current one, the innermost first. -/
def opened (tasks : List (Task σ)) : List Node :=
  tasks.flatMap fun
    | .close _ outer => outer
    | _ => []

private theorem opened_append (new rest : List (Task σ)) : opened (new ++ rest) = opened new ++ opened rest :=
  List.flatMap_append

/-- What is read here is only looked at. -/
def Probing (tasks : List (Task σ)) : Prop := ∃ choices, Task.refuse choices ∈ tasks

private theorem probing_of_turn {t : Task σ} {rest new : List (Task σ)} {s s' : State} (h : Probing (t :: rest))
    (hturn : Turn grammar t s new s') : Probing (new ++ rest) := by
  obtain ⟨choices, hmem⟩ := h
  rcases List.mem_cons.1 hmem with rfl | hmem
  · cases hturn
  · exact ⟨choices, List.mem_append_right _ hmem⟩

/-- The byte at which the first of some nodes starts, which are listed latest first. -/
def firstStart (nodes : List Node) : Option Nat := nodes.getLast?.map Node.start

theorem firstStart_cons {nodes : List Node} (n : Node) (h : nodes ≠ []) :
    firstStart (n :: nodes) = firstStart nodes := by
  unfold firstStart
  rw [List.getLast?_cons_of_ne_nil h]

private theorem firstStart_append {nodes nodes' : List Node} (h : nodes' ≠ []) :
    firstStart (nodes ++ nodes') = firstStart nodes' := by
  unfold firstStart
  rw [List.getLast?_append_of_ne_nil _ h]

theorem ne_nil_of_firstStart {nodes : List Node} {first : Nat} (h : firstStart nodes = some first) : nodes ≠ [] := by
  rintro rfl
  cases h

/-- The constructs that have been begun start with the token that came first. -/
structure Begun (e : σ → Bool) (start : Cursor) (tasks : List (Task σ)) (s : State) : Prop
    extends Underway e start tasks s where
  first : Probing tasks ∨ (s = .behind start [] [] ∧ opened tasks = []) ∨
    firstStart (s.nodes ++ opened tasks) = some (Gap.scan start).next.offset

theorem firstStart_mapLast {f : Node → Node} (hf : ∀ n : Node, (f n).start = n.start) (s : State)
    (nodes : List Node) : firstStart ((s.mapLast f).nodes ++ nodes) = firstStart (s.nodes ++ nodes) := by
  unfold State.mapLast
  cases hs : s.nodes with
  | nil =>
    dsimp only
    rw [hs]
  | cons n rest =>
    dsimp only
    by_cases hnil : rest ++ nodes = []
    · rw [List.cons_append, List.cons_append, hnil]
      exact congrArg some (hf n)
    · rw [List.cons_append, List.cons_append, firstStart_cons _ hnil, firstStart_cons _ hnil]

theorem firstStart_close (kind : String) (outer nodes : List Node) (s : State) {first : Nat}
    (h : firstStart (s.nodes ++ (outer ++ nodes)) = some first) :
    firstStart ((s.close kind outer).nodes ++ nodes) = some first := by
  show firstStart (_ :: (outer ++ nodes)) = some first
  by_cases hnil : outer ++ nodes = []
  · rw [hnil, List.append_nil] at h
    rw [hnil]
    -- the construct starts with its first child
    show some ((s.nodes.reverse.head?.map Node.start).getD _) = some first
    rw [List.head?_reverse, show s.nodes.getLast?.map Node.start = some first from h]
    rfl
  · rw [firstStart_append hnil] at h
    rw [firstStart_cons _ hnil, h]

/-- A turn does not take the first node away. -/
private theorem firstStart_of_turn {c : Cursor} {nodes : List Node} {comments : List Comment} {t : Task σ}
    {rest new : List (Task σ)} {s' : State} {first : Nat} (hrecasts : ∀ f ∈ t.recasts, Harmless f)
    (hturn : Turn grammar t (.behind c nodes comments) new s')
    (h : firstStart (nodes ++ opened (t :: rest)) = some first) :
    firstStart (s'.nodes ++ opened (new ++ rest)) = some first := by
  cases hturn with
  | token htoken =>
    obtain ⟨taken, left, -, rfl⟩ := State.of_token _ _ htoken
    exact (firstStart_cons _ (ne_nil_of_firstStart h)).trans h
  | glued hglued =>
    obtain ⟨taken, left, -, rfl⟩ := State.of_glued _ _ hglued
    exact (firstStart_cons _ (ne_nil_of_firstStart h)).trans h
  | ending hending =>
    obtain ⟨c', comments', -, rfl⟩ := State.of_ending _ hending
    exact h
  | recast =>
    rename_i f
    exact (firstStart_mapLast (hrecasts f (List.mem_singleton_self f)).start _ _).trans h
  | label => exact (firstStart_mapLast (Node.start_withField _) _ _).trans h
  | close => exact firstStart_close _ _ _ _ h
  | grow hnodes =>
    rename_i kind f a left outer
    obtain rfl : nodes = left :: outer := hnodes
    have hstart := Node.start_elim_withField f left
    refine Eq.trans ?_ h
    show firstStart (f.elim left left.withField :: (outer ++ opened rest)) = firstStart (left :: (outer ++ opened rest))
    by_cases hnil : outer ++ opened rest = []
    · rw [hnil]
      exact congrArg some hstart
    · rw [firstStart_cons _ hnil, firstStart_cons _ hnil]
  | _ => exact h

private theorem opened_of_turn {start : Cursor} {t : Task σ} {new : List (Task σ)} {s' : State}
    (hturn : Turn grammar t (.behind start [] []) new s') : opened new = [] := by
  cases hturn with
  | grow hnodes => cases hnodes
  | _ => rfl

private theorem carries_begun (hg : Leads grammar e) (start : Cursor) : Carries grammar (Begun e start) where
  turn {t rest s new s'} h hturn := by
    refine ⟨(carries_underway hg start).turn h.toUnderway hturn, ?_⟩
    rcases h.first with hprobing | ⟨rfl, hopened⟩ | hfirst
    · exact .inl (probing_of_turn hprobing hturn)
    · have hrest : opened rest = [] := (List.append_eq_nil_iff.1 hopened).2
      refine .inr ((leading_of_turn hg (Machine.leading_of_underway h.toUnderway) hturn).imp ?_ ?_)
      · rintro ⟨hs, -⟩
        exact ⟨hs, by rw [opened_append, opened_of_turn hturn, hrest, List.append_nil]⟩
      · rintro ⟨taken, left, kind, named, rfl, -, -, rfl⟩
        rw [List.nil_append, hrest]
        rfl
    · have hs : ∃ c nodes comments, s = .behind c nodes comments := by
        rcases h.place with ⟨hs, -⟩ | ⟨c, nodes, comments, hs, -⟩
        · exact ⟨_, _, _, hs⟩
        · exact ⟨c, nodes, comments, hs⟩
      obtain ⟨c, nodes, comments, rfl⟩ := hs
      exact .inr (.inr (firstStart_of_turn (h.recasts _ (List.mem_cons_self ..)) hturn hfirst))
  probe h :=
    ⟨(carries_underway hg start).probe h.toUnderway, .inl ⟨_, List.mem_cons_of_mem _ (List.mem_singleton_self _)⟩⟩

/-- The nodes that a rule has read start with the token that came next. -/
private theorem Rule.firstStart_of_read (hg : Leads grammar e) {r : Rule σ} (hr : r.Begins e) {start : Cursor}
    {s : State} (h : r.read grammar start = .matched s) : firstStart s.nodes = some (Gap.scan start).next.offset := by
  have hbegun : Begun e start [] s :=
    read_carries (carries_begun hg start) ⟨hr.underway start, .inr (.inl ⟨rfl, rfl⟩)⟩ h
  rcases hbegun.first with ⟨choices, ⟨⟩⟩ | ⟨rfl, -⟩ | hfirst
  · have hlt := (leadsTo_of_read hg hr h).2.2
    have hle := (Gap.leadsTo_scan start).offset_le
    exact absurd (hle.trans_lt hlt) (Nat.lt_irrefl _)
  · rwa [show opened ([] : List (Task σ)) = [] from rfl, List.append_nil] at hfirst

/-! ### Ends -/

namespace Rule

/-- Whether a rule only tests what comes next. -/
def isSilent : Rule σ → Bool
  | nothing => true
  | absent _ => true
  | seq a b => a.isSilent && b.isSilent
  | _ => false

/-- Whether a rule reads one construct of a kind that `p` allows, if the symbols `e` do. -/
def isConstruct (p : String → Bool) (e : σ → Bool) : Rule σ → Bool
  | node kind _ => p kind
  | alt a b => a.isConstruct p e && b.isConstruct p e
  | seq a b => a.isConstruct p e && b.isSilent
  | ref x => e x
  | absent nothing => true
  | _ => false

end Rule

/-- The tasks leave the state as it is. -/
def Done (tasks : List (Task σ)) : Prop :=
  ∀ t ∈ tasks, (∃ choices, t = .settle choices) ∨ ∃ r : Rule σ, t = .run r ∧ r.isSilent = true

/-- How far the reading of one construct has come. -/
inductive Stage (p : String → Bool) (e : σ → Bool) : List (Task σ) → State → Prop where
  | probing {tasks s} (h : Probing tasks) : Stage p e tasks s
  | ahead {r rest s} (hr : r.isConstruct p e = true) (hs : s.nodes = []) (hrest : Done rest) :
    Stage p e (.run r :: rest) s
  | within {inner kind rest s} (hkind : p kind = true) (hrest : Done rest) :
    Stage p e (inner ++ .close kind [] :: rest) s
  | closed {kind start children tasks s} (hkind : p kind = true)
    (hs : s.nodes = [.branch kind none start s.tail.offset children]) (htasks : Done tasks) : Stage p e tasks s

/-- Rules that only test what comes next do no more than that. -/
private theorem Done.turn {t : Task σ} {rest new : List (Task σ)} {s s' : State} (hdone : Done (t :: rest))
    (hturn : Turn grammar t s new s') : s' = s ∧ Done (new ++ rest) := by
  obtain ⟨hfirst, hrest⟩ := List.forall_mem_cons.1 hdone
  rcases hfirst with ⟨choices, rfl⟩ | ⟨r, rfl, hr⟩
  · cases hturn
    exact ⟨rfl, hrest⟩
  · cases hturn with
    | nothing | absent => exact ⟨rfl, hrest⟩
    | seq =>
      rw [Rule.isSilent, Bool.and_eq_true] at hr
      exact ⟨rfl, List.forall_mem_cons.2 ⟨.inr ⟨_, rfl, hr.1⟩, List.forall_mem_cons.2 ⟨.inr ⟨_, rfl, hr.2⟩, hrest⟩⟩⟩
    | _ => cases hr

/-- A rule for a construct comes closer to it, or begins to read it. -/
private theorem Stage.of_construct {p : String → Bool} {e : σ → Bool}
    (hg : ∀ x, e x = true → (grammar x).isConstruct p e = true) {r : Rule σ} {rest new : List (Task σ)} {s s' : State}
    (hr : r.isConstruct p e = true) (hs : s.nodes = []) (hrest : Done rest) (hturn : Turn grammar (.run r) s new s') :
    Stage p e (new ++ rest) s' := by
  cases hturn with
  | seq =>
    rw [Rule.isConstruct, Bool.and_eq_true] at hr
    exact .ahead hr.1 hs (List.forall_mem_cons.2 ⟨.inr ⟨_, rfl, hr.2⟩, hrest⟩)
  | first =>
    rw [Rule.isConstruct, Bool.and_eq_true] at hr
    exact .ahead hr.1 hs (List.forall_mem_cons.2 ⟨.inl ⟨_, rfl⟩, hrest⟩)
  | second =>
    rw [Rule.isConstruct, Bool.and_eq_true] at hr
    exact .ahead hr.2 hs hrest
  | absent hne =>
    rename_i a
    cases a with
    | nothing => exact absurd rfl hne
    | _ => cases hr
  | ref => exact .ahead (hg _ hr) hs hrest
  | node =>
    rename_i kind a
    rw [hs]
    show Stage p e ([.run a] ++ .close kind [] :: rest) _
    exact .within hr hrest
  | _ => cases hr

private theorem carries_stage {p : String → Bool} {e : σ → Bool}
    (hg : ∀ x, e x = true → (grammar x).isConstruct p e = true) : Carries grammar (Stage p e) where
  turn {t rest s new s'} h hturn := by
    generalize htasks : t :: rest = tasks at h
    cases h with
    | probing hprobing =>
      subst htasks
      exact .probing (probing_of_turn hprobing hturn)
    | ahead hr hs hrest =>
      obtain ⟨rfl, rfl⟩ := List.cons_eq_cons.1 htasks
      exact .of_construct hg hr hs hrest hturn
    | within hkind hrest =>
      rename_i inner kind rest'
      cases inner with
      | nil =>
        obtain ⟨rfl, rfl⟩ := List.cons_eq_cons.1 htasks
        cases hturn
        exact .closed hkind rfl hrest
      | cons u inner =>
        obtain ⟨rfl, rfl⟩ := List.cons_eq_cons.1 htasks
        show Stage p e (new ++ (inner ++ .close kind [] :: rest')) s'
        rw [← List.append_assoc]
        exact .within hkind hrest
    | closed hkind hs hdone =>
      subst htasks
      obtain ⟨rfl, hdone'⟩ := hdone.turn hturn
      exact .closed hkind hs hdone'
  probe h := .probing ⟨_, List.mem_cons_of_mem _ (List.mem_singleton_self _)⟩

/-- A rule that reads one construct ends with it. -/
private theorem Rule.closed_of_read {p : String → Bool} {e : σ → Bool}
    (hg : ∀ x, e x = true → (grammar x).isConstruct p e = true) {r : Rule σ} (hr : r.isConstruct p e = true)
    {c : Cursor} {s : State} (h : r.read grammar c = .matched s) :
    ∃ kind start children, p kind = true ∧ s.nodes = [.branch kind none start s.tail.offset children] := by
  have hstage : Stage p e [] s := read_carries (carries_stage hg) (.ahead hr rfl (by simp [Done])) h
  generalize htasks : ([] : List (Task σ)) = tasks at hstage
  cases hstage with
  | probing hprobing =>
    subst htasks
    obtain ⟨choices, ⟨⟩⟩ := hprobing
  | ahead => cases htasks
  | within => simp at htasks
  | closed hkind hs => exact ⟨_, _, _, hkind, hs⟩

end

namespace Script

/-- The kinds of the constructs that may stand as statements in a tree. -/
def isStatementKind (kind : String) : Bool := kind != "ERROR" && kind != "comment"

/-- The symbols that stand for one construct. -/
def isWhole : Symbol → Bool
  | .statement | .block => true
  | _ => false

private theorem isConstruct_grammar (d : Dialect) (x : Symbol) (hx : isWhole x = true) :
    (grammar d x).isConstruct isStatementKind isWhole = true := by
  cases x with
  | statement => cases d <;> rfl
  | block => cases d <;> rfl
  | _ => cases hx

theorem begins_statement : (Rule.ref Symbol.statement).Begins mayBeEmpty where
  leads := rfl
  nonempty := rfl
  recasts := nofun

/-- What a statement covers. -/
theorem readStatement_covers {d : Dialect} {c : Cursor} {s : State} (h : readStatement d c = .matched s) :
    ∃ kind children, isStatementKind kind = true ∧
      s.nodes = [.branch kind none (Gap.scan c).next.offset s.tail.offset children] := by
  obtain ⟨kind, start, children, hkind, hs⟩ := Rule.closed_of_read (p := isStatementKind) (e := isWhole)
    (isConstruct_grammar d) rfl h
  have hfirst := Rule.firstStart_of_read (leads_grammar d) begins_statement h
  rw [hs] at hfirst
  obtain rfl : start = (Gap.scan c).next.offset := Option.some.inj hfirst
  exact ⟨kind, children, hkind, hs⟩

end Script

end ScriptHost.Syntax
