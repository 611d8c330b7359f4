import ScriptHost.Proofs.Syntax.Extent
import ScriptHost.Proofs.Syntax.Nesting

/-!
# How what is read is laid out

The machine reads nodes and comments one behind the other and makes constructs of the nodes that it has read last.  So
all nodes and comments that a rule has read are laid out in the order of the text (`Rule.layout_of_read`).  That names
are tokens can be seen from the rules (`Rule.namesTokens`).
-/

namespace ScriptHost.Syntax

open ScriptHost.Text

/-! ### Comments in a gap -/

theorem byteLength_reverse (cs : List Char) : byteLength cs.reverse = byteLength cs := by
  induction cs with
  | nil => rfl
  | cons c cs ih =>
    rw [List.reverse_cons, byteLength_append, byteLength_cons, byteLength_cons, byteLength_nil, ih]
    omega

/-- What an unfinished scan has passed lies in order before its place. -/
def Gap.Mode.Fits (lo : Nat) (comments : List Comment) (offset : Nat) : Gap.Mode → Prop
  | .spacing => InOrder Comment.start Comment.stop lo offset comments.reverse
  | .line start text =>
    InOrder Comment.start Comment.stop lo start comments.reverse ∧ offset = start + byteLength text
  | .block opened text =>
    InOrder Comment.start Comment.stop lo opened.offset comments.reverse ∧ offset = opened.offset + byteLength text

theorem InOrder.later {α : Type} {start stop : α → Nat} {lo hi hi' : Nat} {l : List α}
    (h : InOrder start stop lo hi l) (hle : hi ≤ hi') : InOrder start stop lo hi' l := by
  have happend := h.append (.nil hle)
  rwa [List.append_nil] at happend

/-- A comment that has been passed is the last one. -/
private theorem inOrder_comment {lo start offset : Nat} {comments : List Comment} {text : List Char}
    (h : InOrder Comment.start Comment.stop lo start comments.reverse) (hoffset : offset = start + byteLength text) :
    InOrder Comment.start Comment.stop lo offset
      ((⟨start, String.ofList text.reverse⟩ :: comments : List Comment)).reverse := by
  have hstop : (Comment.mk start (String.ofList text.reverse)).stop = offset := by
    rw [hoffset, Comment.stop, utf8ByteSize_ofList, byteLength_reverse]
  rw [List.reverse_cons]
  exact h.append (.singleton le_rfl (Nat.le_add_right ..) hstop.le)

private theorem Gap.inOrder_scanFrom (lo : Nat) (comments : List Comment) (broken : Bool) (mode : Mode) (offset : Nat)
    (cs : List Char) (h : mode.Fits lo comments offset) :
    InOrder Comment.start Comment.stop lo (scanFrom comments broken mode offset cs).next.offset
      (scanFrom comments broken mode offset cs).comments.reverse := by
  fun_induction scanFrom comments broken mode offset cs with
  | case1 => exact h
  | case2 comments broken offset rest ih => exact ih ⟨h, rfl⟩
  | case3 comments broken offset rest ih => exact ih ⟨h, rfl⟩
  | case4 comments broken offset c rest h₁ h₂ hc ih => exact ih (InOrder.later h (Nat.le_add_right ..))
  | case5 => exact h
  | case6 comments broken start text offset => exact inOrder_comment h.1 h.2
  | case7 comments broken start text offset c rest hc ih =>
    exact ih ((inOrder_comment h.1 h.2).later (Nat.le_add_right ..))
  | case8 comments broken start text offset c rest hc ih =>
    refine ih ⟨h.1, ?_⟩
    rw [h.2, byteLength_cons]
    omega
  | case9 comments broken opened text offset => exact h.1
  | case10 comments broken opened text offset rest ih =>
    refine ih (inOrder_comment h.1 ?_)
    rw [h.2, byteLength_cons, byteLength_cons, show '/'.utf8Size = 1 from rfl, show '*'.utf8Size = 1 from rfl]
    omega
  | case11 comments broken opened text offset c rest h' ih =>
    refine ih ⟨h.1, ?_⟩
    rw [h.2, byteLength_cons]
    omega

theorem Gap.inOrder_scan (c : Cursor) :
    InOrder Comment.start Comment.stop c.offset (scan c).next.offset (scan c).comments.reverse :=
  inOrder_scanFrom c.offset [] false .spacing c.offset c.rest (.nil le_rfl)

theorem Cursor.LeadsTo.end_eq {c c' : Cursor} (h : c.LeadsTo c') :
    c'.offset + byteLength c'.rest = c.offset + byteLength c.rest := by
  obtain ⟨taken, hrest, hoffset⟩ := h
  rw [hrest, hoffset, byteLength_append, Nat.add_assoc]

theorem Cursor.LeadsTo.length_le {c c' : Cursor} (h : c.LeadsTo c') : c'.rest.length ≤ c.rest.length := by
  obtain ⟨taken, hrest, -⟩ := h
  rw [hrest, List.length_append]
  exact Nat.le_add_left ..

theorem Cursor.LeadsTo.length_lt {c c' : Cursor} (h : c.LeadsTo c') (hlt : c.offset < c'.offset) :
    c'.rest.length < c.rest.length := by
  obtain ⟨taken, hrest, hoffset⟩ := h
  have hpos : 0 < taken.length := by
    refine List.length_pos_iff.2 ?_
    rintro rfl
    rw [byteLength_nil] at hoffset
    omega
  rw [hrest, List.length_append]
  omega

namespace State

variable {c : Cursor} {nodes : List Node} {comments : List Comment} {s' : State}

/-- A cursor that is moved on to a byte of its text does not stop before it. -/
private theorem le_offset_skipTo {s : State} {stop : Nat} (h : stop ≤ s.tail.offset + byteLength s.tail.rest) :
    stop ≤ (ending?.skipTo s stop).offset := by
  have hgo : ∀ offset rest, stop ≤ offset + byteLength rest → stop ≤ (ending?.skipTo.go stop offset rest).offset := by
    intro offset rest hle
    fun_induction ending?.skipTo.go stop offset rest with
    | case1 offset => simpa using hle
    | case2 offset c rest hstop => exact hstop
    | case3 offset c rest hstop ih =>
      refine ih ?_
      rw [byteLength_cons] at hle
      omega
  exact hgo _ _ h

/-- What is taken into a statement at its end are comments, one behind the other. -/
private theorem inOrder_of_ending (e : Ending) (h : (behind c nodes comments).ending? e = some s') :
    ∃ c' added, c.LeadsTo c' ∧ InOrder Comment.start Comment.stop c.offset c'.offset added.reverse ∧
      s' = behind c' nodes (added ++ comments) := by
  have hgo : ∀ fuel s later lo hi, InOrder Comment.start Comment.stop lo hi later →
      hi ≤ s.tail.offset + byteLength s.tail.rest → ∀ s', ending?.go e fuel s later = some s' →
        ∃ c' added, s.tail.LeadsTo c' ∧ InOrder Comment.start Comment.stop lo c'.offset added.reverse ∧
          s' = behind c' s.nodes (added ++ s.comments) := by
    intro fuel s later
    fun_induction ending?.go e fuel s later with
    | case1 => rintro - - - - - ⟨⟩
    | case2 => rintro - - - - - ⟨⟩
    | case3 fuel s comment later s₁ hends =>
      rintro lo hi hlater hhi s' ⟨rfl⟩
      obtain ⟨hlo, hle, hstop⟩ := hlater.within comment (List.mem_cons_self ..)
      exact ⟨_, [comment], leadsTo_skipTo s comment.stop, .singleton hlo hle (le_offset_skipTo (hstop.trans hhi)), rfl⟩
    | case4 fuel s comment later s₁ hends ih =>
      intro lo hi hlater hhi s' hs'
      obtain ⟨hlo, hle, hstop⟩ := hlater.within comment (List.mem_cons_self ..)
      obtain ⟨hfirst, -⟩ := List.pairwise_cons.1 hlater.pairwise
      have hrest : InOrder Comment.start Comment.stop comment.stop hi later :=
        hlater.restrict (List.sublist_cons_self ..) hstop hfirst fun a ha =>
          (hlater.within a (List.mem_cons_of_mem _ ha)).2.2
      have hskip := leadsTo_skipTo s comment.stop
      obtain ⟨c', added, hc', hadded, rfl⟩ := ih _ _ hrest (hhi.trans hskip.end_eq.ge) s' hs'
      refine ⟨c', added ++ [comment], hskip.trans hc', ?_, by rw [List.append_assoc]; rfl⟩
      rw [List.reverse_append]
      exact InOrder.append (.singleton hlo hle le_rfl) hadded
  unfold ending? at h
  split at h
  · cases h
    exact ⟨c, [], .refl c, .nil le_rfl, rfl⟩
  · refine hgo _ _ _ _ _ (Gap.inOrder_scan c) ?_ _ h
    show (Gap.scan c).next.offset ≤ c.offset + byteLength c.rest
    rw [← (Gap.leadsTo_scan c).end_eq]
    exact Nat.le_add_right ..

end State

/-! ### What a turn keeps -/

/-- Nodes are changed in nothing but their kinds and places, and no name is made of what is no name. -/
structure Faithful (isName : String → Bool) (f : Node → Node) : Prop where
  start (n : Node) : (f n).start = n.start
  stop (n : Node) : (f n).stop = n.stop
  tidy {n : Node} : n.Tidy isName → (f n).Tidy isName
  clear {n : Node} {c : Comment} : c.Clear n → c.Clear (f n)

private theorem faithful_id (isName : String → Bool) : Faithful isName id := ⟨fun _ => rfl, fun _ => rfl, id, id⟩

private theorem faithful_withField (isName : String → Bool) (f : Field) : Faithful isName (Node.withField f) where
  start n := by cases n <;> rfl
  stop n := by cases n <;> rfl
  tidy h := by
    cases h with
    | leaf h => exact .leaf h
    | branch hkind horder hchildren => exact .branch hkind horder hchildren
  clear {n c} h := by
    cases h with
    | before h => exact .before (by cases n <;> exact h)
    | behind h => exact .behind (by cases n <;> exact h)
    | inside hstart hstop hchildren => exact .inside hstart hstop hchildren

namespace Layout

variable {isName : String → Bool} {lo hi : Nat} {nodes : List Node} {comments : List Comment}

private theorem of_append_right {before nodes : List Node} (h : Layout isName lo hi (before ++ nodes) comments) :
    Layout isName lo hi nodes comments where
  nodesInOrder := h.nodesInOrder.sublist (List.sublist_append_right ..)
  commentsInOrder := h.commentsInOrder
  tidy n hn := h.tidy n (List.mem_append_right _ hn)
  clear c hc n hn := h.clear c hc n (List.mem_append_right _ hn)

private theorem of_append_left {nodes behind : List Node} (h : Layout isName lo hi (nodes ++ behind) comments) :
    Layout isName lo hi nodes [] where
  nodesInOrder := h.nodesInOrder.sublist (List.sublist_append_left ..)
  commentsInOrder := .nil h.le
  tidy n hn := h.tidy n (List.mem_append_left _ hn)
  clear := nofun

/-- The last node may be replaced by one that covers the same. -/
private theorem replaceLast {f : Node → Node} (hf : Faithful isName f) {n : Node}
    (h : Layout isName lo hi (nodes ++ [n]) comments) : Layout isName lo hi (nodes ++ [f n]) comments := by
  obtain ⟨hnodes, hlast⟩ := List.forall_mem_append.1 h.tidy
  obtain ⟨hpairwise, -, hacross⟩ := List.pairwise_append.1 h.nodesInOrder.pairwise
  refine
    { nodesInOrder := ⟨h.le, fun a ha => ?_, List.pairwise_append.2 ⟨hpairwise, List.pairwise_singleton .., ?_⟩⟩
      commentsInOrder := h.commentsInOrder
      tidy := List.forall_mem_append.2 ⟨hnodes, ?_⟩
      clear := fun c hc => ?_ }
  · rcases List.mem_append.1 ha with ha | ha
    · exact h.nodesInOrder.within a (List.mem_append_left _ ha)
    · rw [List.mem_singleton.1 ha, hf.start, hf.stop]
      exact h.nodesInOrder.within n (List.mem_append_right _ (List.mem_singleton_self n))
  · intro a ha b hb
    rw [List.mem_singleton.1 hb, hf.start]
    exact hacross a ha n (List.mem_singleton_self n)
  · exact List.forall_mem_singleton.2 (hf.tidy (hlast n (List.mem_singleton_self n)))
  · obtain ⟨hclear, hclearLast⟩ := List.forall_mem_append.1 (h.clear c hc)
    have hclearLast := hf.clear (hclearLast n (List.mem_singleton_self n))
    exact List.forall_mem_append.2 ⟨hclear, List.forall_mem_singleton.2 hclearLast⟩

/-- The last nodes may be made one construct, which starts with the first of them. -/
theorem close {kind : String} {place : Option Field} {start stop : Nat} {children : List Node}
    (h : Layout isName lo hi (nodes ++ children) comments) (hkind : isName kind = false)
    (hstart : start = (children.head?.map Node.start).getD stop) (hbefore : Layout isName lo stop nodes [])
    (hchildren : ∀ n ∈ children, n.stop ≤ stop) (hhi : stop ≤ hi)
    (hedge : ∀ c ∈ comments, c.stop ≤ stop ∨ stop ≤ c.start) :
    Layout isName lo hi (nodes ++ [.branch kind place start stop children]) comments := by
  have hright := h.of_append_right
  -- the construct begins where its first child does, and the nodes and comments before it end before that
  have hbegin : start ≤ stop ∧ (∀ n ∈ children, start ≤ n.start) ∧ lo ≤ start ∧ (∀ n ∈ nodes, n.stop ≤ start) ∧
      ∀ c ∈ comments, c.stop ≤ start ∨ start ≤ c.start := by
    cases children with
    | nil =>
      obtain rfl : start = stop := hstart
      exact ⟨le_rfl, nofun, hbefore.le, fun n hn => (hbefore.nodesInOrder.within n hn).2.2, hedge⟩
    | cons first more =>
      obtain rfl : start = first.start := hstart
      obtain ⟨hlo, hle, -⟩ := hright.nodesInOrder.within first (List.mem_cons_self ..)
      obtain ⟨hfirst, -⟩ := List.pairwise_cons.1 hright.nodesInOrder.pairwise
      refine ⟨hle.trans (hchildren first (List.mem_cons_self ..)), ?_, hlo, fun n hn => ?_, fun c hc => ?_⟩
      · exact List.forall_mem_cons.2 ⟨le_rfl, fun n hn => hle.trans (hfirst n hn)⟩
      · exact (List.pairwise_append.1 h.nodesInOrder.pairwise).2.2 n hn first (List.mem_cons_self ..)
      · exact ((hright.clear c hc first (List.mem_cons_self ..)).edges hle).1
  obtain ⟨hle, hwithin, hlo, hnodes, hcomments⟩ := hbegin
  have horder : InOrder Node.start Node.stop start stop children :=
    h.nodesInOrder.restrict (List.sublist_append_right ..) hle hwithin hchildren
  have hnodesInOrder : InOrder Node.start Node.stop lo start nodes :=
    h.nodesInOrder.restrict (List.sublist_append_left ..) hlo
      (fun n hn => (h.nodesInOrder.within n (List.mem_append_left _ hn)).1) hnodes
  refine
    { nodesInOrder := hnodesInOrder.append (.singleton le_rfl hle hhi)
      commentsInOrder := h.commentsInOrder
      tidy := List.forall_mem_append.2 ⟨hbefore.tidy, List.forall_mem_singleton.2 (.branch hkind horder hright.tidy)⟩
      clear := fun c hc => List.forall_mem_append.2 ⟨fun n hn => h.clear c hc n (List.mem_append_left _ hn), ?_⟩ }
  exact List.forall_mem_singleton.2 (.branch (hcomments c hc) (hedge c hc) (hright.clear c hc))

end Layout

namespace Rule

variable {σ : Type}

/-- Whether every token that a rule takes for a name is a construct with a text, and no construct of several tokens is
taken for one. -/
def namesTokens (isName : String → Bool) : Rule σ → Bool
  | token kind named l => !isName kind || (named && l.isFilled)
  | glued kind _ _ => !isName kind
  | seq a b => a.namesTokens isName && b.namesTokens isName
  | alt a b => a.namesTokens isName && b.namesTokens isName
  | many a => a.namesTokens isName
  | absent a => a.namesTokens isName
  | node kind a => !isName kind && a.namesTokens isName
  | grow kind _ a => !isName kind && a.namesTokens isName
  | field _ a => a.namesTokens isName
  | _ => true

end Rule

section

variable {σ : Type} {grammar : σ → Rule σ} {isName : String → Bool}

/-- Only tokens are names in a grammar, and how it recasts nodes does not change that. -/
structure Names (isName : String → Bool) (grammar : σ → Rule σ) : Prop where
  namesTokens x : (grammar x).namesTokens isName = true
  recasts x : ∀ f ∈ (grammar x).recasts, Faithful isName f

/-- What a task makes of tokens. -/
def Task.namesTokens (isName : String → Bool) : Task σ → Bool
  | .run r => r.namesTokens isName
  | .again r _ => r.namesTokens isName
  | .close kind _ => !isName kind
  | _ => true

/-- All nodes and comments that have been read from a cursor on are laid out in the order of the text. -/
structure Laid (isName : String → Bool) (start : Cursor) (tasks : List (Task σ)) (s : State) : Prop where
  namesTokens : ∀ t ∈ tasks, t.namesTokens isName = true
  recasts : ∀ t ∈ tasks, ∀ f ∈ t.recasts, Faithful isName f
  behind : s = .behind s.tail s.nodes s.comments
  layout : Layout isName start.offset s.tail.offset (s.nodes ++ opened tasks).reverse s.comments.reverse

private theorem namesTokens_of_turn (hg : Names isName grammar) {t : Task σ} {new : List (Task σ)} {s s' : State}
    (ht : t.namesTokens isName = true) (hturn : Turn grammar t s new s') : ∀ u ∈ new, u.namesTokens isName = true := by
  cases hturn with
  | ref =>
    rename_i x
    simpa [Task.namesTokens] using hg.namesTokens x
  | _ => simp_all [Task.namesTokens, Rule.namesTokens]

private theorem faithful_of_turn (hg : Names isName grammar) {t : Task σ} {new : List (Task σ)} {s s' : State}
    (ht : ∀ f ∈ t.recasts, Faithful isName f) (hturn : Turn grammar t s new s') :
    ∀ u ∈ new, ∀ f ∈ u.recasts, Faithful isName f := by
  cases hturn with
  | ref =>
    rename_i x
    simpa [Task.recasts] using hg.recasts x
  | _ => simp_all [Task.recasts, Rule.recasts]

/-- A token that is taken comes behind the comments before it. -/
theorem layout_token {c : Cursor} {kind : String} {named : Bool} {start : Nat} {taken : List Char}
    {comments : List Comment} (hcomments : InOrder Comment.start Comment.stop c.offset start comments)
    (hname : isName kind = true → named = true ∧ taken ≠ []) :
    Layout isName c.offset (start + byteLength taken) [.leaf kind named none start (String.ofList taken)] comments where
  nodesInOrder := by
    refine .singleton hcomments.le (Nat.le_add_right ..) ?_
    show start + (String.ofList taken).utf8ByteSize ≤ _
    rw [utf8ByteSize_ofList]
  commentsInOrder := hcomments.later (Nat.le_add_right ..)
  tidy := by
    refine List.forall_mem_singleton.2 (.leaf fun hkind => ?_)
    obtain ⟨hnamed, htaken⟩ := hname hkind
    exact ⟨hnamed, by simpa using htaken⟩
  clear comment hc := List.forall_mem_singleton.2 (.before (hcomments.within comment hc).2.2)

private theorem layout_mapLast {lo : Nat} {c : Cursor} {nodes outer : List Node} {comments : List Comment}
    {f : Node → Node}
    (hf : Faithful isName f) (h : Layout isName lo c.offset (nodes ++ outer).reverse comments.reverse) :
    Layout isName lo c.offset (((State.behind c nodes comments).mapLast f).nodes ++ outer).reverse comments.reverse := by
  cases nodes with
  | nil => exact h
  | cons n rest =>
    show Layout isName lo c.offset (f n :: (rest ++ outer)).reverse comments.reverse
    rw [List.cons_append, List.reverse_cons] at h
    rw [List.reverse_cons]
    exact h.replaceLast hf

/-- A turn keeps all nodes and comments in the order of the text. -/
private theorem layout_of_turn {lo : Nat} {c : Cursor} {nodes : List Node} {comments : List Comment} {t : Task σ}
    {rest new : List (Task σ)} {s' : State} (ht : t.namesTokens isName = true)
    (hrecasts : ∀ f ∈ t.recasts, Faithful isName f) (hturn : Turn grammar t (.behind c nodes comments) new s')
    (h : Layout isName lo c.offset (nodes ++ opened (t :: rest)).reverse comments.reverse) :
    Layout isName lo s'.tail.offset (s'.nodes ++ opened (new ++ rest)).reverse s'.comments.reverse := by
  cases hturn with
  | token htoken =>
    rename_i kind named l
    obtain ⟨taken, left, htake, rfl⟩ := State.of_token _ _ htoken
    have hname : isName kind = true → named = true ∧ taken ≠ [] := by
      intro hkind
      rw [Task.namesTokens, Rule.namesTokens, hkind, Bool.not_true, Bool.false_or, Bool.and_eq_true] at ht
      exact ⟨ht.1, Lexeme.take?_ne_nil ht.2 State.ne_nil_of_word htake⟩
    have hall := h.append (layout_token (Gap.inOrder_scan c) hname)
    rwa [← List.reverse_append, ← List.reverse_cons] at hall
  | glued hglued =>
    rename_i kind named l
    obtain ⟨taken, left, htaken, rfl⟩ := State.of_glued _ _ hglued
    have hname : isName kind = true → named = true ∧ taken ≠ [] := by
      intro hkind
      rw [Task.namesTokens, Rule.namesTokens, hkind] at ht
      cases ht
    have hall := h.append (layout_token (.nil le_rfl) hname)
    rwa [List.append_nil, ← List.reverse_cons] at hall
  | ending hending =>
    obtain ⟨c', added, hc', hadded, rfl⟩ := State.inOrder_of_ending _ hending
    have hall := h.append (⟨.nil hc'.offset_le, hadded, nofun, fun _ _ => nofun⟩ : Layout isName _ _ [] added.reverse)
    rwa [List.append_nil, ← List.reverse_append] at hall
  | recast =>
    rename_i f
    rw [State.mapLast_behind]
    exact layout_mapLast (hrecasts f (List.mem_singleton_self f)) h
  | label =>
    rename_i f
    rw [State.mapLast_behind]
    exact layout_mapLast (faithful_withField isName f) h
  | close =>
    rename_i kind outer
    rw [Task.namesTokens, Bool.not_eq_true'] at ht
    show Layout isName lo c.offset (_ :: (outer ++ opened rest)).reverse comments.reverse
    replace h : Layout isName lo c.offset (nodes ++ (outer ++ opened rest)).reverse comments.reverse := h
    rw [List.reverse_append] at h
    rw [List.reverse_cons]
    refine h.close ht rfl h.of_append_left (fun n hn => ?_) le_rfl fun comment hc => ?_
    · exact (h.nodesInOrder.within n (List.mem_append_right _ hn)).2.2
    · exact .inl (h.commentsInOrder.within comment hc).2.2
  | grow hnodes =>
    rename_i kind f a left outer
    obtain rfl : nodes = left :: outer := hnodes
    have hf : Faithful isName fun n => f.elim n n.withField := by
      cases f with
      | none => exact faithful_id isName
      | some f => exact faithful_withField isName f
    have hleft : Layout isName lo c.offset ([left] ++ (outer ++ opened rest)).reverse comments.reverse := h
    exact layout_mapLast hf hleft
  | _ => exact h

private theorem carries_laid (hg : Names isName grammar) (start : Cursor) : Carries grammar (Laid isName start) where
  turn {t rest s new s'} h hturn := by
    obtain ⟨htasks, hrecasts, hbehind, hlayout⟩ := h
    obtain ⟨ht, hrest⟩ := List.forall_mem_cons.1 htasks
    obtain ⟨hf, hfrest⟩ := List.forall_mem_cons.1 hrecasts
    rw [hbehind] at hturn
    obtain ⟨c', nodes', comments', rfl, -⟩ := leadsTo_of_turn hturn
    exact
      { namesTokens := List.forall_mem_append.2 ⟨namesTokens_of_turn hg ht hturn, hrest⟩
        recasts := List.forall_mem_append.2 ⟨faithful_of_turn hg hf hturn, hfrest⟩
        behind := rfl
        layout := layout_of_turn ht hf hturn hlayout }
  probe {a rest s choices} h :=
    { namesTokens := by simpa [Task.namesTokens, Rule.namesTokens] using h.namesTokens _ (List.mem_cons_self ..)
      recasts := by simpa [Task.recasts, Rule.recasts] using h.recasts _ (List.mem_cons_self ..)
      behind := h.behind
      layout := by
        have hlayout := h.layout
        rw [List.reverse_append] at hlayout
        show Layout isName _ _ (s.nodes ++ []).reverse _
        rw [List.append_nil]
        exact hlayout.of_append_right }

/-- What a rule has read is laid out in the order of the text. -/
theorem Rule.layout_of_read (hg : Names isName grammar) {r : Rule σ} (hr : r.namesTokens isName = true)
    (hrecasts : ∀ f ∈ r.recasts, Faithful isName f) {c : Cursor} {s : State} (h : r.read grammar c = .matched s) :
    Layout isName c.offset s.tail.offset s.nodes.reverse s.comments.reverse := by
  have hstart : Laid isName c [.run r] (.behind c [] []) :=
    { namesTokens := List.forall_mem_singleton.2 hr
      recasts := List.forall_mem_singleton.2 hrecasts
      behind := rfl
      layout := .nil le_rfl }
  have hlaid : Laid isName c [] s := read_carries (carries_laid hg c) hstart h
  have hlayout := hlaid.layout
  rwa [show opened ([] : List (Task σ)) = [] from rfl, List.append_nil] at hlayout

end

end ScriptHost.Syntax
