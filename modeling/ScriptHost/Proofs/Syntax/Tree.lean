import ScriptHost.Proofs.Syntax.Extent

/-!
# The statements of a tree

A text without an error is read one statement after the other (`Reads`), and these are the statements of its tree
(`tree_spec`).  Every statement covers the text from the token that comes next to where reading goes on (`Covers`).
-/

namespace ScriptHost.Syntax

open ScriptHost.Text

theorem Rule.of_read_token {σ : Type} {grammar : σ → Rule σ} {kind : String} {named : Bool} {l : Lexeme} {c : Cursor}
    {s : State} (h : (Rule.token kind named l).read grammar c = .matched s) :
    (State.behind c [] []).token? kind named l = some s := by
  have hfuel : Nat.pow 10 12 = 999999999998 + 2 := by decide
  let m : Machine σ := ⟨[.run (.token kind named l)], .behind c [] [], [], c.offset⟩
  have hstep : m.step grammar = m.next [] ((State.behind c [] []).token? kind named l) := rfl
  have hrun : m.run grammar (999999999998 + 2) = .matched s := by rw [← hfuel]; exact h
  rw [Machine.run, hstep] at hrun
  cases htoken : (State.behind c [] []).token? kind named l with
  | none =>
    rw [htoken] at hrun
    cases hrun
  | some s' =>
    rw [htoken] at hrun
    exact congrArg some (Reading.matched.inj hrun)

namespace Script

/-! ### One statement -/

private abbrev hashBang : Part := Rule.leaf "hash_bang_line" .hashBang

/-- What comes next in a text: a statement, or at the very beginning the line that names an interpreter. -/
def readNext (d : Dialect) (opening : Bool) (c : Cursor) : Reading :=
  match opening, (Rule.leaf "hash_bang_line" .hashBang : Part).read (grammar d) c with
  | true, .matched s => .matched s
  | _, _ => readStatement d c

/-- The node `n` covers the characters `taken`, which come next, and reading goes on behind them. -/
structure Covers (c : Cursor) (s : State) (n : Node) (taken : List Char) : Prop where
  ne_nil : taken ≠ []
  rest : (Gap.scan c).next.rest = taken ++ s.tail.rest
  tail : s.tail.offset = (Gap.scan c).next.offset + byteLength taken
  nodes : s.nodes = [n]
  start : n.start = (Gap.scan c).next.offset
  stop : n.stop = s.tail.offset
  kind : isStatementKind n.kind = true
  named : n.isNamed = true
  text : ∀ before, byteLength before = (Gap.scan c).next.offset →
    n.textIn (String.ofList (before ++ (Gap.scan c).next.rest)) = String.ofList taken

section

variable {d : Dialect} {opening : Bool} {c c' : Cursor} {s : State} {k : Nat}

theorem begins_hashBang : hashBang.Begins mayBeEmpty where
  leads := rfl
  nonempty := rfl
  recasts := nofun

theorem covers_readStatement (h : readStatement d c = .matched s) : ∃ n taken, Covers c s n taken := by
  obtain ⟨kind, children, hkind, hs⟩ := readStatement_covers h
  obtain ⟨-, ⟨taken, hrest, hoffset⟩, hlt⟩ := Rule.leadsTo_of_read (leads_grammar d) begins_statement h
  refine ⟨_, taken, ?_, hrest, hoffset, hs, rfl, rfl, hkind, rfl, fun before hbefore => ?_⟩
  · rintro rfl
    rw [byteLength_nil] at hoffset
    omega
  · show slice (String.ofList (before ++ (Gap.scan c).next.rest)) (Gap.scan c).next.offset s.tail.offset = _
    rw [hoffset, hrest, ← List.append_assoc, ← hbefore, slice_append]

private theorem covers_hashBang (h : hashBang.read (grammar d) c = .matched s) : ∃ n taken, Covers c s n taken := by
  obtain ⟨taken, left, htake, rfl⟩ := State.of_token _ _ (Rule.of_read_token h)
  have hne : taken ≠ [] := Lexeme.take?_ne_nil rfl State.ne_nil_of_word htake
  exact ⟨_, taken, hne, (Lexeme.take?_append htake).symm, rfl, rfl, rfl,
    congrArg _ (utf8ByteSize_ofList taken), rfl, rfl, fun _ _ => rfl⟩

theorem covers_readNext (h : readNext d opening c = .matched s) : ∃ n taken, Covers c s n taken := by
  unfold readNext at h
  split at h
  · cases h
    rename_i heq
    exact covers_hashBang heq
  · exact covers_readStatement h

/-- Where the same comes next, the same is read. -/
theorem readNext_alike (d : Dialect) (opening : Bool) (hgap : Gap.Alike k (Gap.scan c) (Gap.scan c')) :
    (∃ s, readNext d opening c = .matched s ∧ readNext d opening c' = .matched (s.shift k)) ∨
      ∃ reach reach', readNext d opening c = .failed reach ∧ readNext d opening c' = .failed reach' := by
  have hstatement := Rule.read_alike (leads_grammar d) begins_statement hgap
  cases opening with
  | false => exact hstatement
  | true =>
    unfold readNext
    rcases Rule.read_alike (leads_grammar d) begins_hashBang hgap with ⟨s, h, h'⟩ | ⟨reach, reach', h, h'⟩
    · rw [h, h']
      exact .inl ⟨s, rfl, rfl⟩
    · rw [h, h']
      exact hstatement

private theorem length_lt_of_covers {n : Node} {taken : List Char} (h : Covers c s n taken) :
    s.tail.rest.length < c.rest.length := by
  obtain ⟨skipped, hrest, -⟩ := Gap.leadsTo_scan c
  have hpos := List.length_pos_iff.2 h.ne_nil
  rw [hrest, h.rest, List.length_append, List.length_append]
  omega

end

/-! ### All statements -/

/-- The statements that are read from a place to the end of the text without an error, and what they cover. -/
inductive Reads (d : Dialect) : Bool → Cursor → List Node → List (List Char) → Prop where
  | ended {opening c} (h : (Gap.scan c).next.rest = []) : Reads d opening c [] []
  | next {opening c s n taken nodes texts} (h : readNext d opening c = .matched s) (hn : Covers c s n taken)
    (hrest : Reads d false s.tail nodes texts) : Reads d opening c (n :: nodes) (taken :: texts)

section

variable {d : Dialect} {opening : Bool} {c : Cursor} {nodes : List Node} {texts : List (List Char)}

private theorem readAll_of_reads (h : Reads d false c nodes texts) {fuel : Nat} (hfuel : c.rest.length < fuel)
    (statements : List Node) (comments : List Comment) :
    (readAll d fuel ⟨c, statements, comments⟩).statements = nodes.reverse ++ statements := by
  induction fuel generalizing c nodes texts statements comments with
  | zero => exact absurd hfuel (Nat.not_lt_zero _)
  | succ fuel ih =>
    unfold readAll
    dsimp only
    cases h with
    | ended h => rw [if_pos (by rw [h]; rfl)]; rfl
    | next h hn hrest =>
      rename_i s n taken nodes texts
      have hne : (Gap.scan c).next.rest.isEmpty = false := by
        rw [hn.rest, List.isEmpty_eq_false_iff]
        exact List.append_ne_nil_of_left_ne_nil hn.ne_nil _
      have hread : readStatement d c = .matched s := h
      have hlt := length_lt_of_covers hn
      rw [if_neg (by rw [hne]; exact Bool.false_ne_true), hread]
      dsimp only
      rw [ih hrest (by omega), hn.nodes, List.reverse_cons, List.append_assoc]

/-- What has been read stays, and what is read later is put before it. -/
theorem suffix_readAll (d : Dialect) (fuel : Nat) (p : Progress) :
    p.statements <:+ (readAll d fuel p).statements := by
  induction fuel generalizing p with
  | zero => exact List.suffix_rfl
  | succ fuel ih =>
    unfold readAll
    dsimp only
    split
    · exact List.suffix_rfl
    · split
      · exact List.IsSuffix.trans (List.suffix_append ..) (ih ⟨_, _, _⟩)
      · exact List.IsSuffix.trans (List.suffix_cons ..) (ih ⟨_, _, _⟩)

private theorem reads_of_readAll {fuel : Nat} {p : Progress} (hfuel : p.place.rest.length < fuel)
    (h : ∀ n ∈ (readAll d fuel p).statements, n.isNamed = true → n.kind ≠ "ERROR") :
    ∃ nodes texts, Reads d false p.place nodes texts ∧
      (readAll d fuel p).statements = nodes.reverse ++ p.statements := by
  induction fuel generalizing p with
  | zero => exact absurd hfuel (Nat.not_lt_zero _)
  | succ fuel ih =>
    unfold readAll at h ⊢
    dsimp only at h ⊢
    split
    · rename_i hempty
      exact ⟨[], [], .ended (List.isEmpty_iff.1 hempty), rfl⟩
    · rename_i hempty
      rw [if_neg hempty] at h
      cases hread : readStatement d p.place with
      | matched s =>
        rw [hread] at h
        dsimp only at h ⊢
        obtain ⟨n, taken, hn⟩ := covers_readStatement hread
        have hlt := length_lt_of_covers hn
        obtain ⟨nodes, texts, hrest, heq⟩ := ih (p := ⟨s.tail, _, _⟩) (by show s.tail.rest.length < fuel; omega) h
        refine ⟨n :: nodes, taken :: texts, .next hread hn hrest, ?_⟩
        rw [heq, hn.nodes, List.reverse_cons, List.append_assoc]
      | failed reach =>
        rw [hread] at h
        dsimp only at h
        exact absurd rfl (h _ ((suffix_readAll d fuel ⟨_, _, _⟩).subset (List.mem_cons_self ..)) rfl)

theorem readNext_of_failed {reach : Nat} (h : hashBang.read (grammar d) c = .failed reach) :
    readNext d opening c = readStatement d c := by
  unfold readNext
  rw [h]
  cases opening <;> rfl

/-- Where no interpreter is named, it makes no difference whether a text begins. -/
private theorem reads_of_failed {reach : Nat} (h : hashBang.read (grammar d) c = .failed reach) :
    Reads d true c nodes texts ↔ Reads d false c nodes texts := by
  constructor
  · rintro (hend | ⟨hread, hn, hrest⟩)
    · exact .ended hend
    · rw [readNext_of_failed h] at hread
      exact .next hread hn hrest
  · rintro (hend | ⟨hread, hn, hrest⟩)
    · exact .ended hend
    · refine .next ?_ hn hrest
      rw [readNext_of_failed h]
      exact hread

theorem readNext_of_matched {s : State} (h : hashBang.read (grammar d) c = .matched s) :
    readNext d true c = .matched s := by
  unfold readNext
  rw [h]

/-- What has been read of a text before its first statement. -/
def beginning (d : Dialect) (chars : List Char) : Progress :=
  match hashBang.read (grammar d) ⟨0, chars⟩ with
  | .matched s => ⟨s.tail, s.nodes, s.comments⟩
  | .failed _ => ⟨⟨0, chars⟩, [], []⟩

private theorem statements_of_reads {chars : List Char} (h : Reads d true ⟨0, chars⟩ nodes texts) :
    (readAll d (chars.length + 1) (beginning d chars)).statements = nodes.reverse := by
  unfold beginning
  cases hfirst : hashBang.read (grammar d) ⟨0, chars⟩ with
  | failed reach =>
    have hall := readAll_of_reads ((reads_of_failed hfirst).1 h) (Nat.lt_succ_self _) [] []
    rwa [List.append_nil] at hall
  | matched s =>
    obtain ⟨n, taken, hn⟩ := covers_hashBang hfirst
    have hlt : s.tail.rest.length < chars.length := length_lt_of_covers hn
    cases h with
    | ended hend =>
      rw [hn.rest] at hend
      exact absurd (List.append_eq_nil_iff.1 hend).1 hn.ne_nil
    | next hread hn' hrest =>
      obtain rfl := Reading.matched.inj ((readNext_of_matched hfirst).symm.trans hread)
      have hall := readAll_of_reads hrest (hlt.trans (Nat.lt_succ_self _)) s.nodes s.comments
      rw [List.reverse_cons, ← hn'.nodes]
      exact hall

private theorem reads_of_statements {chars : List Char}
    (h : ∀ n ∈ (readAll d (chars.length + 1) (beginning d chars)).statements, n.isNamed = true → n.kind ≠ "ERROR") :
    ∃ nodes texts, Reads d true ⟨0, chars⟩ nodes texts ∧
      (readAll d (chars.length + 1) (beginning d chars)).statements = nodes.reverse := by
  unfold beginning at h ⊢
  cases hfirst : hashBang.read (grammar d) ⟨0, chars⟩ with
  | failed reach =>
    rw [hfirst] at h
    obtain ⟨nodes, texts, hreads, hall⟩ := reads_of_readAll (p := ⟨⟨0, chars⟩, [], []⟩) (Nat.lt_succ_self _) h
    rw [List.append_nil] at hall
    exact ⟨nodes, texts, (reads_of_failed hfirst).2 hreads, hall⟩
  | matched s =>
    rw [hfirst] at h
    obtain ⟨n, taken, hn⟩ := covers_hashBang hfirst
    have hlt : s.tail.rest.length < chars.length := length_lt_of_covers hn
    obtain ⟨nodes, texts, hreads, hall⟩ :=
      reads_of_readAll (p := ⟨s.tail, s.nodes, s.comments⟩) (hlt.trans (Nat.lt_succ_self _)) h
    refine ⟨n :: nodes, taken :: texts, .next (readNext_of_matched hfirst) hn hreads, ?_⟩
    rw [List.reverse_cons, ← hn.nodes]
    exact hall

/-- The statements at the top of a tree, to which comments are added: if a text can be read without an error, they are
what is read, and if none of them is an error, the text can be read. -/
theorem tree_spec (d : Dialect) (text : String) : ∃ comments nodes,
    tree d text = .branch "program" none 0 text.utf8ByteSize (weaveAll comments nodes) ∧
      (∀ nodes' texts, Reads d true ⟨0, text.toList⟩ nodes' texts → nodes = nodes') ∧
      ((∀ n ∈ nodes, n.isNamed = true → n.kind ≠ "ERROR") → ∃ texts, Reads d true ⟨0, text.toList⟩ nodes texts) := by
  let whole := readAll d (text.toList.length + 1) (beginning d text.toList)
  refine ⟨whole.comments.reverse, whole.statements.reverse, rfl, ?_, ?_⟩
  · intro nodes' texts hreads
    rw [statements_of_reads hreads, List.reverse_reverse]
  · intro herror
    obtain ⟨nodes, texts, hreads, hall⟩ := reads_of_statements fun n hn => herror n (List.mem_reverse.2 hn)
    rw [hall, List.reverse_reverse]
    exact ⟨texts, hreads⟩

theorem texts_of_reads {text : List Char} (h : Reads d opening c nodes texts)
    (hc : (Cursor.mk 0 text).LeadsTo c) :
    nodes.map (Node.textIn (String.ofList text)) = texts.map String.ofList := by
  induction h with
  | ended => rfl
  | next hread hn hrest ih =>
    rename_i c s n taken nodes texts
    obtain ⟨before, htext, hoffset⟩ := hc.trans (Gap.leadsTo_scan c)
    have hbefore : byteLength before = (Gap.scan c).next.offset := by
      rw [hoffset, Nat.zero_add]
    have hn' : n.textIn (String.ofList text) = String.ofList taken := by
      have h := hn.text before hbefore
      rwa [← show text = before ++ (Gap.scan c).next.rest from htext] at h
    have hnext : (Cursor.mk 0 text).LeadsTo s.tail :=
      (hc.trans (Gap.leadsTo_scan c)).trans ⟨taken, hn.rest, hn.tail⟩
    rw [List.map_cons, List.map_cons, hn', ih hnext]

theorem kinds_of_reads (h : Reads d opening c nodes texts) :
    ∀ n ∈ nodes, isStatementKind n.kind = true ∧ n.isNamed = true := by
  induction h with
  | ended => exact nofun
  | next hread hn hrest ih => exact List.forall_mem_cons.2 ⟨⟨hn.kind, hn.named⟩, ih⟩

/-- All statements but the line that names an interpreter are constructs. -/
theorem branch_of_reads (h : Reads d opening c nodes texts) :
    ∀ n ∈ nodes, n.kind ≠ "hash_bang_line" → n = .branch n.kind n.field n.start n.stop n.children := by
  induction h with
  | ended => exact nofun
  | next hread hn hrest ih =>
    refine List.forall_mem_cons.2 ⟨fun hkind => ?_, ih⟩
    unfold readNext at hread
    split at hread
    · cases hread
      rename_i hbang
      obtain ⟨taken, left, -, rfl⟩ := State.of_token _ _ (Rule.of_read_token hbang)
      obtain rfl := List.head_eq_of_cons_eq hn.nodes
      exact absurd rfl hkind
    · obtain ⟨kind, children, -, hnodes⟩ := readStatement_covers hread
      obtain rfl := List.head_eq_of_cons_eq (hnodes.symm.trans hn.nodes)
      rfl

end

/-! ### Comments -/

@[simp] theorem kind_weave (comments : List Comment) (n : Node) : (weave comments n).kind = n.kind := by
  cases n with
  | leaf => rw [weave]
  | branch => rw [weave]; rfl

@[simp] theorem isNamed_weave (comments : List Comment) (n : Node) : (weave comments n).isNamed = n.isNamed := by
  cases n with
  | leaf => rw [weave]
  | branch => rw [weave]; rfl

@[simp] theorem field_weave (comments : List Comment) (n : Node) : (weave comments n).field = n.field := by
  cases n with
  | leaf => rw [weave]
  | branch => rw [weave]; rfl

@[simp] theorem textIn_weave (source : String) (comments : List Comment) (n : Node) :
    (weave comments n).textIn source = n.textIn source := by
  cases n with
  | leaf => rw [weave]
  | branch => rw [weave]; rfl

/-- Of the nodes that are no comments, comments leave all as they were in all that is not below them. -/
theorem map_filter_weaveAll {α : Type} {p : Node → Bool} {f : Node → α} (hp : ∀ comments n, p (weave comments n) = p n)
    (hf : ∀ comments n, f (weave comments n) = f n) (hc : ∀ c, p (commentNode c) = false) (comments : List Comment)
    (nodes : List Node) : ((weaveAll comments nodes).filter p).map f = (nodes.filter p).map f := by
  have hnone : ∀ comments : List Comment, (comments.map commentNode).filter p = [] := by
    intro comments
    simp [List.filter_eq_nil_iff, hc]
  induction nodes generalizing comments with
  | nil => rw [weaveAll, hnone, List.filter_nil]
  | cons n rest ih =>
    rw [weaveAll]
    rw [List.filter_append, hnone, List.nil_append, List.filter_cons, List.filter_cons, hp]
    split
    · rw [List.map_cons, List.map_cons, hf, ih]
    · exact ih _

end Script

end ScriptHost.Syntax
