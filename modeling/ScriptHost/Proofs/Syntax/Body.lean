import ScriptHost.Proofs.Syntax.Closing
import ScriptHost.Proofs.Syntax.First
import ScriptHost.Proofs.Syntax.Mark

/-!
# Where bodies begin

The body of a function, class or interface begins with an opening brace, and what stands before that brace in the
declaration does not end with a semicolon, unless a line ends in between (`Script.headed_tree`).  Both can be seen from
the rules: from `Rule.opens`, which reads a brace first, and from `Rule.seals`, which leads to sealed places.
-/

namespace ScriptHost.Syntax

variable {chars : List Char}

section

variable {σ : Type} {grammar : σ → Rule σ} {r : Rule σ} {s s' : State}

/-! ### Opening braces -/

/-- Whether a token begins with an opening brace. -/
def Lexeme.opens : Lexeme → Bool
  | symbol ('\x7b' :: _) _ => true
  | _ => false

private theorem Lexeme.eq_cons_of_opens {l : Lexeme} (hl : l.opens = true) {word : String} {cs taken left : List Char}
    (h : l.take? word cs = some (taken, left)) : (∃ more, cs = '\x7b' :: more) ∧ taken ≠ [] := by
  unfold opens at hl
  split at hl
  · rename_i mark barring
    obtain rfl := of_take?_symbol h
    exact ⟨⟨mark ++ left, (Lexeme.take?_append h).symm⟩, List.cons_ne_nil _ _⟩
  · cases hl

/-- Whether what a rule reads begins with an opening brace, if that of the symbols `e` does. -/
def Rule.opens (e : σ → Bool) : Rule σ → Bool
  | token _ _ l => l.opens
  | seq a _ => a.opens e
  | ref x => e x
  | _ => false

private theorem Rule.starts_of_opens {e : σ → Bool} (hr : r.opens e = true) :
    r.starts Lexeme.opens (fun sure x => sure && e x) true = true := by
  induction r with
  | token => exact hr
  | seq a b iha ihb => exact Bool.or_eq_true_iff.2 (.inl (iha hr))
  | ref => exact hr
  | _ => cases hr

/-- Such a rule reads an opening brace first, at the place of the next token. -/
private theorem Rule.Derives.brace_of_opens {e : σ → Bool} (hg : ∀ x, ∀ f ∈ (grammar x).recasts, Harmless f)
    (he : ∀ x, e x = true → (grammar x).opens e = true) (h : r.Derives grammar s s') (hr : r.opens e = true)
    (hrecasts : Recasts grammar r) (hs : s.In chars) :
    Starts Lexeme.opens s s' ∧ (∃ more, (Gap.scan s.tail).next.rest = '\x7b' :: more) ∧
      (Gap.scan s.tail).next.offset < s'.tail.offset := by
  have he' : ∀ sure x, (sure && e x) = true →
      (grammar x).starts Lexeme.opens (fun sure x => sure && e x) sure = true := by
    intro sure x hx
    rw [Bool.and_eq_true] at hx
    rw [hx.1]
    exact Rule.starts_of_opens (he x hx.2)
  have hstarts := (h.of_starts hg he' (Rule.starts_of_opens hr) hrecasts hs).resolve_left fun h => Bool.noConfusion h.1
  obtain ⟨l, taken, left, hl, htake, hbound⟩ := hstarts.token
  obtain ⟨hbrace, hne⟩ := Lexeme.eq_cons_of_opens hl htake
  have hpos := byteLength_pos hne
  exact ⟨hstarts, hbrace, by omega⟩

/-! ### Sealed places -/

/-- Whether the place behind what a rule reads is sealed, if the symbols `e` keep places sealed; `before` says whether
the place before it is. -/
def Rule.seals (e : σ → Bool) : Bool → Rule σ → Bool
  | _, token _ _ l => l.seals
  | _, glued _ _ l => l.seals
  | before, seq a b => b.seals e (a.seals e before)
  | before, alt a b => a.seals e before && b.seals e before
  | before, many a => before && a.seals e true
  | _, absent nothing => true
  | before, ref x => before && e x
  | before, node _ a => a.seals e before
  | before, grow _ _ a => a.seals e before
  | before, field _ a => a.seals e before
  | before, _ => before

/-- At a token that follows immediately, the word, if there is one, is what comes next. -/
private theorem State.word_glued (c : Cursor) (nodes : List Node) (comments : List Comment) :
    (if c.offset == (Gap.scan c).next.offset then (behind c nodes comments).word else "") = "" ∨
      ∃ left, takeWord? c.rest =
        some ((if c.offset == (Gap.scan c).next.offset then (behind c nodes comments).word else "").toList, left) := by
  split
  · rename_i hoffset
    have hnext : (Gap.scan c).next = c := (Gap.leadsTo_scan c).eq_of_le (beq_iff_eq.1 hoffset).ge
    have hword := State.word_behind c nodes comments
    rwa [hnext] at hword
  · exact .inl rfl

private theorem State.mapLast_ne_nil {f : Node → Node} (hs : s.nodes ≠ []) : (s.mapLast f).nodes ≠ [] := by
  unfold State.mapLast
  split
  · exact List.cons_ne_nil _ _
  · exact hs

private theorem Rule.Derives.sealed {e : σ → Bool} (hg : ∀ x, ∀ f ∈ (grammar x).recasts, Harmless f)
    (he : ∀ x, e x = true → (grammar x).seals e true = true) (h : r.Derives grammar s s') (hrecasts : Recasts grammar r)
    (hs : s.In chars) (before : Bool) (hbefore : before = true → Sealed chars s.tail.rest s.tail.rest)
    (hr : r.seals e before = true) :
    Sealed chars s'.tail.rest s'.tail.rest ∧ (before = true ∨ s'.nodes ≠ []) := by
  induction h generalizing before with
  | nothing | sameLine => exact ⟨hbefore hr, .inl hr⟩
  | enough =>
    obtain ⟨hr, -⟩ := Bool.and_eq_true_iff.1 hr
    exact ⟨hbefore hr, .inl hr⟩
  | @absent a s hne =>
    have hr : before = true := by
      cases a with
      | nothing => exact absurd rfl hne
      | _ => exact hr
    exact ⟨hbefore hr, .inl hr⟩
  | @token kind named l s s' h =>
    rw [hs.eq_behind] at h
    obtain ⟨taken, left, htake, rfl⟩ := State.of_token _ _ h
    have hsolid := Lexeme.any_getLast?_of_seals hr (State.word_behind ..) htake
    obtain ⟨front, hfront, -⟩ := hs.leads.trans (Gap.leadsTo_scan _)
    rw [← Lexeme.take?_append htake] at hfront
    exact ⟨.of_taken taken hfront.symm hsolid, .inr (List.cons_ne_nil _ _)⟩
  | @glued kind named l s s' h =>
    rw [hs.eq_behind] at h
    obtain ⟨⟨taken, left⟩, htake, rfl⟩ := Option.map_eq_some_iff.1 h
    have hsolid := Lexeme.any_getLast?_of_seals hr (State.word_glued ..) htake
    obtain ⟨front, hfront, -⟩ := hs.leads
    have happend : taken ++ left = s.tail.rest := Lexeme.take?_append htake
    rw [← happend] at hfront
    exact ⟨.of_taken taken hfront.symm hsolid, .inr (List.cons_ne_nil _ _)⟩
  | ending h => exact ⟨State.sealed_ending hs (hbefore hr) h, .inl hr⟩
  | seq ha hb iha ihb =>
    obtain ⟨hra, hrb⟩ := List.forall_mem_append.1 hrecasts
    have hs₁ := (ha.leadsTo hs).1
    obtain ⟨hsealed, hread⟩ := ihb hrb hs₁ _ (fun hmid => (iha hra hs _ hbefore hmid).1) hr
    refine ⟨hsealed, ?_⟩
    rcases hread with hmid | hne
    · exact (iha hra hs _ hbefore hmid).2.imp_right (hb.keepsFirst hg hrb hs₁).ne_nil
    · exact .inr hne
  | first h ih =>
    exact ih (List.forall_mem_append.1 hrecasts).1 hs _ hbefore (Bool.and_eq_true_iff.1 hr).1
  | second h ih =>
    exact ih (List.forall_mem_append.1 hrecasts).2 hs _ hbefore (Bool.and_eq_true_iff.1 hr).2
  | more ha hmany iha ihmany =>
    obtain ⟨hr, hra⟩ := Bool.and_eq_true_iff.1 hr
    have hmid := (iha hrecasts hs true (fun _ => hbefore hr) hra).1
    exact ⟨(ihmany hrecasts (ha.leadsTo hs).1 true (fun _ => hmid)
      (Bool.and_eq_true_iff.2 ⟨rfl, hra⟩)).1, .inl hr⟩
  | ref h ih =>
    obtain ⟨hr, hx⟩ := Bool.and_eq_true_iff.1 hr
    exact ⟨(ih (fun f hf => ⟨_, hf⟩) hs true (fun _ => hbefore hr) (he _ hx)).1, .inl hr⟩
  | node h ih => exact ⟨(ih hrecasts (hs.withNodes _) _ hbefore hr).1, .inr (List.cons_ne_nil _ _)⟩
  | grow hleft h ih => exact ⟨(ih hrecasts (hs.withNodes _) _ hbefore hr).1, .inr (List.cons_ne_nil _ _)⟩
  | field h ih =>
    obtain ⟨hsealed, hread⟩ := ih hrecasts hs _ hbefore hr
    rw [State.tail_mapLast]
    exact ⟨hsealed, hread.imp_right State.mapLast_ne_nil⟩
  | recast =>
    rw [State.tail_mapLast]
    exact ⟨hbefore hr, .inl hr⟩

end

/-! ### The script grammar -/

namespace Script

/-- The kinds of constructs that are the bodies of functions, classes and interfaces. -/
def isBodyKind (kind : String) : Bool := kind ∈ ["statement_block", "class_body", "interface_body"]

/-- The kinds of declarations that have such a body. -/
def isHeadedKind (kind : String) : Bool :=
  isClassKind kind ||
    kind ∈ ["function_declaration", "generator_function_declaration", "interface_declaration"]

/-- The kinds of statements that may have such a body, or stand around it. -/
def isAroundBody (kind : String) : Bool :=
  isHeadedKind kind || kind == "export_statement" || kind == "ambient_declaration"

/-- The symbols that begin with an opening brace wherever a body refers to them. -/
def beginsWithBrace : Symbol → Bool
  | .objectMembers => true
  | _ => false

private theorem opens_grammar (d : Dialect) (x : Symbol) (hx : beginsWithBrace x = true) :
    (grammar d x).opens beginsWithBrace = true := by
  cases x with
  | objectMembers => rfl
  | _ => cases hx

/-- A statement around a body starts and ends between characters. -/
def Placed (chars : List Char) (kind : String) (start stop : Nat) (_ : List Node) : Prop :=
  isAroundBody kind = true → IsBoundary chars start ∧ IsBoundary chars stop

private theorem makes_placed (d : Dialect) (x : Symbol) :
    (grammar d x).makes (!isAroundBody ·) (fun _ _ => true) = true := by
  cases x with
  | binary level => cases level using cases_level <;> rfl
  | _ => cases d <;> rfl

private theorem invariant_placed (d : Dialect) (chars : List Char) :
    Invariant d chars (!isAroundBody ·) (fun _ _ => true) (Placed chars) where
  sound :=
    { plain := fun {kind} hkind start stop children haround => by
        rw [haround] at hkind
        cases hkind
      construct := fun {kind a s s'} _ hrecasts hderives hs hnil _ => by
        have hs' := (hderives.leadsTo hs).1
        obtain ⟨hboundary, -⟩ :=
          (hderives.keepsFirst (leads_grammar d).recasts hrecasts hs).start_construct hnil hs' kind
        exact ⟨hboundary, hs'.leads.isBoundary⟩ }
  makes := makes_placed d
  recast := by simp [isRecast, isAroundBody, isHeadedKind, isClassKind]
  error := rfl
  program := rfl
  weave _ h := h

/-- In the tree of every text, statements around bodies start and end between characters. -/
theorem placed_tree (d : Dialect) (text : String) : (tree d text).Everywhere (Placed text.toList) :=
  (invariant_placed d text.toList).everywhere_tree

/-! ### What stands before a body -/

/-- The symbols that keep places sealed: all but statements and declarations, which may end with a semicolon. -/
def keepsSealed : Symbol → Bool
  | .statement | .declaration => false
  | _ => true

private theorem seals_grammar (d : Dialect) (x : Symbol) (hx : keepsSealed x = true) :
    (grammar d x).seals keepsSealed true = true := by
  cases x with
  | binary level => cases level using cases_level <;> rfl
  | statement | declaration => cases hx
  | _ => cases d <;> rfl

/-- Whether the bodies that a symbol may add follow sealed places; `before` says whether the place before it is. -/
def guardsBodies : Bool → Symbol → Bool
  | before, .block | before, .classBody => before
  | _, .statement => false
  | _, _ => true

/-- Whether the bodies that a rule adds follow sealed places. -/
def guards : Bool → Part → Bool
  | _, .token kind _ _ => !isBodyKind kind
  | _, .glued kind _ _ => !isBodyKind kind
  | before, .seq a b => guards before a && guards (a.seals keepsSealed before) b
  | before, .alt a b => guards before a && guards before b
  | _, .many a => guards false a
  | before, .ref x => guardsBodies before x
  | before, .node kind a => !isBodyKind kind || (before && a.opens beginsWithBrace)
  | _, .grow kind _ _ => !isBodyKind kind
  | before, .field _ a => guards before a
  | _, _ => true

private theorem guards_grammar (d : Dialect) (before : Bool) (x : Symbol) (hx : guardsBodies before x = true) :
    guards before (grammar d x) = true := by
  cases x with
  | binary level => cases level using cases_level <;> cases before <;> rfl
  | block | classBody =>
    obtain rfl : before = true := hx
    rfl
  | statement => cases hx
  | _ => cases before <;> cases d <;> rfl

/-- A body begins with the brace that comes next behind a sealed place at or behind the byte `first`. -/
structure Follows (chars : List Char) (first : Nat) (b : Node) (c : Cursor) (more : List Char) : Prop where
  le : first ≤ c.offset
  leads : (Cursor.mk 0 chars).LeadsTo c
  isSealed : Sealed chars c.rest c.rest
  next_eq : (Gap.scan c).next = ⟨b.start, '\x7b' :: more⟩
  lt : b.start < b.stop

/-- All bodies that have been read follow sealed places in the construct whose first nodes have been read. -/
def AllFollow (chars : List Char) (s : State) : Prop :=
  ∀ b ∈ s.nodes, isBodyKind b.kind = true →
    ∃ first, firstStart s.nodes = some first ∧ ∃ c more, Follows chars first b c more

namespace AllFollow

variable {chars : List Char} {s s' : State} {n : Node}

private theorem cons (h : AllFollow chars s) (hnodes : s'.nodes = n :: s.nodes)
    (hn : isBodyKind n.kind = true →
      ∃ first, firstStart s.nodes = some first ∧ ∃ c more, Follows chars first n c more) : AllFollow chars s' := by
  intro b hb hbody
  have hfollows : ∃ first, firstStart s.nodes = some first ∧ ∃ c more, Follows chars first b c more := by
    rw [hnodes] at hb
    rcases List.mem_cons.1 hb with rfl | hb
    · exact hn hbody
    · exact h b hb hbody
  obtain ⟨first, hfirst, hc⟩ := hfollows
  exact ⟨first, by rw [hnodes, firstStart_cons _ (ne_nil_of_firstStart hfirst), hfirst], hc⟩

private theorem mapLast {f : Node → Node} (h : AllFollow chars s) (hstart : ∀ n : Node, (f n).start = n.start)
    (hbody : ∀ n : Node, isBodyKind (f n).kind = true → isBodyKind n.kind = true ∧ (f n).stop = n.stop) :
    AllFollow chars (s.mapLast f) := by
  have hkept := firstStart_mapLast hstart s []
  rw [List.append_nil, List.append_nil] at hkept
  intro b hb hb'
  have hmem : b ∈ s.nodes ∨ ∃ n ∈ s.nodes, b = f n := by
    unfold State.mapLast at hb
    split at hb
    · rename_i n rest hnodes
      rw [hnodes]
      rcases List.mem_cons.1 hb with rfl | hb
      · exact .inr ⟨n, List.mem_cons_self .., rfl⟩
      · exact .inl (List.mem_cons_of_mem _ hb)
    · exact .inl hb
  rw [hkept]
  rcases hmem with hb | ⟨n, hn, rfl⟩
  · exact h b hb hb'
  · obtain ⟨hkind, hstop⟩ := hbody n hb'
    obtain ⟨first, hfirst, c, more, hfollows⟩ := h n hn hkind
    exact ⟨first, hfirst, c, more,
      { hfollows with
        next_eq := by rw [hstart]; exact hfollows.next_eq
        lt := by rw [hstart, hstop]; exact hfollows.lt }⟩

end AllFollow

private theorem not_isBodyKind_of_isRecast {kind : String} (h : isRecast kind = true) : ¬ isBodyKind kind = true := by
  simp only [isRecast, decide_eq_true_iff, List.mem_cons, List.not_mem_nil, or_false] at h
  rcases h with rfl | rfl | rfl | rfl | rfl | rfl | rfl | rfl <;> decide

/-- The bodies that a rule adds follow sealed places. -/
private theorem allFollow_of_derives {d : Dialect} {chars : List Char} {r : Part} {s s' : State}
    (h : r.Derives (grammar d) s s') (hrecasts : Recasts (grammar d) r) (hs : s.In chars)
    (hfirst : ∀ i, firstStart s.nodes = some i → i ≤ s.tail.offset) (before : Bool)
    (hbefore : before = true → Sealed chars s.tail.rest s.tail.rest ∧ s.nodes ≠ []) (hr : guards before r = true)
    (hall : AllFollow chars s) : AllFollow chars s' := by
  have hg := (leads_grammar d).recasts
  induction h generalizing before with
  | nothing | sameLine | enough | absent => exact hall
  | token h =>
    rw [hs.eq_behind] at h
    obtain ⟨taken, left, -, rfl⟩ := State.of_token _ _ h
    refine hall.cons rfl fun hbody => ?_
    rw [guards, Bool.not_eq_true'] at hr
    exact absurd (hr.symm.trans hbody) Bool.false_ne_true
  | glued h =>
    rw [hs.eq_behind] at h
    obtain ⟨taken, left, -, rfl⟩ := State.of_glued _ _ h
    refine hall.cons rfl fun hbody => ?_
    rw [guards, Bool.not_eq_true'] at hr
    exact absurd (hr.symm.trans hbody) Bool.false_ne_true
  | ending h =>
    rw [hs.eq_behind] at h
    obtain ⟨c', comments', -, rfl⟩ := State.of_ending _ h
    exact hall
  | seq ha hb iha ihb =>
    obtain ⟨hra, hrb⟩ := List.forall_mem_append.1 hrecasts
    obtain ⟨hs₁, hle⟩ := ha.leadsTo hs
    have hkeeps := ha.keepsFirst hg hra hs
    rw [guards, Bool.and_eq_true] at hr
    refine ihb hrb hs₁ (hkeeps.first_le hfirst hle.offset_le) _ (fun hmid => ?_) hr.2
      (iha hra hs hfirst _ hbefore hr.1 hall)
    obtain ⟨hsealed, hread⟩ := ha.sealed hg (seals_grammar d) hra hs _ (fun h => (hbefore h).1) hmid
    exact ⟨hsealed, hread.elim (fun h => hkeeps.ne_nil (hbefore h).2) id⟩
  | first h ih =>
    rw [guards, Bool.and_eq_true] at hr
    exact ih (List.forall_mem_append.1 hrecasts).1 hs hfirst _ hbefore hr.1 hall
  | second h ih =>
    rw [guards, Bool.and_eq_true] at hr
    exact ih (List.forall_mem_append.1 hrecasts).2 hs hfirst _ hbefore hr.2 hall
  | more ha hmany iha ihmany =>
    rw [guards] at hr
    obtain ⟨hs₁, hle⟩ := ha.leadsTo hs
    exact ihmany hrecasts hs₁ ((ha.keepsFirst hg hrecasts hs).first_le hfirst hle.offset_le) false nofun hr
      (iha hrecasts hs hfirst false nofun hr hall)
  | ref h ih => exact ih (fun f hf => ⟨_, hf⟩) hs hfirst _ hbefore (guards_grammar d before _ hr) hall
  | @node kind a s s' h ih =>
    refine hall.cons rfl fun hbody => ?_
    have hbody : isBodyKind kind = true := hbody
    rw [guards, hbody, Bool.not_true, Bool.false_or, Bool.and_eq_true] at hr
    obtain ⟨hsealed, hne⟩ := hbefore hr.1
    obtain ⟨i, hi⟩ := Option.ne_none_iff_exists'.1 (mt firstStart_eq_none.1 hne)
    have hinner := hs.withNodes []
    obtain ⟨hstarts, ⟨more, hbrace⟩, hlt⟩ := h.brace_of_opens hg (opens_grammar d) hr.2 hrecasts hinner
    have hstart := hstarts.start_construct kind
    refine ⟨i, hi, s.tail, more, hfirst i hi, hs.leads, hsealed, ?_, ?_⟩
    · rw [hstart, ← hbrace]
    · rw [hstart]
      exact hlt
  | @grow kind f a s s' left outer hleft h ih =>
    intro b hb hbody
    rcases List.mem_cons.1 hb with rfl | hb
    · rw [guards, Bool.not_eq_true'] at hr
      exact absurd (hr.symm.trans hbody) Bool.false_ne_true
    · have hfollows := hall b (by rw [hleft]; exact List.mem_cons_of_mem _ hb) hbody
      rw [hleft, firstStart_cons _ (List.ne_nil_of_mem hb)] at hfollows
      rwa [firstStart_cons _ (List.ne_nil_of_mem hb)]
  | field h ih =>
    exact (ih hrecasts hs hfirst _ hbefore hr hall).mapLast (Node.start_withField _) fun n hn => by
      cases n <;> exact ⟨hn, rfl⟩
  | recast =>
    obtain ⟨x, hf⟩ := hrecasts _ (List.mem_singleton_self _)
    refine hall.mapLast (hg x _ hf).start fun n hn => ?_
    rcases eq_or_isRecast hf n with heq | ⟨-, hrecast⟩
    · rw [heq] at hn
      exact ⟨hn, by rw [heq]⟩
    · exact absurd hn (not_isBodyKind_of_isRecast hrecast)

/-- Whether the bodies in a declaration follow sealed places. -/
def guardsBody (kind : String) (a : Part) : Bool := !isHeadedKind kind || guards false a

private theorem makes_guardsBody (d : Dialect) (x : Symbol) : (grammar d x).makes
    (!isHeadedKind ·) guardsBody = true := by
  cases x with
  | binary level => cases level using cases_level <;> rfl
  | _ => cases d <;> rfl

/-- The body of a declaration follows a sealed place in it. -/
def Headed (chars : List Char) (kind : String) (start _ : Nat) (children : List Node) : Prop :=
  isHeadedKind kind = true → ∀ b ∈ children, isBodyKind b.kind = true → ∃ c more, Follows chars start b c more

private theorem invariant_headed (d : Dialect) (chars : List Char) :
    Invariant d chars (!isHeadedKind ·) guardsBody (Headed chars) where
  sound :=
    { plain := fun {kind} hkind start stop children hheaded => by
        rw [hheaded] at hkind
        cases hkind
      construct := fun {kind a s s'} hcheck hrecasts hderives hs hnil hheaded b hb hbody => by
        rw [guardsBody, hheaded, Bool.not_true, Bool.false_or] at hcheck
        have hnone : ∀ i, firstStart s.nodes = some i → i ≤ s.tail.offset := by
          rw [hnil]
          exact nofun
        have hall : AllFollow chars s := by
          rw [AllFollow, hnil]
          exact List.forall_mem_nil _
        obtain ⟨first, hfirst, hfollows⟩ := allFollow_of_derives hderives hrecasts hs hnone false nofun
          hcheck hall b (List.mem_reverse.1 hb) hbody
        have hstart : (s'.construct kind).start = first := by
          show (s'.nodes.reverse.head?.map Node.start).getD s'.tail.offset = first
          rw [List.head?_reverse, show s'.nodes.getLast?.map Node.start = some first from hfirst]
          rfl
        rwa [hstart] }
  makes := makes_guardsBody d
  recast := by simp [isRecast, isHeadedKind, isClassKind]
  error := rfl
  program := rfl
  weave comments h hheaded b hb hbody := by
    rcases mem_weaveAll hb with ⟨k, rfl⟩ | ⟨m, hm, comments', rfl⟩
    · exact absurd (show isBodyKind "comment" = true from hbody) (by decide)
    · rw [kind_weave] at hbody
      obtain ⟨c, more, hfollows⟩ := h hheaded m hm hbody
      exact ⟨c, more,
        { hfollows with
          next_eq := by rw [start_weave]; exact hfollows.next_eq
          lt := by rw [start_weave, stop_weave]; exact hfollows.lt }⟩

/-- In the tree of every text, the bodies of declarations begin with braces that follow sealed places. -/
theorem headed_tree (d : Dialect) (text : String) : (tree d text).Everywhere (Headed text.toList) :=
  (invariant_headed d text.toList).everywhere_tree

end Script

end ScriptHost.Syntax
