import ScriptHost.Proofs.Syntax.Construct

/-!
# What rules read first

The first node of a construct stays where it is while the rest is read (`KeepsFirst`).  Which tokens can come first in
what a rule reads can be seen from the rule (`Rule.starts`): the first token is the one that comes next where the rule
is begun, and what the rule makes starts there (`Rule.Derives.of_starts`).  A rule that is a choice between constructs
makes one of them (`Rule.Derives.of_isChoice`).  If the tokens are words, the first word of what comes next is one of
them (`Starts.leadWord_mem`).
-/

namespace ScriptHost.Syntax

open ScriptHost.Text

variable {chars : List Char}

/-- A byte at which a character of the text begins, or at which the text ends. -/
def IsBoundary (chars : List Char) (i : Nat) : Prop := ∃ ahead, (Cursor.mk 0 chars).LeadsTo ⟨i, ahead⟩

theorem Cursor.LeadsTo.isBoundary {c : Cursor} (h : (Cursor.mk 0 chars).LeadsTo c) : IsBoundary chars c.offset :=
  ⟨c.rest, h⟩

/-! ### The first node -/

section

variable {σ : Type} {grammar : σ → Rule σ} {p : Lexeme → Bool} {e : Bool → σ → Bool} {sure : Bool} {r : Rule σ}
  {s s' s'' : State}

theorem firstStart_eq_none {nodes : List Node} : firstStart nodes = none ↔ nodes = [] := by
  rw [firstStart, Option.map_eq_none_iff, List.getLast?_eq_none_iff]

/-- From one state to a later one: what has been read first stays first; where nothing has been read, the first node
starts at a character. -/
def KeepsFirst (chars : List Char) (s s' : State) : Prop :=
  firstStart s'.nodes = firstStart s.nodes ∨
    s.nodes = [] ∧ ∃ i, firstStart s'.nodes = some i ∧ IsBoundary chars i ∧ i ≤ s'.tail.offset

namespace KeepsFirst

theorem ne_nil (h : KeepsFirst chars s s') (hs : s.nodes ≠ []) : s'.nodes ≠ [] := by
  rcases h with h | ⟨hnil, -⟩
  · exact fun hnil => hs (firstStart_eq_none.1 (h.symm.trans (firstStart_eq_none.2 hnil)))
  · exact absurd hnil hs

/-- Reading on does not bring the first node behind the place that has been reached. -/
theorem first_le (h : KeepsFirst chars s s') (hfirst : ∀ i, firstStart s.nodes = some i → i ≤ s.tail.offset)
    (hle : s.tail.offset ≤ s'.tail.offset) : ∀ i, firstStart s'.nodes = some i → i ≤ s'.tail.offset := by
  intro i hi
  rcases h with h | ⟨-, j, hj, -, hle'⟩
  · exact (hfirst i (h.symm.trans hi)).trans hle
  · rwa [Option.some.inj (hi.symm.trans hj)]

private theorem trans (h : KeepsFirst chars s s') (h' : KeepsFirst chars s' s'')
    (hle : s'.tail.offset ≤ s''.tail.offset) : KeepsFirst chars s s'' := by
  rcases h' with h' | ⟨hnil', hnew⟩
  · rcases h with h | ⟨hnil, i, hi, hboundary, hbound⟩
    · exact .inl (h'.trans h)
    · exact .inr ⟨hnil, i, h'.trans hi, hboundary, hbound.trans hle⟩
  · by_cases hnil : s.nodes = []
    · exact .inr ⟨hnil, hnew⟩
    · exact absurd hnil' (h.ne_nil hnil)

private theorem cons {n : Node} (h : s'.nodes = n :: s.nodes) (hn : IsBoundary chars n.start)
    (hle : n.start ≤ s'.tail.offset) : KeepsFirst chars s s' := by
  by_cases hnil : s.nodes = []
  · exact .inr ⟨hnil, n.start, by rw [h, hnil]; rfl, hn, hle⟩
  · exact .inl (by rw [h, firstStart_cons _ hnil])

private theorem mapLast {f : Node → Node} (hf : ∀ n : Node, (f n).start = n.start) (s : State) :
    KeepsFirst chars s (s.mapLast f) := by
  have h := firstStart_mapLast hf s []
  rw [List.append_nil, List.append_nil] at h
  exact .inl h

/-- A construct starts at a character, if nothing had been read when it was begun. -/
theorem start_construct (h : KeepsFirst chars s s') (hs : s.nodes = []) (hs' : s'.In chars) (kind : String) :
    IsBoundary chars (s'.construct kind).start ∧ (s'.construct kind).start ≤ s'.tail.offset := by
  show IsBoundary chars ((s'.nodes.reverse.head?.map Node.start).getD s'.tail.offset) ∧
    (s'.nodes.reverse.head?.map Node.start).getD s'.tail.offset ≤ s'.tail.offset
  rw [List.head?_reverse]
  rcases h with h | ⟨-, i, hi, hboundary, hle⟩
  · rw [hs] at h
    rw [show s'.nodes.getLast?.map Node.start = none from h]
    exact ⟨hs'.leads.isBoundary, le_rfl⟩
  · rw [show s'.nodes.getLast?.map Node.start = some i from hi]
    exact ⟨hboundary, hle⟩

end KeepsFirst

/-- Nothing that is derived takes the first node away. -/
theorem Rule.Derives.keepsFirst (hg : ∀ x, ∀ f ∈ (grammar x).recasts, Harmless f) (h : r.Derives grammar s s')
    (hrecasts : Recasts grammar r) (hs : s.In chars) : KeepsFirst chars s s' := by
  induction h with
  | nothing | sameLine | enough | absent => exact .inl rfl
  | token h =>
    rw [hs.eq_behind] at h
    obtain ⟨taken, left, -, rfl⟩ := State.of_token _ _ h
    exact .cons rfl (hs.leads.trans (Gap.leadsTo_scan _)).isBoundary (Nat.le_add_right ..)
  | glued h =>
    rw [hs.eq_behind] at h
    obtain ⟨taken, left, -, rfl⟩ := State.of_glued _ _ h
    exact .cons rfl hs.leads.isBoundary (Nat.le_add_right ..)
  | ending h =>
    rw [hs.eq_behind] at h
    obtain ⟨c', comments', -, rfl⟩ := State.of_ending _ h
    exact .inl rfl
  | seq ha hb iha ihb =>
    obtain ⟨hra, hrb⟩ := List.forall_mem_append.1 hrecasts
    have hs₁ := (ha.leadsTo hs).1
    exact (iha hra hs).trans (ihb hrb hs₁) (hb.leadsTo hs₁).2.offset_le
  | first h ih => exact ih (List.forall_mem_append.1 hrecasts).1 hs
  | second h ih => exact ih (List.forall_mem_append.1 hrecasts).2 hs
  | more ha hmany iha ihmany =>
    have hs₁ := (ha.leadsTo hs).1
    exact (iha hrecasts hs).trans (ihmany hrecasts hs₁) (hmany.leadsTo hs₁).2.offset_le
  | ref h ih => exact ih (fun f hf => ⟨_, hf⟩) hs
  | node h ih =>
    have hinner := hs.withNodes []
    obtain ⟨hboundary, hle⟩ := (ih hrecasts hinner).start_construct rfl (h.leadsTo hinner).1 _
    exact .cons rfl hboundary hle
  | @grow kind f a s s' left outer hleft h ih =>
    have hstart := Node.start_elim_withField f left
    have hinner : firstStart s'.nodes = some left.start := by
      rcases ih hrecasts (hs.withNodes _) with hkept | ⟨hnil, -⟩
      · exact hkept.trans (congrArg some hstart)
      · cases hnil
    left
    rw [hleft]
    cases outer with
    | nil =>
      have hclose := firstStart_close kind [] [] s' (by rwa [List.append_nil, List.append_nil])
      rwa [List.append_nil] at hclose
    | cons m rest => rw [firstStart_cons _ (List.cons_ne_nil _ _), firstStart_cons _ (List.cons_ne_nil _ _)]
  | field h ih =>
    exact (ih hrecasts hs).trans (.mapLast (Node.start_withField _) _) (by rw [State.tail_mapLast])
  | recast =>
    obtain ⟨x, hf⟩ := hrecasts _ (List.mem_singleton_self _)
    exact .mapLast (hg x _ hf).start _

/-! ### The first token -/

/-- Whether the first token that a rule reads is one of those `p`, if this holds of the symbols `e`; if it is `sure`,
the rule cannot do without a token. -/
def Rule.starts (p : Lexeme → Bool) (e : Bool → σ → Bool) : Bool → Rule σ → Bool
  | sure, nothing => !sure
  | sure, sameLine => !sure
  | _, absent nothing => true
  | sure, absent _ => !sure
  | _, token _ _ l => p l
  | sure, seq a b => a.starts p e true || (a.starts p e false && b.starts p e sure)
  | sure, alt a b => a.starts p e sure && b.starts p e sure
  | sure, many a => !sure && a.starts p e false
  | sure, ref x => e sure x
  | _, node _ a => a.starts p e true
  | _, field _ a => a.starts p e true
  | _, _ => false

/-- From one state to a later one: the token that comes next has been read, and it is one of those `p`. -/
structure Starts (p : Lexeme → Bool) (s s' : State) : Prop where
  token : ∃ l taken left, p l = true ∧ l.take? s.word (Gap.scan s.tail).next.rest = some (taken, left) ∧
    (Gap.scan s.tail).next.offset + byteLength taken ≤ s'.tail.offset
  first : s.nodes = [] → firstStart s'.nodes = some (Gap.scan s.tail).next.offset

private theorem Starts.trans (h : Starts p s s') (hkeeps : KeepsFirst chars s' s'')
    (hle : s'.tail.offset ≤ s''.tail.offset) : Starts p s s'' where
  token := by
    obtain ⟨l, taken, left, hl, htake, hbound⟩ := h.token
    exact ⟨l, taken, left, hl, htake, hbound.trans hle⟩
  first hnil := by
    have hfirst := h.first hnil
    rcases hkeeps with hkept | ⟨hnil', -⟩
    · exact hkept.trans hfirst
    · exact absurd hnil' (ne_nil_of_firstStart hfirst)

/-- A construct that is made of what starts with a token starts with it too. -/
theorem Starts.start_construct (h : Starts p { s with nodes := [] } s') (kind : String) :
    (s'.construct kind).start = (Gap.scan s.tail).next.offset := by
  show (s'.nodes.reverse.head?.map Node.start).getD s'.tail.offset = (Gap.scan s.tail).next.offset
  rw [List.head?_reverse, show s'.nodes.getLast?.map Node.start = some _ from h.first rfl]
  rfl

/-- What a rule reads starts with such a token, unless the rule reads nothing. -/
theorem Rule.Derives.of_starts (hg : ∀ x, ∀ f ∈ (grammar x).recasts, Harmless f)
    (he : ∀ sure x, e sure x = true → (grammar x).starts p e sure = true) (h : r.Derives grammar s s')
    (hr : r.starts p e sure = true) (hrecasts : Recasts grammar r) (hs : s.In chars) :
    (sure = false ∧ s' = s) ∨ Starts p s s' := by
  induction h generalizing sure with
  | nothing | sameLine => exact .inl ⟨Bool.not_eq_true' _ ▸ hr, rfl⟩
  | @absent a s hne =>
    rw [starts] at hr
    · exact .inl ⟨Bool.not_eq_true' _ ▸ hr, rfl⟩
    · exact hne
  | @token kind named l s s' h =>
    right
    have hword := congrArg State.word hs.eq_behind
    rw [hs.eq_behind] at h
    obtain ⟨taken, left, htake, rfl⟩ := State.of_token _ _ h
    refine ⟨⟨l, taken, left, hr, hword ▸ htake, le_rfl⟩, fun hnil => ?_⟩
    rw [hnil]
    rfl
  | seq ha hb iha ihb =>
    obtain ⟨hra, hrb⟩ := List.forall_mem_append.1 hrecasts
    obtain ⟨hs₁, -⟩ := ha.leadsTo hs
    have hkeeps := hb.keepsFirst hg hrb hs₁
    have hle := (hb.leadsTo hs₁).2.offset_le
    rw [starts, Bool.or_eq_true, Bool.and_eq_true] at hr
    rcases hr with hr | ⟨hr, hr'⟩
    · exact .inr (((iha hr hra hs).resolve_left fun h => Bool.noConfusion h.1).trans hkeeps hle)
    · rcases iha hr hra hs with ⟨-, rfl⟩ | hstarts
      · exact ihb hr' hrb hs
      · exact .inr (hstarts.trans hkeeps hle)
  | first h ih =>
    rw [starts, Bool.and_eq_true] at hr
    exact ih hr.1 (List.forall_mem_append.1 hrecasts).1 hs
  | second h ih =>
    rw [starts, Bool.and_eq_true] at hr
    exact ih hr.2 (List.forall_mem_append.1 hrecasts).2 hs
  | enough =>
    rw [starts, Bool.and_eq_true, Bool.not_eq_true'] at hr
    exact .inl ⟨hr.1, rfl⟩
  | more ha hmany iha ihmany =>
    obtain ⟨hs₁, -⟩ := ha.leadsTo hs
    have hr' := hr
    rw [starts, Bool.and_eq_true] at hr'
    rcases iha hr'.2 hrecasts hs with ⟨-, rfl⟩ | hstarts
    · exact ihmany hr hrecasts hs
    · exact .inr (hstarts.trans (hmany.keepsFirst hg hrecasts hs₁) (hmany.leadsTo hs₁).2.offset_le)
  | ref h ih => exact ih (he _ _ hr) (fun f hf => ⟨_, hf⟩) hs
  | @node kind a s s' h ih =>
    right
    have hsure := ih (show a.starts p e true = true from hr) hrecasts (hs.withNodes _)
    have hstarts := hsure.resolve_left fun h => Bool.noConfusion h.1
    refine ⟨hstarts.token, fun hnil => ?_⟩
    rw [hnil]
    exact congrArg some (hstarts.start_construct kind)
  | @field f a s s' h ih =>
    have hsure := ih (show a.starts p e true = true from hr) hrecasts hs
    have hstarts := hsure.resolve_left fun h => Bool.noConfusion h.1
    have hkeeps : KeepsFirst chars s' (s'.mapLast (Node.withField f)) := .mapLast (Node.start_withField f) s'
    exact .inr (hstarts.trans hkeeps (by rw [State.tail_mapLast]))
  | _ => cases hr

/-! ### Choices -/

/-- Whether a rule is a choice between constructs with the property `q`. -/
def Rule.isChoice (q : String → Rule σ → Bool) : Rule σ → Bool
  | alt a b => a.isChoice q && b.isChoice q
  | node kind a => q kind a
  | _ => false

/-- Such a rule makes one of the constructs. -/
theorem Rule.Derives.of_isChoice {q : String → Rule σ → Bool} (h : r.Derives grammar s s') (hr : r.isChoice q = true)
    (hrecasts : Recasts grammar r) : ∃ kind a s₁, q kind a = true ∧ Recasts grammar a ∧
      a.Derives grammar { s with nodes := [] } s₁ ∧ s' = { s₁ with nodes := s₁.construct kind :: s.nodes } := by
  induction h with
  | first h ih =>
    rw [isChoice, Bool.and_eq_true] at hr
    exact ih hr.1 (List.forall_mem_append.1 hrecasts).1
  | second h ih =>
    rw [isChoice, Bool.and_eq_true] at hr
    exact ih hr.2 (List.forall_mem_append.1 hrecasts).2
  | node h ih => exact ⟨_, _, _, hr, hrecasts, h, rfl⟩
  | _ => cases hr

end

/-! ### Words -/

/-- The word that comes first, or the mark that decorators begin with; empty where there is neither. -/
def leadWord : List Char → String
  | '@' :: _ => "@"
  | cs => (takeWord? cs).elim "" fun taken => String.ofList taken.1

private theorem leadWord_of_takeWord? {cs taken left : List Char} (h : takeWord? cs = some (taken, left)) :
    leadWord cs = String.ofList taken := by
  unfold leadWord
  split
  · cases h
  · rw [h]
    rfl

theorem leadWord_append (cs : List Char) : ∃ left, cs = (leadWord cs).toList ++ left := by
  unfold leadWord
  split
  · exact ⟨_, rfl⟩
  · cases h : takeWord? cs with
    | none => exact ⟨cs, rfl⟩
    | some taken =>
      refine ⟨taken.2, ?_⟩
      rw [Option.elim_some, String.toList_ofList]
      exact (takeWord?_append h).symm

private theorem takeWordParts_of_all {w : List Char} (hw : w.all isWordPart = true) (cs : List Char) :
    takeWordParts (w ++ cs) = (w ++ (takeWordParts cs).1, (takeWordParts cs).2) := by
  induction w with
  | nil => rfl
  | cons c w ih =>
    rw [List.all_cons, Bool.and_eq_true] at hw
    rw [List.cons_append, takeWordParts, if_pos hw.1, ih hw.2]
    · rfl
    · rintro rest rfl
      exact absurd hw.1 (by decide)

/-- Where a word comes first, it may go on. -/
theorem leadWord_of_all {c : Char} {w : List Char} (hc : isWordStart c = true) (hw : w.all isWordPart = true)
    (cs : List Char) : leadWord (c :: w ++ cs) = String.ofList (c :: w ++ (takeWordParts cs).1) := by
  have hpart : isWordPart c = true := by
    rw [isWordStart, Bool.and_eq_true] at hc
    exact hc.1
  have hparts := takeWordParts_of_all (w := c :: w) (by rw [List.all_cons, hpart, hw]; rfl) cs
  have htake : takeWord? (c :: w ++ cs) = some (c :: w ++ (takeWordParts cs).1, (takeWordParts cs).2) := by
    rw [List.cons_append, takeWord?, if_pos hc, ← List.cons_append, hparts]
    rintro rest rfl
    exact absurd hpart (by decide)
  exact leadWord_of_takeWord? htake

/-- Whether a token is one of the words, or the mark that decorators begin with if that is one of them. -/
def Lexeme.begins (words : List String) : Lexeme → Bool
  | keyword w => w != "" && words.contains w
  | symbol ('@' :: _) _ => words.contains "@"
  | _ => false

/-- Where such a token comes next, one of the words comes first, and the token takes it. -/
private theorem Lexeme.leadWord_mem {words : List String} {l : Lexeme} (hl : l.begins words = true) {word : String}
    {cs taken left : List Char} (hword : word = "" ∨ ∃ left, takeWord? cs = some (word.toList, left))
    (h : l.take? word cs = some (taken, left)) : leadWord cs ∈ words ∧ (leadWord cs).toList <+: taken := by
  unfold begins at hl
  split at hl
  · rename_i w
    obtain ⟨rfl, rfl⟩ := of_take?_keyword hword h
    rw [Bool.and_eq_true, bne_iff_ne, List.contains_iff_mem] at hl
    obtain ⟨left', hword⟩ := hword.resolve_left hl.1
    rw [leadWord_of_takeWord? hword, String.ofList_toList]
    exact ⟨hl.2, List.prefix_rfl⟩
  · rename_i mark barring
    obtain rfl := of_take?_symbol h
    rw [← take?_append h]
    exact ⟨List.contains_iff_mem.1 hl, show "@".toList <+: '@' :: mark from ⟨mark, rfl⟩⟩
  · cases hl

section

variable {σ : Type} {grammar : σ → Rule σ} {r : Rule σ} {s s' : State}

theorem Starts.leadWord_mem {words : List String} (h : Starts (Lexeme.begins words) s s') (hs : s.In chars) :
    leadWord (Gap.scan s.tail).next.rest ∈ words ∧
      (Gap.scan s.tail).next.offset + byteLength (leadWord (Gap.scan s.tail).next.rest).toList ≤ s'.tail.offset := by
  obtain ⟨l, taken, left, hl, htake, hbound⟩ := h.token
  rw [hs.eq_behind] at htake
  obtain ⟨hmem, more, rfl⟩ := Lexeme.leadWord_mem hl (State.word_behind ..) htake
  refine ⟨hmem, le_trans ?_ hbound⟩
  rw [byteLength_append]
  omega

/-- The rules that read nothing. -/
def Rule.takesNothing : Rule σ → Bool
  | nothing | sameLine | absent _ => true
  | seq a b => a.takesNothing && b.takesNothing
  | _ => false

theorem Rule.Derives.eq_of_takesNothing (h : r.Derives grammar s s') (hr : r.takesNothing = true) : s' = s := by
  induction h with
  | nothing | sameLine | absent => rfl
  | seq ha hb iha ihb =>
    rw [takesNothing, Bool.and_eq_true] at hr
    exact (ihb hr.2).trans (iha hr.1)
  | _ => cases hr

/-- The word that is all that a rule reads. -/
def Rule.word? : Rule σ → Option String
  | token _ _ (.keyword w) => some w
  | seq a b => if b.takesNothing then a.word? else none
  | _ => none

/-- Such a rule adds the word to what has been read. -/
theorem Rule.Derives.of_word? {w : String} (h : r.Derives grammar s s') (hr : r.word? = some w) (hs : s.In chars) :
    (∃ left, (Gap.scan s.tail).next.rest = w.toList ++ left ∧ s'.tail = (Gap.scan s.tail).next.past w.toList left) ∧
      ∃ n : Node, n.field = none ∧ s'.nodes = n :: s.nodes := by
  induction h with
  | @token kind named l s s' h =>
    obtain ⟨w, rfl⟩ : ∃ w, l = .keyword w := by
      cases l with
      | keyword w => exact ⟨w, rfl⟩
      | _ => cases hr
    obtain rfl := Option.some.inj hr
    rw [hs.eq_behind] at h
    obtain ⟨taken, left, htake, rfl⟩ := State.of_token _ _ h
    obtain ⟨-, rfl⟩ := Lexeme.of_take?_keyword (State.word_behind ..) htake
    exact ⟨⟨left, (Lexeme.take?_append htake).symm, rfl⟩, _, rfl, rfl⟩
  | seq ha hb iha ihb =>
    rw [word?] at hr
    split at hr
    · rename_i hnothing
      rw [hb.eq_of_takesNothing hnothing]
      exact iha hr hs
    · cases hr
  | _ => cases hr

end

end ScriptHost.Syntax
