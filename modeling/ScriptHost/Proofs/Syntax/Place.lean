import ScriptHost.Proofs.Syntax.Lead

/-!
# Reading at another place

What a rule reads depends on the token that comes next and on what is behind that, but neither on the byte at which the
token stands nor on what is before it (`Rule.read_alike`).  Two machines that read the same token at different places
take the same steps: before they have taken it they are both where they began, and from then on all bytes differ by the
same number.
-/

namespace ScriptHost.Syntax

open ScriptHost.Text

variable {σ : Type} {grammar : σ → Rule σ} {e : σ → Bool}

/-! ### States under way -/

namespace State

variable {c : Cursor} {nodes : List Node} {comments : List Comment} {s' : State}

theorem of_token (kind : String) (named : Bool) {l : Lexeme}
    (h : (behind c nodes comments).token? kind named l = some s') :
    ∃ taken left, l.take? (behind c nodes comments).word (Gap.scan c).next.rest = some (taken, left) ∧
      s' = behind ((Gap.scan c).next.past taken left)
        (.leaf kind named none (Gap.scan c).next.offset (String.ofList taken) :: nodes)
        ((Gap.scan c).comments ++ comments) := by
  obtain ⟨⟨taken, left⟩, htake, heq⟩ := Option.map_eq_some_iff.1 h
  exact ⟨taken, left, htake, heq.symm⟩

/-- The word at the next token, if there is one, is what comes next. -/
theorem word_behind (c : Cursor) (nodes : List Node) (comments : List Comment) :
    (behind c nodes comments).word = "" ∨
      ∃ left, takeWord? (Gap.scan c).next.rest = some ((behind c nodes comments).word.toList, left) := by
  unfold behind
  dsimp only
  split
  · rename_i taken left h
    exact .inr ⟨left, by rw [String.toList_ofList]; exact h⟩
  · exact .inl rfl

theorem ne_nil_of_word (h : (behind c nodes comments).word ≠ "") : (Gap.scan c).next.rest ≠ [] := by
  intro hnil
  have hword : (behind c nodes comments).word = "" := by
    unfold behind
    dsimp only
    rw [hnil]
    rfl
  exact h hword

theorem of_glued (kind : String) (named : Bool) {l : Lexeme}
    (h : (behind c nodes comments).glued? kind named l = some s') :
    ∃ taken left, taken ++ left = c.rest ∧
      s' = behind (c.past taken left) (.leaf kind named none c.offset (String.ofList taken) :: nodes) comments := by
  obtain ⟨⟨taken, left⟩, htake, heq⟩ := Option.map_eq_some_iff.1 h
  exact ⟨taken, left, Lexeme.take?_append htake, heq.symm⟩

theorem leadsTo_skipTo (s : State) (stop : Nat) : s.tail.LeadsTo (ending?.skipTo s stop) := by
  have hgo : ∀ offset rest, (Cursor.mk offset rest).LeadsTo (ending?.skipTo.go stop offset rest) := by
    intro offset rest
    fun_induction ending?.skipTo.go stop offset rest with
    | case1 => exact .refl _
    | case2 => exact .refl _
    | case3 offset c rest _ ih => exact Cursor.LeadsTo.trans ⟨[c], rfl, by simp⟩ ih
  exact hgo _ _

theorem of_ending (e : Ending) (h : (behind c nodes comments).ending? e = some s') :
    ∃ c' comments', c.LeadsTo c' ∧ s' = behind c' nodes comments' := by
  have hgo : ∀ fuel s later, ∀ s', ending?.go e fuel s later = some s' →
      ∃ c' comments', s.tail.LeadsTo c' ∧ s' = behind c' s.nodes comments' := by
    intro fuel s later
    fun_induction ending?.go e fuel s later with
    | case1 => exact nofun
    | case2 => exact nofun
    | case3 fuel s comment later s₁ hends =>
      rintro s' ⟨rfl⟩
      exact ⟨_, _, leadsTo_skipTo s comment.stop, rfl⟩
    | case4 fuel s comment later s₁ hends ih =>
      intro s' hs'
      obtain ⟨c', comments', hc', rfl⟩ := ih s' hs'
      exact ⟨c', comments', (leadsTo_skipTo s comment.stop).trans hc', rfl⟩
  unfold ending? at h
  split at h
  · cases h
    exact ⟨c, comments, .refl c, rfl⟩
  · exact hgo _ _ _ _ h

theorem mapLast_behind (f : Node → Node) :
    (behind c nodes comments).mapLast f = behind c (behind c nodes comments |>.mapLast f).nodes comments := by
  unfold mapLast
  split <;> rfl

end State

/-- The tasks do not look behind before they take a token. -/
def Leading (e : σ → Bool) : List (Task σ) → Prop
  | [] => False
  | .run r :: rest => r.leads e = true ∧ (r.mayBeEmpty e = true → Leading e rest)
  | .close .. :: _ => False
  | .label _ :: rest => Leading e rest
  | .settle _ :: rest => Leading e rest
  | .again r _ :: rest => r.leads e = true ∧ Leading e rest
  | .refuse _ :: _ => True

/-- How a task recasts nodes. -/
def Task.recasts : Task σ → List (Node → Node)
  | .run r => r.recasts
  | .again r _ => r.recasts
  | _ => []

/-- A machine that started at a cursor is still there, or it has taken the token that comes next. -/
structure Underway (e : σ → Bool) (start : Cursor) (tasks : List (Task σ)) (s : State) : Prop where
  recasts : ∀ t ∈ tasks, ∀ f ∈ t.recasts, Harmless f
  place : (s = .behind start [] [] ∧ Leading e tasks) ∨
    ∃ c nodes comments, s = .behind c nodes comments ∧ (Gap.scan start).next.LeadsTo c ∧
      (Gap.scan start).next.offset < c.offset

private theorem recasts_of_turn (hg : Leads grammar e) {t : Task σ} {rest new : List (Task σ)} {s s' : State}
    (h : ∀ u ∈ t :: rest, ∀ f ∈ u.recasts, Harmless f) (hturn : Turn grammar t s new s') :
    ∀ u ∈ new ++ rest, ∀ f ∈ u.recasts, Harmless f := by
  obtain ⟨ht, hrest⟩ := List.forall_mem_cons.1 h
  have hnew : ∀ u ∈ new, ∀ f ∈ u.recasts, Harmless f := by
    cases hturn with
    | ref =>
      rename_i x
      simpa [Task.recasts] using hg.recasts x
    | _ => simp_all [Task.recasts, Rule.recasts]
  intro u hu
  rcases List.mem_append.1 hu with hu | hu
  · exact hnew u hu
  · exact hrest u hu

private theorem mayBeEmpty_absent {a : Rule σ} (ha : a ≠ .nothing) : (Rule.absent a).mayBeEmpty e = true := by
  cases a with
  | nothing => exact absurd rfl ha
  | _ => rfl

/-- Before a token is taken, a turn does not look behind, unless it takes one. -/
theorem leading_of_turn (hg : Leads grammar e) {start : Cursor} {t : Task σ} {rest new : List (Task σ)} {s' : State}
    (hlead : Leading e (t :: rest)) (hturn : Turn grammar t (.behind start [] []) new s') :
    (s' = .behind start [] [] ∧ Leading e (new ++ rest)) ∨
      ∃ taken left kind named, new = [] ∧ taken ++ left = (Gap.scan start).next.rest ∧ taken ≠ [] ∧
        s' = .behind ((Gap.scan start).next.past taken left)
          [.leaf kind named none (Gap.scan start).next.offset (String.ofList taken)] (Gap.scan start).comments := by
  cases hturn with
  | nothing => exact .inl ⟨rfl, hlead.2 rfl⟩
  | token h =>
    rename_i kind named l
    obtain ⟨taken, left, htake, rfl⟩ := State.of_token kind named h
    refine .inr ⟨taken, left, kind, named, rfl, Lexeme.take?_append htake, ?_, by rw [List.append_nil]⟩
    exact Lexeme.take?_ne_nil hlead.1 State.ne_nil_of_word htake
  | glued | ending | sameLine => exact absurd hlead.1 Bool.false_ne_true
  | seq =>
    rename_i a b
    obtain ⟨hleads, hempty⟩ := hlead
    rw [Rule.leads, Bool.and_eq_true, Bool.or_eq_true] at hleads
    rw [Rule.mayBeEmpty, Bool.and_eq_true] at hempty
    refine .inl ⟨rfl, hleads.1, fun ha => ⟨?_, fun hb => hempty ⟨ha, hb⟩⟩⟩
    rcases hleads.2 with hnot | hb
    · rw [ha] at hnot
      cases hnot
    · exact hb
  | first =>
    obtain ⟨hleads, hempty⟩ := hlead
    rw [Rule.leads, Bool.and_eq_true] at hleads
    rw [Rule.mayBeEmpty, Bool.or_eq_true] at hempty
    exact .inl ⟨rfl, hleads.1, fun ha => hempty (.inl ha)⟩
  | second =>
    obtain ⟨hleads, hempty⟩ := hlead
    rw [Rule.leads, Bool.and_eq_true] at hleads
    rw [Rule.mayBeEmpty, Bool.or_eq_true] at hempty
    exact .inl ⟨rfl, hleads.2, fun hb => hempty (.inr hb)⟩
  | more => exact .inl ⟨rfl, hlead.1, fun _ => ⟨hlead.1, hlead.2 rfl⟩⟩
  | enough => exact .inl ⟨rfl, hlead.2 rfl⟩
  | absent ha => exact .inl ⟨rfl, hlead.2 (mayBeEmpty_absent ha)⟩
  | ref => exact .inl ⟨rfl, hg.leads _, fun hempty => hlead.2 (hg.mayBeEmpty _ hempty)⟩
  | node =>
    obtain ⟨hleads, -⟩ := hlead
    rw [Rule.leads, Bool.and_eq_true, Bool.not_eq_true'] at hleads
    exact .inl ⟨rfl, hleads.1, fun hempty => absurd (hleads.2.symm.trans hempty) Bool.false_ne_true⟩
  | grow h => cases h
  | field => exact .inl ⟨rfl, hlead⟩
  | recast => exact .inl ⟨rfl, hlead.2 rfl⟩
  | close => cases hlead
  | label => exact .inl ⟨rfl, hlead⟩
  | settle => exact .inl ⟨rfl, hlead⟩
  | repeated => exact .inl ⟨rfl, hlead.1, fun _ => hlead.2⟩
  | halted => exact .inl ⟨rfl, hlead.2⟩

/-- After a token has been taken, a turn does not go back. -/
theorem leadsTo_of_turn {c : Cursor} {nodes : List Node} {comments : List Comment} {t : Task σ} {new : List (Task σ)}
    {s' : State} (hturn : Turn grammar t (.behind c nodes comments) new s') :
    ∃ c' nodes' comments', s' = .behind c' nodes' comments' ∧ c.LeadsTo c' := by
  cases hturn with
  | token h =>
    obtain ⟨taken, left, htake, rfl⟩ := State.of_token _ _ h
    exact ⟨_, _, _, rfl, (Gap.leadsTo_scan c).trans (Cursor.leadsTo_past (Lexeme.take?_append htake))⟩
  | glued h =>
    obtain ⟨taken, left, htaken, rfl⟩ := State.of_glued _ _ h
    exact ⟨_, _, _, rfl, Cursor.leadsTo_past htaken⟩
  | ending h =>
    obtain ⟨c', comments', hc', rfl⟩ := State.of_ending _ h
    exact ⟨_, _, _, rfl, hc'⟩
  | recast | label => exact ⟨_, _, _, State.mapLast_behind _, .refl c⟩
  | _ => exact ⟨c, _, comments, rfl, .refl c⟩

theorem carries_underway (hg : Leads grammar e) (start : Cursor) : Carries grammar (Underway e start) where
  turn h hturn := by
    refine ⟨recasts_of_turn hg h.recasts hturn, ?_⟩
    rcases h.place with ⟨rfl, hlead⟩ | ⟨c, nodes, comments, rfl, hfirst, hlt⟩
    · refine (leading_of_turn hg hlead hturn).imp_right ?_
      rintro ⟨taken, left, kind, named, -, happend, hne, rfl⟩
      refine ⟨_, _, _, rfl, Cursor.leadsTo_past happend, ?_⟩
      have hpos := byteLength_pos hne
      show _ < _ + byteLength taken
      omega
    · obtain ⟨c', nodes', comments', rfl, hc'⟩ := leadsTo_of_turn hturn
      exact .inr ⟨c', nodes', comments', rfl, hfirst.trans hc', hlt.trans_le hc'.offset_le⟩
  probe h := by
    refine ⟨?_, h.place.imp_left fun hstart => ⟨hstart.1, hstart.2.1, fun _ => trivial⟩⟩
    simpa [Task.recasts, Rule.recasts] using h.recasts _ (List.mem_cons_self ..)

/-! ### States at other places -/

namespace State

/-- The state `k` bytes further on. -/
def shift (k : Nat) (s : State) : State :=
  .behind (s.tail.shift k) (s.nodes.map (Node.shift k)) (s.comments.map (Comment.shift k))

variable {k : Nat} {c c' : Cursor} {nodes : List Node} {comments : List Comment}

private theorem shift_behind : (behind c nodes comments).shift k =
    behind (c.shift k) (nodes.map (Node.shift k)) (comments.map (Comment.shift k)) := rfl

private theorem close_behind (kind : String) (outer : List Node) : (behind c nodes comments).close kind outer =
    behind c (.branch kind none ((nodes.reverse.head?.map Node.start).getD c.offset) c.offset nodes.reverse :: outer)
      comments := rfl

private theorem word_alike (hgap : Gap.Alike k (Gap.scan c) (Gap.scan c')) (nodes : List Node)
    (comments : List Comment) :
    (behind c' (nodes.map (Node.shift k)) (comments.map (Comment.shift k))).word = (behind c nodes comments).word := by
  unfold behind
  dsimp only
  rw [hgap.next]
  rfl

private theorem token?_alike (hgap : Gap.Alike k (Gap.scan c) (Gap.scan c')) (kind : String) (named : Bool)
    (l : Lexeme) : (behind c' (nodes.map (Node.shift k)) (comments.map (Comment.shift k))).token? kind named l =
      ((behind c nodes comments).token? kind named l).map (shift k) := by
  have hword := word_alike hgap nodes comments
  unfold token?
  rw [hword, Option.map_map]
  show Option.map _ (l.take? _ (Gap.scan c').next.rest) = Option.map _ (l.take? _ (Gap.scan c).next.rest)
  rw [hgap.next]
  refine congrArg (Option.map · _) (funext fun x => ?_)
  obtain ⟨taken, left⟩ := x
  show behind ((Gap.scan c').next.past taken left)
      (.leaf kind named none (Gap.scan c').next.offset (String.ofList taken) :: nodes.map (Node.shift k))
      ((Gap.scan c').comments ++ comments.map (Comment.shift k)) =
    shift k (behind ((Gap.scan c).next.past taken left)
      (.leaf kind named none (Gap.scan c).next.offset (String.ofList taken) :: nodes)
      ((Gap.scan c).comments ++ comments))
  rw [shift_behind, hgap.comments, hgap.next, Cursor.shift_past, List.map_append]
  rfl

private theorem glued?_shift (kind : String) (named : Bool) (l : Lexeme) :
    ((behind c nodes comments).shift k).glued? kind named l =
      ((behind c nodes comments).glued? kind named l).map (shift k) := by
  have hgap := (Gap.scan_shift k c).1
  have hword := word_alike hgap nodes comments
  have hplace : ((c.shift k).offset == (Gap.scan (c.shift k)).next.offset) =
      (c.offset == (Gap.scan c).next.offset) := by
    rw [hgap.next]
    simp [Cursor.shift]
  unfold glued?
  rw [Option.map_map]
  show Option.map _ (l.take? (if (c.shift k).offset == (Gap.scan (c.shift k)).next.offset then _ else "") c.rest) =
    Option.map _ (l.take? (if c.offset == (Gap.scan c).next.offset then _ else "") c.rest)
  rw [hplace, show ((behind c nodes comments).shift k).word = (behind c nodes comments).word from hword]
  refine congrArg (Option.map · _) (funext fun x => ?_)
  obtain ⟨taken, left⟩ := x
  show behind ((c.shift k).past taken left)
      (.leaf kind named none (c.offset + k) (String.ofList taken) :: nodes.map (Node.shift k))
      (comments.map (Comment.shift k)) =
    shift k (behind (c.past taken left) (.leaf kind named none c.offset (String.ofList taken) :: nodes) comments)
  rw [shift_behind, Cursor.shift_past]
  rfl

private theorem skipTo_shift (s : State) (stop : Nat) :
    ending?.skipTo (s.shift k) (stop + k) = (ending?.skipTo s stop).shift k := by
  have hgo : ∀ offset rest,
      ending?.skipTo.go (stop + k) (offset + k) rest = (ending?.skipTo.go stop offset rest).shift k := by
    intro offset rest
    fun_induction ending?.skipTo.go stop offset rest with
    | case1 => rfl
    | case2 offset c rest h => rw [ending?.skipTo.go, if_pos (by omega)]; rfl
    | case3 offset c rest h ih => rw [ending?.skipTo.go, if_neg (by omega), ← ih, Nat.add_right_comm]
  exact hgo s.tail.offset s.tail.rest

private theorem ending?_shift (e : Ending) :
    ((behind c nodes comments).shift k).ending? e = ((behind c nodes comments).ending? e).map (shift k) := by
  have hgap := (Gap.scan_shift k c).1
  have hgo : ∀ fuel s later, ending?.go e fuel (shift k s) (later.map (Comment.shift k)) =
      (ending?.go e fuel s later).map (shift k) := by
    intro fuel s later
    fun_induction ending?.go e fuel s later with
    | case1 => rfl
    | case2 fuel s h => cases fuel <;> rfl
    | case3 fuel s comment later s₁ hends =>
      rw [List.map_cons, ending?.go, Comment.stop_shift, skipTo_shift]
      exact if_pos hends
    | case4 fuel s comment later s₁ hends ih =>
      rw [List.map_cons, ending?.go, Comment.stop_shift, skipTo_shift]
      exact (if_neg hends).trans ih
  unfold ending?
  show (if endsStatement e c.rest then _ else
      ending?.go e (Gap.scan (c.shift k)).comments.length _ (Gap.scan (c.shift k)).comments.reverse) = _
  rw [hgap.comments, List.length_map, ← List.map_reverse]
  show _ = Option.map _ (if endsStatement e c.rest then _ else _)
  split
  · rfl
  · exact hgo _ _ _

private theorem mapLast_shift {f : Node → Node} (hf : ∀ n : Node, f (n.shift k) = (f n).shift k) :
    ((behind c nodes comments).shift k).mapLast f = ((behind c nodes comments).mapLast f).shift k := by
  cases nodes with
  | nil => rfl
  | cons n rest =>
    show behind (c.shift k) (f (n.shift k) :: rest.map (Node.shift k)) (comments.map (Comment.shift k)) =
      behind (c.shift k) ((f n).shift k :: rest.map (Node.shift k)) (comments.map (Comment.shift k))
    rw [hf]

private theorem close_shift (kind : String) (outer : List Node) :
    ((behind c nodes comments).shift k).close kind (outer.map (Node.shift k)) =
      ((behind c nodes comments).close kind outer).shift k := by
  have hstart : (((nodes.map (Node.shift k)).reverse.head?.map Node.start).getD (c.offset + k)) =
      (nodes.reverse.head?.map Node.start).getD c.offset + k := by
    rw [← List.map_reverse, List.head?_map, Option.map_map]
    cases nodes.reverse.head? with
    | none => rfl
    | some n => exact Node.start_shift k n
  rw [close_behind, shift_behind, shift_behind, close_behind, List.map_cons, Node.shift, Node.shiftAll_eq_map,
    List.map_reverse, ← hstart]
  rfl

end State

/-! ### Machines at two places -/

/-- Two states are where the machines began, or behind the token that comes next there, `k` bytes apart. -/
inductive State.Alike (k : Nat) (start start' : Cursor) : State → State → Prop where
  | start : Alike k start start' (.behind start [] []) (.behind start' [] [])
  | moved {c nodes comments} (h : (Gap.scan start).next.offset < c.offset) :
    Alike k start start' (.behind c nodes comments) ((State.behind c nodes comments).shift k)

mutual

/-- Two tasks are the same, but for the bytes. -/
inductive Task.Alike (k : Nat) (start start' : Cursor) : Task σ → Task σ → Prop where
  | run r : Task.Alike k start start' (.run r) (.run r)
  | close kind outer : Task.Alike k start start' (.close kind outer) (.close kind (outer.map (Node.shift k)))
  | label f : Task.Alike k start start' (.label f) (.label f)
  | settle {choices choices'} (h : List.Forall₂ (Choice.Alike k start start') choices choices') :
    Task.Alike k start start' (.settle choices) (.settle choices')
  | refuse {choices choices'} (h : List.Forall₂ (Choice.Alike k start start') choices choices') :
    Task.Alike k start start' (.refuse choices) (.refuse choices')
  | started r : Task.Alike k start start' (.again r start.offset) (.again r start'.offset)
  | again r {offset} (h : (Gap.scan start).next.offset < offset) :
    Task.Alike k start start' (.again r offset) (.again r (offset + k))

/-- Two alternatives are the same, but for the bytes. -/
inductive Choice.Alike (k : Nat) (start start' : Cursor) : Choice σ → Choice σ → Prop where
  | mk {tasks tasks' s s'} (htasks : List.Forall₂ (Task.Alike k start start') tasks tasks')
    (hstate : State.Alike k start start' s s') : Choice.Alike k start start' (.mk tasks s) (.mk tasks' s')

end

namespace Machine

/-- Two machines are about to do the same, but for the bytes. -/
structure Alike (k : Nat) (start start' : Cursor) (m m' : Machine σ) : Prop where
  tasks : List.Forall₂ (Task.Alike k start start') m.tasks m'.tasks
  state : State.Alike k start start' m.state m'.state
  choices : List.Forall₂ (Choice.Alike k start start') m.choices m'.choices

/-- Two machines have done the same, but for the bytes. -/
inductive StepAlike (k : Nat) (start start' : Cursor) : Machine σ ⊕ Reading → Machine σ ⊕ Reading → Prop where
  | going {m m'} (h : Alike k start start' m m') : StepAlike k start start' (.inl m) (.inl m')
  | matched {s s'} (h : State.Alike k start start' s s') :
    StepAlike k start start' (.inr (.matched s)) (.inr (.matched s'))
  | failed reach reach' : StepAlike k start start' (.inr (.failed reach)) (.inr (.failed reach'))

variable {k : Nat} {start start' : Cursor} {m m' : Machine σ}

private theorem backtrack_alike (h : List.Forall₂ (Choice.Alike k start start') m.choices m'.choices) :
    StepAlike k start start' m.backtrack m'.backtrack := by
  unfold backtrack
  generalize m.choices = choices at h ⊢
  generalize m'.choices = choices' at h ⊢
  cases h with
  | nil => exact .failed _ _
  | cons hfirst hrest =>
    obtain ⟨htasks, hstate⟩ := hfirst
    exact .going ⟨htasks, hstate, hrest⟩

private theorem next_alike {rest rest' : List (Task σ)} {answer answer' : Option State}
    (hrest : List.Forall₂ (Task.Alike k start start') rest rest')
    (hanswer : Option.Rel (State.Alike k start start') answer answer')
    (hchoices : List.Forall₂ (Choice.Alike k start start') m.choices m'.choices) :
    StepAlike k start start' (m.next rest answer) (m'.next rest' answer') := by
  unfold next
  cases hanswer with
  | some hstate => exact .going ⟨hrest, hstate, hchoices⟩
  | none =>
    refine backtrack_alike ?_
    exact hchoices

theorem leading_of_underway {tasks : List (Task σ)} (h : Underway e start tasks (.behind start [] [])) :
    Leading e tasks := by
  rcases h.place with ⟨-, hlead⟩ | ⟨c, nodes, comments, heq, -, hlt⟩
  · exact hlead
  · have hsame : start = c := congrArg State.tail heq
    have hle := (Gap.leadsTo_scan start).offset_le
    rw [← hsame] at hlt
    omega

/-- An answer that does not depend on the place. -/
private theorem rel_of_map {c : Cursor} {nodes : List Node} {comments : List Comment} {x : State → Option State}
    (hx : x ((State.behind c nodes comments).shift k) = (x (.behind c nodes comments)).map (State.shift k))
    (hmoved : ∀ s, x (.behind c nodes comments) = some s →
      ∃ c' nodes' comments', s = .behind c' nodes' comments' ∧ (Gap.scan start).next.offset < c'.offset) :
    Option.Rel (State.Alike k start start') (x (.behind c nodes comments))
      (x ((State.behind c nodes comments).shift k)) := by
  rw [hx]
  cases hs : x (.behind c nodes comments) with
  | none => exact .none
  | some s =>
    obtain ⟨c', nodes', comments', rfl, hlt⟩ := hmoved s hs
    exact .some (.moved hlt)

private theorem again_alike {r : Rule σ} {rest rest' : List (Task σ)} {s s' : State}
    {choices choices' : List (Choice σ)}
    {reach reach' offset offset' : Nat} (hsame : s'.tail.offset = offset' ↔ s.tail.offset = offset)
    (hrest : List.Forall₂ (Task.Alike k start start') rest rest') (hstate : State.Alike k start start' s s')
    (hchoices : List.Forall₂ (Choice.Alike k start start') choices choices') :
    StepAlike k start start' (step grammar ⟨.again r offset :: rest, s, choices, reach⟩)
      (step grammar ⟨.again r offset' :: rest', s', choices', reach'⟩) := by
  unfold step
  dsimp only
  by_cases hs : s.tail.offset = offset
  · rw [if_pos (beq_iff_eq.2 hs), if_pos (beq_iff_eq.2 (hsame.2 hs))]
    exact .going ⟨hrest, hstate, hchoices⟩
  · rw [if_neg (mt beq_iff_eq.1 hs), if_neg (mt beq_iff_eq.1 (mt hsame.1 hs))]
    exact .going ⟨.cons (.run _) hrest, hstate, hchoices⟩

private theorem mapLast_alike {c : Cursor} {nodes : List Node} {comments : List Comment}
    (hlt : (Gap.scan start).next.offset < c.offset) {f : Node → Node}
    (hf : ∀ n : Node, f (n.shift k) = (f n).shift k) :
    State.Alike k start start' ((State.behind c nodes comments).mapLast f)
      (((State.behind c nodes comments).shift k).mapLast f) := by
  rw [State.mapLast_shift hf, State.mapLast_behind]
  exact .moved hlt

private theorem token_alike (hgap : Gap.Alike k (Gap.scan start) (Gap.scan start')) {kind : String} {named : Bool}
    {l : Lexeme} (hl : l.isFilled = true) :
    Option.Rel (State.Alike k start start') ((State.behind start [] []).token? kind named l)
      ((State.behind start' [] []).token? kind named l) := by
  have hsame : (State.behind start' [] []).token? kind named l =
      ((State.behind start [] []).token? kind named l).map (State.shift k) :=
    @State.token?_alike k start start' [] [] hgap kind named l
  rw [hsame]
  cases hs : (State.behind start [] []).token? kind named l with
  | none => exact .none
  | some s =>
    obtain ⟨taken, left, htake, rfl⟩ := State.of_token kind named hs
    have hpos := byteLength_pos (Lexeme.take?_ne_nil hl State.ne_nil_of_word htake)
    refine .some (.moved ?_)
    show _ < _ + byteLength taken
    omega

/-- At two places where the same comes next, the machines run a rule in the same way. -/
private theorem rule_alike (hgap : Gap.Alike k (Gap.scan start) (Gap.scan start')) {r : Rule σ}
    {rest rest' : List (Task σ)} {state state' : State} {choices choices' : List (Choice σ)} {reach reach' : Nat}
    (here : Underway e start (.run r :: rest) state) (hrest : List.Forall₂ (Task.Alike k start start') rest rest')
    (hstate : State.Alike k start start' state state')
    (hchoices : List.Forall₂ (Choice.Alike k start start') choices choices') :
    StepAlike k start start' (step grammar ⟨.run r :: rest, state, choices, reach⟩)
      (step grammar ⟨.run r :: rest', state', choices', reach'⟩) := by
  cases r with
  | nothing => exact .going ⟨hrest, hstate, hchoices⟩
  | token kind named l =>
    refine next_alike hrest ?_ hchoices
    cases hstate with
    | start => exact token_alike hgap (leading_of_underway here).1
    | moved hlt =>
      rename_i c nodes comments
      refine rel_of_map (x := fun s => s.token? kind named l)
        (State.token?_alike (Gap.scan_shift k c).1 kind named l) fun s hs => ?_
      obtain ⟨taken, left, htake, rfl⟩ := State.of_token kind named hs
      have hleads := (Gap.leadsTo_scan c).trans (Cursor.leadsTo_past (Lexeme.take?_append htake))
      exact ⟨_, _, _, rfl, hlt.trans_le hleads.offset_le⟩
  | glued kind named l =>
    refine next_alike hrest ?_ hchoices
    cases hstate with
    | start => exact absurd (leading_of_underway here).1 Bool.false_ne_true
    | moved hlt =>
      refine rel_of_map (x := fun s => s.glued? kind named l) (State.glued?_shift kind named l) fun s hs => ?_
      obtain ⟨taken, left, htaken, rfl⟩ := State.of_glued kind named hs
      exact ⟨_, _, _, rfl, hlt.trans_le (Cursor.leadsTo_past htaken).offset_le⟩
  | ending end? =>
    refine next_alike hrest ?_ hchoices
    cases hstate with
    | start => exact absurd (leading_of_underway here).1 Bool.false_ne_true
    | moved hlt =>
      refine rel_of_map (x := fun s => s.ending? end?) (State.ending?_shift end?) fun s hs => ?_
      obtain ⟨c', comments', hc', rfl⟩ := State.of_ending end? hs
      exact ⟨_, _, _, rfl, hlt.trans_le hc'.offset_le⟩
  | sameLine =>
    refine next_alike hrest ?_ hchoices
    cases hstate with
    | start => exact absurd (leading_of_underway here).1 Bool.false_ne_true
    | moved hlt =>
      rename_i c nodes comments
      refine rel_of_map (x := fun s => if s.gap.broken then none else some s) ?_ fun s hs => ?_
      · have hbroken : ((State.behind c nodes comments).shift k).gap.broken =
            (State.behind c nodes comments).gap.broken := (Gap.scan_shift k c).2
        rw [hbroken]
        split <;> rfl
      · split at hs <;> cases hs
        exact ⟨_, _, _, rfl, hlt⟩
  | seq a b => exact .going ⟨.cons (.run a) (.cons (.run b) hrest), hstate, hchoices⟩
  | alt a b =>
    exact .going ⟨.cons (.run a) (.cons (.settle hchoices) hrest), hstate,
      .cons (.mk (.cons (.run b) hrest) hstate) hchoices⟩
  | many a =>
    have hagain : Task.Alike k start start' (.again a state.tail.offset) (.again a state'.tail.offset) := by
      cases hstate with
      | start => exact .started a
      | moved hlt => exact .again a hlt
    exact .going ⟨.cons (.run a) (.cons (.settle hchoices) (.cons hagain hrest)), hstate,
      .cons (.mk hrest hstate) hchoices⟩
  | absent a =>
    exact .going ⟨.cons (.run a) (.cons (.refuse hchoices) .nil), hstate, .cons (.mk hrest hstate) hchoices⟩
  | ref x => exact .going ⟨.cons (.run _) hrest, hstate, hchoices⟩
  | node kind a =>
    cases hstate with
    | start => exact .going ⟨.cons (.run a) (.cons (.close kind []) hrest), .start, hchoices⟩
    | moved hlt => exact .going ⟨.cons (.run a) (.cons (.close kind _) hrest), .moved hlt, hchoices⟩
  | grow kind f a =>
    cases hstate with
    | start => exact backtrack_alike hchoices
    | moved hlt =>
      rename_i c nodes comments
      cases nodes with
      | nil => exact backtrack_alike hchoices
      | cons left outer =>
        have hleft : f.elim (left.shift k) (left.shift k).withField = (f.elim left left.withField).shift k := by
          cases f with
          | none => rfl
          | some f => exact Node.withField_shift k f left
        refine .going ⟨.cons (.run a) (.cons (.close kind outer) hrest), ?_, hchoices⟩
        show State.Alike k start start' (.behind c [f.elim left left.withField] comments)
          (.behind (c.shift k) [f.elim (left.shift k) (left.shift k).withField] (comments.map (Comment.shift k)))
        rw [hleft]
        exact .moved hlt
  | field f a => exact .going ⟨.cons (.run a) (.cons (.label f) hrest), hstate, hchoices⟩
  | recast f =>
    have hf := here.recasts _ (List.mem_cons_self ..) f (List.mem_singleton_self f)
    cases hstate with
    | start => exact .going ⟨hrest, .start, hchoices⟩
    | moved hlt => exact .going ⟨hrest, mapLast_alike hlt (hf.shift k), hchoices⟩

/-- At two places where the same comes next, the machines take the same step. -/
private theorem step_alike (hgap : Gap.Alike k (Gap.scan start) (Gap.scan start'))
    (hm : m.Kept (Underway e start)) (h : Alike k start start' m m') :
    StepAlike k start start' (m.step grammar) (m'.step grammar) := by
  obtain ⟨tasks, state, choices, reach⟩ := m
  obtain ⟨tasks', state', choices', reach'⟩ := m'
  obtain ⟨htasks, hstate, hchoices⟩ := h
  dsimp only at htasks hstate hchoices
  have hle := (Gap.leadsTo_scan start).offset_le
  have hle' := (Gap.leadsTo_scan start').offset_le
  have hnext : (Gap.scan start').next.offset = (Gap.scan start).next.offset + k := by
    rw [hgap.next]
    rfl
  cases hm with
  | failing hfail later =>
    rcases hfail with rfl | rfl
    · cases htasks with
      | cons ht hrest =>
        cases ht with
        | refuse hrefused => exact backtrack_alike hrefused
    · cases htasks with
      | cons ht hrest =>
        cases ht
        exact .going ⟨hrest, hstate, hchoices⟩
  | going here later hkept =>
    cases htasks with
    | nil => exact .matched hstate
    | cons ht hrest =>
      cases ht with
      | close kind outer =>
        cases hstate with
        | start => cases leading_of_underway here
        | moved hlt =>
          refine .going ⟨hrest, ?_, hchoices⟩
          rw [State.close_shift]
          exact .moved hlt
      | label f =>
        cases hstate with
        | start => exact .going ⟨hrest, .start, hchoices⟩
        | moved hlt => exact .going ⟨hrest, mapLast_alike hlt (Node.withField_shift k f), hchoices⟩
      | settle hsettled => exact .going ⟨hrest, hstate, hsettled⟩
      | refuse hrefused => exact backtrack_alike hrefused
      | started r =>
        refine again_alike ?_ hrest hstate hchoices
        cases hstate with
        | start => exact iff_of_true rfl rfl
        | moved hlt =>
          rename_i c nodes comments
          show c.offset + k = start'.offset ↔ c.offset = start.offset
          omega
      | again r hoffset =>
        rename_i offset
        refine again_alike ?_ hrest hstate hchoices
        cases hstate with
        | start =>
          show start'.offset = offset + k ↔ start.offset = offset
          omega
        | moved hlt =>
          rename_i c nodes comments
          show c.offset + k = offset + k ↔ c.offset = offset
          omega
      | run r => exact rule_alike hgap here hrest hstate hchoices

private theorem run_alike (hg : Leads grammar e) (hgap : Gap.Alike k (Gap.scan start) (Gap.scan start')) {fuel : Nat}
    (hm : m.Kept (Underway e start)) (h : Alike k start start' m m') :
    (∃ s s', State.Alike k start start' s s' ∧ m.run grammar fuel = .matched s ∧ m'.run grammar fuel = .matched s') ∨
      ∃ reach reach', m.run grammar fuel = .failed reach ∧ m'.run grammar fuel = .failed reach' := by
  induction fuel generalizing m m' with
  | zero => exact .inr ⟨_, _, rfl, rfl⟩
  | succ fuel ih =>
    have hstep : StepAlike k start start' (m.step grammar) (m'.step grammar) := step_alike hgap hm h
    unfold run
    cases hnext : m.step grammar with
    | inl m₁ =>
      rw [hnext] at hstep
      cases hnext' : m'.step grammar with
      | inl m₁' =>
        rw [hnext'] at hstep
        cases hstep with
        | going h₁ => exact ih (step_kept (carries_underway hg start) hm hnext) h₁
      | inr reading' =>
        rw [hnext'] at hstep
        cases hstep
    | inr reading =>
      rw [hnext] at hstep
      cases hnext' : m'.step grammar with
      | inl m₁' =>
        rw [hnext'] at hstep
        cases hstep
      | inr reading' =>
        rw [hnext'] at hstep
        cases hstep with
        | matched h₁ => exact .inl ⟨_, _, h₁, rfl, rfl⟩
        | failed reach reach' => exact .inr ⟨reach, reach', rfl, rfl⟩

end Machine

namespace Rule

variable {k : Nat} {r : Rule σ} {start start' : Cursor} {s : State}

/-- A rule that begins with a token, and recasts nodes wherever they are. -/
structure Begins (e : σ → Bool) (r : Rule σ) : Prop where
  leads : r.leads e = true
  nonempty : r.mayBeEmpty e = false
  recasts : ∀ f ∈ r.recasts, Harmless f

theorem Begins.underway (hr : r.Begins e) (start : Cursor) : Underway e start [.run r] (.behind start [] []) where
  recasts := by simpa [Task.recasts] using hr.recasts
  place := .inl ⟨rfl, hr.leads, fun hempty => absurd (hr.nonempty.symm.trans hempty) Bool.false_ne_true⟩

/-- A rule that has matched has taken the token that comes next. -/
theorem leadsTo_of_read (hg : Leads grammar e) (hr : r.Begins e) (h : r.read grammar start = .matched s) :
    s = .behind s.tail s.nodes s.comments ∧ (Gap.scan start).next.LeadsTo s.tail ∧
      (Gap.scan start).next.offset < s.tail.offset := by
  obtain ⟨-, ⟨-, ⟨⟩⟩ | ⟨c, nodes, comments, rfl, hmoved⟩⟩ :=
    read_carries (carries_underway hg start) (hr.underway start) h
  exact ⟨rfl, hmoved⟩

/-- Where the same comes next, a rule reads the same, or it matches at neither place. -/
theorem read_alike (hg : Leads grammar e) (hr : r.Begins e) (hgap : Gap.Alike k (Gap.scan start) (Gap.scan start')) :
    (∃ s, r.read grammar start = .matched s ∧ r.read grammar start' = .matched (s.shift k)) ∨
      ∃ reach reach', r.read grammar start = .failed reach ∧ r.read grammar start' = .failed reach' := by
  have hkept : Machine.Kept (Underway e start) ⟨[.run r], .behind start [] [], [], start.offset⟩ :=
    .going (hr.underway start) (by simp [Task.choices]) (by simp)
  have halike : Machine.Alike k start start' (Machine.mk [.run r] (.behind start [] []) [] start.offset)
      ⟨[.run r], .behind start' [] [], [], start'.offset⟩ :=
    ⟨.cons (.run r) .nil, .start, .nil⟩
  refine (Machine.run_alike hg hgap hkept halike).imp_left ?_
  rintro ⟨s, s', hs, h, h'⟩
  cases hs with
  | start =>
    -- a rule does not match before it has taken a token
    have hlt := (leadsTo_of_read hg hr h).2.2
    have hle := (Gap.leadsTo_scan start).offset_le
    exact absurd (hle.trans_lt hlt) (Nat.lt_irrefl _)
  | moved hlt => exact ⟨_, h, h'⟩

end Rule

end ScriptHost.Syntax
