import ScriptHost.Proofs.Syntax.Place

/-!
# What the rules of a grammar derive

`Rule.Derives` says from which state to which a rule leads, without the machine: choices are free, and a repetition may
stop anywhere.  Whatever the machine reads is derived (`Rule.derives_of_read`).  So what is said of a rule by induction
on its derivations, or by looking at how a construct is derived, holds of what is read.
-/

namespace ScriptHost.Syntax

variable {σ : Type} {grammar : σ → Rule σ}

/-- The node that is made of what has been read in the current construct. -/
def State.construct (kind : String) (s : State) : Node :=
  .branch kind none ((s.nodes.reverse.head?.map Node.start).getD s.tail.offset) s.tail.offset s.nodes.reverse

/-- A rule leads from one state to another. -/
inductive Rule.Derives (grammar : σ → Rule σ) : Rule σ → State → State → Prop where
  | nothing {s} : Derives grammar .nothing s s
  | token {kind named l s s'} (h : s.token? kind named l = some s') : Derives grammar (.token kind named l) s s'
  | glued {kind named l s s'} (h : s.glued? kind named l = some s') : Derives grammar (.glued kind named l) s s'
  | ending {e s s'} (h : s.ending? e = some s') : Derives grammar (.ending e) s s'
  | sameLine {s} : Derives grammar .sameLine s s
  | seq {a b s s₁ s'} (ha : Derives grammar a s s₁) (hb : Derives grammar b s₁ s') : Derives grammar (.seq a b) s s'
  | first {a b s s'} (h : Derives grammar a s s') : Derives grammar (.alt a b) s s'
  | second {a b s s'} (h : Derives grammar b s s') : Derives grammar (.alt a b) s s'
  | enough {a s} : Derives grammar (.many a) s s
  | more {a s s₁ s'} (ha : Derives grammar a s s₁) (hmany : Derives grammar (.many a) s₁ s') :
    Derives grammar (.many a) s s'
  | absent {a s} (h : a ≠ .nothing) : Derives grammar (.absent a) s s
  | ref {x s s'} (h : Derives grammar (grammar x) s s') : Derives grammar (.ref x) s s'
  | node {kind a s s'} (h : Derives grammar a { s with nodes := [] } s') :
    Derives grammar (.node kind a) s { s' with nodes := s'.construct kind :: s.nodes }
  | grow {kind f a s s' left outer} (hs : s.nodes = left :: outer)
    (h : Derives grammar a { s with nodes := [f.elim left left.withField] } s') :
    Derives grammar (.grow kind f a) s { s' with nodes := s'.construct kind :: outer }
  | field {f a s s'} (h : Derives grammar a s s') : Derives grammar (.field f a) s (s'.mapLast (Node.withField f))
  | recast {f s} : Derives grammar (.recast f) s (s.mapLast f)

namespace Task

/-- What a task leads to when it is done. -/
def Does (grammar : σ → Rule σ) : Task σ → State → State → Prop
  | .run r, s, s' => r.Derives grammar s s'
  | .close kind outer, s, s' => s' = s.close kind outer
  | .label f, s, s' => s' = s.mapLast (Node.withField f)
  | .settle _, s, s' => s' = s
  | .again r _, s, s' => (Rule.many r).Derives grammar s s'
  | .refuse _, _, _ => False

/-- What tasks lead to when they are done one after the other. -/
def AllDo (grammar : σ → Rule σ) : List (Task σ) → State → State → Prop
  | [], s, s' => s' = s
  | t :: rest, s, s' => ∃ s₁, t.Does grammar s s₁ ∧ AllDo grammar rest s₁ s'

private theorem AllDo.append {new rest : List (Task σ)} {s s' : State} (h : AllDo grammar (new ++ rest) s s') :
    ∃ s₁, AllDo grammar new s s₁ ∧ AllDo grammar rest s₁ s' := by
  induction new generalizing s with
  | nil => exact ⟨s, rfl, h⟩
  | cons t new ih =>
    obtain ⟨s₁, ht, hnew⟩ := h
    obtain ⟨s₂, hnew, hrest⟩ := ih hnew
    exact ⟨s₂, ⟨s₁, ht, hnew⟩, hrest⟩

/-- A task leads to what the tasks lead to that it turns into. -/
private theorem does_of_turn {t : Task σ} {new : List (Task σ)} {s s' s'' : State} (hturn : Turn grammar t s new s')
    (h : AllDo grammar new s' s'') : t.Does grammar s s'' := by
  cases hturn with
  | nothing => exact h ▸ .nothing
  | token htoken => exact h ▸ .token htoken
  | glued hglued => exact h ▸ .glued hglued
  | ending hending => exact h ▸ .ending hending
  | sameLine => exact h ▸ .sameLine
  | seq =>
    obtain ⟨s₁, ha, s₂, hb, rfl⟩ := h
    exact .seq ha hb
  | first =>
    obtain ⟨s₁, ha, s₂, rfl, rfl⟩ := h
    exact .first ha
  | second =>
    obtain ⟨s₁, hb, rfl⟩ := h
    exact .second hb
  | more =>
    obtain ⟨s₁, ha, s₂, rfl, s₃, hmany, rfl⟩ := h
    exact .more ha hmany
  | enough => exact h ▸ .enough
  | absent hne => exact h ▸ .absent hne
  | ref =>
    obtain ⟨s₁, hx, rfl⟩ := h
    exact .ref hx
  | node =>
    obtain ⟨s₁, ha, s₂, rfl, rfl⟩ := h
    exact .node ha
  | grow hs =>
    obtain ⟨s₁, ha, s₂, rfl, rfl⟩ := h
    exact .grow hs ha
  | field =>
    obtain ⟨s₁, ha, s₂, rfl, rfl⟩ := h
    exact .field ha
  | recast => exact h ▸ .recast
  | close => exact h
  | label => exact h
  | settle => exact h
  | repeated =>
    obtain ⟨s₁, hmany, rfl⟩ := h
    exact hmany
  | halted => exact h ▸ .enough

end Task

/-- Whatever the machine reads is derived. -/
theorem Rule.derives_of_read {r : Rule σ} {c : Cursor} {s : State} (h : r.read grammar c = .matched s) :
    r.Derives grammar (.behind c [] []) s := by
  -- what is left to be done leads only to what the whole rule leads to
  let P (tasks : List (Task σ)) (s : State) : Prop :=
    ∀ s', Task.AllDo grammar tasks s s' → r.Derives grammar (.behind c [] []) s'
  have hP : Carries grammar P :=
    { turn := fun {t rest s new s₁} hleft hturn s' hdo => by
        obtain ⟨s₂, hnew, hrest⟩ := Task.AllDo.append hdo
        exact hleft s' ⟨s₂, Task.does_of_turn hturn hnew, hrest⟩
      probe := fun _ s' ⟨_, _, _, hrefuse, _⟩ => hrefuse.elim }
  have hstart : P [.run r] (.behind c [] []) := by
    rintro s' ⟨s₁, hr, rfl⟩
    exact hr
  exact Rule.read_carries hP hstart h s rfl

/-! ### Places -/

/-- What lies ahead of a state is what comes behind its last token, which is in the text `chars`. -/
structure State.In (chars : List Char) (s : State) : Prop where
  eq_behind : s = .behind s.tail s.nodes s.comments
  leads : (Cursor.mk 0 chars).LeadsTo s.tail

namespace State

variable {chars : List Char} {s s' : State}

theorem In.of_behind {c : Cursor} (h : (Cursor.mk 0 chars).LeadsTo c) (nodes : List Node) (comments : List Comment) :
    (behind c nodes comments).In chars :=
  ⟨rfl, h⟩

/-- Which nodes have been read makes no difference to what lies ahead. -/
theorem In.withNodes (h : s.In chars) (nodes : List Node) : State.In chars { s with nodes := nodes } where
  eq_behind := by
    obtain ⟨hs, -⟩ := h
    rw [hs]
    rfl
  leads := h.leads

private theorem In.mapLast (h : s.In chars) (f : Node → Node) : (s.mapLast f).In chars := by
  unfold State.mapLast
  split
  · exact h.withNodes _
  · exact h

theorem tail_mapLast (f : Node → Node) (s : State) : (s.mapLast f).tail = s.tail := by
  unfold mapLast
  split <;> rfl

end State

/-- What is derived in a text leads on in it. -/
theorem Rule.Derives.leadsTo {chars : List Char} {r : Rule σ} {s s' : State} (h : r.Derives grammar s s')
    (hs : s.In chars) : s'.In chars ∧ s.tail.LeadsTo s'.tail := by
  -- a state that comes about behind some more characters
  have hpast : ∀ {s : State} {c : Cursor} {nodes : List Node} {comments : List Comment}, s.In chars →
      s.tail.LeadsTo c → (State.behind c nodes comments).In chars ∧ s.tail.LeadsTo c :=
    fun hs hc => ⟨.of_behind (hs.leads.trans hc) _ _, hc⟩
  induction h with
  | nothing | sameLine | enough | absent => exact ⟨hs, .refl _⟩
  | token h =>
    rw [hs.eq_behind] at h
    obtain ⟨taken, left, htake, rfl⟩ := State.of_token _ _ h
    exact hpast hs ((Gap.leadsTo_scan _).trans (Cursor.leadsTo_past (Lexeme.take?_append htake)))
  | glued h =>
    rw [hs.eq_behind] at h
    obtain ⟨taken, left, htaken, rfl⟩ := State.of_glued _ _ h
    exact hpast hs (Cursor.leadsTo_past htaken)
  | ending h =>
    rw [hs.eq_behind] at h
    obtain ⟨c', comments', hc', rfl⟩ := State.of_ending _ h
    exact hpast hs hc'
  | seq ha hb iha ihb =>
    obtain ⟨hs₁, hle⟩ := iha hs
    obtain ⟨hs', hle'⟩ := ihb hs₁
    exact ⟨hs', hle.trans hle'⟩
  | first h ih | second h ih | ref h ih => exact ih hs
  | more ha hmany iha ihmany =>
    obtain ⟨hs₁, hle⟩ := iha hs
    obtain ⟨hs', hle'⟩ := ihmany hs₁
    exact ⟨hs', hle.trans hle'⟩
  | node h ih | grow _ h ih =>
    obtain ⟨hs', hle⟩ := ih (hs.withNodes _)
    exact ⟨hs'.withNodes _, hle⟩
  | field h ih =>
    obtain ⟨hs', hle⟩ := ih hs
    exact ⟨hs'.mapLast _, by rwa [State.tail_mapLast]⟩
  | recast => exact ⟨hs.mapLast _, by rw [State.tail_mapLast]; exact .refl _⟩

end ScriptHost.Syntax
