import ScriptHost.Syntax.Rule

/-!
# What the reading machine keeps

The machine does one task after the other, and where it fails it takes up an alternative.  `Turn` says what a task can
turn into, whichever alternative is taken.  What every turn carries on holds of the state in which a rule has matched
(`Rule.read_carries`): alternatives need not be looked at any more.
-/

namespace ScriptHost.Syntax

variable {σ : Type} {grammar : σ → Rule σ}

/-- A task turns into others, and a state into another one.  An alternative may be taken although the one before it
matches; only that a rule does not match that takes nothing is taken into account. -/
inductive Turn (grammar : σ → Rule σ) : Task σ → State → List (Task σ) → State → Prop where
  | nothing {s} : Turn grammar (.run .nothing) s [] s
  | token {kind named l s s'} (h : s.token? kind named l = some s') :
    Turn grammar (.run (.token kind named l)) s [] s'
  | glued {kind named l s s'} (h : s.glued? kind named l = some s') :
    Turn grammar (.run (.glued kind named l)) s [] s'
  | ending {e s s'} (h : s.ending? e = some s') : Turn grammar (.run (.ending e)) s [] s'
  | sameLine {s} : Turn grammar (.run .sameLine) s [] s
  | seq {a b s} : Turn grammar (.run (.seq a b)) s [.run a, .run b] s
  | first {a b s choices} : Turn grammar (.run (.alt a b)) s [.run a, .settle choices] s
  | second {a b s} : Turn grammar (.run (.alt a b)) s [.run b] s
  | more {a s choices} :
    Turn grammar (.run (.many a)) s [.run a, .settle choices, .again a s.tail.offset] s
  | enough {a s} : Turn grammar (.run (.many a)) s [] s
  | absent {a s} (h : a ≠ .nothing) : Turn grammar (.run (.absent a)) s [] s
  | ref {x s} : Turn grammar (.run (.ref x)) s [.run (grammar x)] s
  | node {kind a s} : Turn grammar (.run (.node kind a)) s [.run a, .close kind s.nodes] { s with nodes := [] }
  | grow {kind f a s left outer} (h : s.nodes = left :: outer) :
    Turn grammar (.run (.grow kind f a)) s [.run a, .close kind outer]
      { s with nodes := [f.elim left left.withField] }
  | field {f a s} : Turn grammar (.run (.field f a)) s [.run a, .label f] s
  | recast {f s} : Turn grammar (.run (.recast f)) s [] (s.mapLast f)
  | close {kind outer s} : Turn grammar (.close kind outer) s [] (s.close kind outer)
  | label {f s} : Turn grammar (.label f) s [] (s.mapLast (Node.withField f))
  | settle {choices s} : Turn grammar (.settle choices) s [] s
  | repeated {r offset s} : Turn grammar (.again r offset) s [.run (.many r)] s
  | halted {r offset s} : Turn grammar (.again r offset) s [] s

/-- Every turn carries a property of tasks and states on, and so does every look ahead. -/
structure Carries (grammar : σ → Rule σ) (P : List (Task σ) → State → Prop) : Prop where
  turn {t rest s new s'} : P (t :: rest) s → Turn grammar t s new s' → P (new ++ rest) s'
  probe {a rest s choices} : P (.run (.absent a) :: rest) s → P [.run a, .refuse choices] s

/-- The alternatives that a task may bring back. -/
def Task.choices : Task σ → List (Choice σ)
  | .settle choices => choices
  | .refuse choices => choices
  | _ => []

/-- An alternative has a property, and so have those that it may bring back. -/
inductive Choice.Kept (P : List (Task σ) → State → Prop) : Choice σ → Prop where
  | mk {tasks state} (here : P tasks state) (later : ∀ t ∈ tasks, ∀ c ∈ t.choices, Kept P c) :
    Kept P (.mk tasks state)

namespace Machine

variable {P : List (Task σ) → State → Prop} {m m' : Machine σ} {s : State}

/-- A property holds wherever the machine may go. -/
inductive Kept (P : List (Task σ) → State → Prop) (m : Machine σ) : Prop where
  | going (here : P m.tasks m.state) (later : ∀ t ∈ m.tasks, ∀ c ∈ t.choices, c.Kept P)
    (choices : ∀ c ∈ m.choices, c.Kept P)
  /-- The machine is about to fail, and the alternatives opened last do not count. -/
  | failing {choices rest}
    (tasks : m.tasks = .refuse choices :: rest ∨ m.tasks = .run .nothing :: .refuse choices :: rest)
    (later : ∀ c ∈ choices, c.Kept P)

private theorem backtrack_kept (hchoices : ∀ c ∈ m.choices, c.Kept P) (h : m.backtrack = .inl m') : m'.Kept P := by
  unfold backtrack at h
  split at h
  · rename_i tasks state rest heq
    cases h
    obtain ⟨⟨here, later⟩, hrest⟩ := List.forall_mem_cons.1 (heq ▸ hchoices)
    exact .going here later hrest
  · cases h

private theorem backtrack_ne_matched : m.backtrack ≠ .inr (.matched s) := by
  unfold backtrack
  split <;> exact nofun

/-- A turn of the first task is kept. -/
private theorem kept_of_turn (hP : Carries grammar P) {t : Task σ} {rest new : List (Task σ)} {s' : State} {reach : Nat}
    {choices : List (Choice σ)} (here : P (t :: rest) s) (later : ∀ u ∈ t :: rest, ∀ c ∈ u.choices, c.Kept P)
    (hturn : Turn grammar t s new s') (hnew : ∀ u ∈ new, ∀ c ∈ u.choices, c.Kept P)
    (hchoices : ∀ c ∈ choices, c.Kept P) : Kept P ⟨new ++ rest, s', choices, reach⟩ := by
  refine .going (hP.turn here hturn) (fun u hu => ?_) hchoices
  rcases List.mem_append.1 hu with hu | hu
  · exact hnew u hu
  · exact later u (List.mem_cons_of_mem _ hu)

private theorem kept_of_next (hP : Carries grammar P) {t : Task σ} {rest : List (Task σ)} {answer : Option State}
    (hm : P (t :: rest) m.state) (later : ∀ u ∈ t :: rest, ∀ c ∈ u.choices, c.Kept P)
    (hchoices : ∀ c ∈ m.choices, c.Kept P) (hturn : ∀ s', answer = some s' → Turn grammar t m.state [] s')
    (h : m.next rest answer = .inl m') : m'.Kept P := by
  unfold next at h
  split at h
  · cases h
    exact kept_of_turn hP hm later (hturn _ rfl) (by simp) hchoices
  · exact backtrack_kept (m := { m with reach := max m.reach m.state.gap.next.offset }) hchoices h

private theorem rule_kept (hP : Carries grammar P) {r : Rule σ} {rest : List (Task σ)} {state : State}
    {choices : List (Choice σ)} {reach : Nat} (here : P (.run r :: rest) state)
    (later : ∀ t ∈ .run r :: rest, ∀ c ∈ t.choices, c.Kept P) (hchoices : ∀ c ∈ choices, c.Kept P)
    (h : step grammar ⟨.run r :: rest, state, choices, reach⟩ = .inl m') : m'.Kept P := by
  obtain ⟨-, hrest⟩ := List.forall_mem_cons.1 later
  -- the alternatives opened by a rule go on with the tasks that are left
  have hopened : ∀ {tasks}, P tasks state → (∀ u ∈ tasks, u ∈ rest ∨ u.choices = []) →
      ∀ c ∈ Choice.mk tasks state :: choices, c.Kept P := by
    intro tasks hthere htasks
    refine List.forall_mem_cons.2 ⟨.mk hthere fun u hu => ?_, hchoices⟩
    rcases htasks u hu with hu | hu
    · exact hrest u hu
    · rw [hu]
      exact nofun
  cases r with
  | nothing =>
    cases h
    exact kept_of_turn hP here later .nothing (by simp) hchoices
  | token kind named l => exact kept_of_next hP here later hchoices (fun s' => .token) h
  | glued kind named l => exact kept_of_next hP here later hchoices (fun s' => .glued) h
  | ending e => exact kept_of_next hP here later hchoices (fun s' => .ending) h
  | sameLine =>
    refine kept_of_next hP here later hchoices (fun s' hs' => ?_) h
    split at hs' <;> cases hs'
    exact .sameLine
  | seq a b =>
    cases h
    exact kept_of_turn hP here later .seq (by simp [Task.choices]) hchoices
  | alt a b =>
    cases h
    refine kept_of_turn hP here later .first (by simpa [Task.choices] using hchoices) ?_
    refine hopened (hP.turn here .second) fun u hu => ?_
    rcases List.mem_cons.1 hu with rfl | hu
    · exact .inr rfl
    · exact .inl hu
  | many a =>
    cases h
    refine kept_of_turn hP here later .more (by simpa [Task.choices] using hchoices) ?_
    exact hopened (hP.turn here .enough) fun u hu => .inl hu
  | absent a =>
    by_cases ha : a = .nothing
    · cases h
      exact .failing (.inr (by rw [ha])) hchoices
    · cases h
      refine .going (hP.probe here) ?_ (hopened (hP.turn here (.absent ha)) fun u hu => .inl hu)
      simpa [Task.choices] using hchoices
  | ref x =>
    cases h
    exact kept_of_turn hP here later .ref (by simp [Task.choices]) hchoices
  | node kind a =>
    cases h
    exact kept_of_turn hP here later .node (by simp [Task.choices]) hchoices
  | grow kind f a =>
    unfold step at h
    dsimp only at h
    split at h
    · cases h
      exact kept_of_turn hP here later (.grow ‹_›) (by simp [Task.choices]) hchoices
    · exact backtrack_kept hchoices h
  | field f a =>
    cases h
    exact kept_of_turn hP here later .field (by simp [Task.choices]) hchoices
  | recast f =>
    cases h
    exact kept_of_turn hP here later .recast (by simp) hchoices

theorem step_kept (hP : Carries grammar P) (hm : m.Kept P) (h : m.step grammar = .inl m') : m'.Kept P := by
  obtain ⟨tasks, state, choices, reach⟩ := m
  cases hm with
  | failing hfail later =>
    rcases hfail with rfl | rfl
    · exact backtrack_kept (m := ⟨_, state, _, reach⟩) later h
    · cases h
      exact .failing (.inl rfl) later
  | going here later hchoices =>
    cases tasks with
    | nil => cases h
    | cons t rest =>
      obtain ⟨hfirst, -⟩ := List.forall_mem_cons.1 later
      cases t with
      | close kind outer =>
        cases h
        exact kept_of_turn hP here later .close (by simp) hchoices
      | label f =>
        cases h
        exact kept_of_turn hP here later .label (by simp) hchoices
      | settle settled =>
        cases h
        exact kept_of_turn hP here later .settle (by simp) hfirst
      | refuse refused => exact backtrack_kept (m := ⟨_, state, refused, reach⟩) hfirst h
      | again r offset =>
        unfold step at h
        dsimp only at h
        split at h <;> cases h
        · exact kept_of_turn hP here later .halted (by simp) hchoices
        · exact kept_of_turn hP here later .repeated (by simp [Task.choices]) hchoices
      | run r => exact rule_kept hP here later hchoices h

private theorem eq_of_step_matched (h : m.step grammar = .inr (.matched s)) : m.tasks = [] ∧ m.state = s := by
  obtain ⟨tasks, state, choices, reach⟩ := m
  have hnext : ∀ {m : Machine σ} {rest : List (Task σ)} {answer : Option State},
      m.next rest answer ≠ .inr (.matched s) := by
    intro m rest answer
    unfold next
    split
    · exact nofun
    · exact backtrack_ne_matched
  cases tasks with
  | nil =>
    cases h
    exact ⟨rfl, rfl⟩
  | cons t rest =>
    exfalso
    cases t with
    | close | label | settle => cases h
    | refuse refused => exact backtrack_ne_matched h
    | again r offset =>
      unfold step at h
      dsimp only at h
      split at h <;> cases h
    | run r =>
      cases r with
      | token | glued | ending | sameLine => exact hnext h
      | grow kind f a =>
        unfold step at h
        dsimp only at h
        split at h
        · cases h
        · exact backtrack_ne_matched h
      | _ => cases h

private theorem run_kept (hP : Carries grammar P) {fuel : Nat} (hm : m.Kept P) (h : m.run grammar fuel = .matched s) :
    P [] s := by
  induction fuel generalizing m with
  | zero => cases h
  | succ fuel ih =>
    unfold run at h
    cases hstep : m.step grammar with
    | inl m' =>
      rw [hstep] at h
      exact ih (step_kept hP hm hstep) h
    | inr reading =>
      rw [hstep] at h
      cases h
      obtain ⟨htasks, hstate⟩ := eq_of_step_matched hstep
      cases hm with
      | going here => rwa [htasks, hstate] at here
      | failing hfail =>
        rw [htasks] at hfail
        simp at hfail

end Machine

/-- What every turn carries on holds of the state in which a rule has matched. -/
theorem Rule.read_carries {P : List (Task σ) → State → Prop} (hP : Carries grammar P) {r : Rule σ} {c : Cursor}
    {s : State} (hstart : P [.run r] (.behind c [] [])) (h : r.read grammar c = .matched s) : P [] s :=
  Machine.run_kept hP (.going hstart (by simp [Task.choices]) (by simp)) h

end ScriptHost.Syntax
