import ScriptHost.Proofs.Host.Quiet
import ScriptHost.Proofs.Host.Run
import ScriptHost.Proofs.Pattern.Union

/-!
# Steps of a host

Whatever a host does is a sequence of few kinds of steps (`Step`): something is identified, the engine is asked or
shown two texts for a merge, a text is stored, a script is dropped, or options are set.  `Steps K d h h' n` says that
steps lead from `h` to `h'` on a disk `d`, in which only keys with the property `K` get a text and `n` times a text is
stored under a key that may have had one.  An operation takes steps in which this happens at most once
(`Operation.steps`), so an invariant of a host is proved by looking at each kind of step (`Steps.keeps`,
`after_keeps`).
-/

namespace ScriptHost.Host

open ScriptHost.Analysis ScriptHost.Path ScriptHost.Resolution

variable {σ α β : Type} {K : String → Prop} {d : Disk}

/-- What can happen to a host at once. -/
inductive Step (K : String → Prop) (d : Disk) : Host σ → Host σ → Nat → Prop where
  | identify (path : String) (origin : Option String) (h : Host σ) : Step K d h (identify path origin d h).2 0
  | read (key : String) (h : Host σ) :
    Step K d h ((Action.ask fun engine view => engine.sourceFile view key : Action σ _) d h).2 0
  | ask (t : Topic) (key : String) (offset : Nat) (h : Host σ) : Step K d h (askAt t.question key offset d h).2 0
  | readPair (compiled compiledRaw shim declarations : String) (h : Host σ) :
    Step K d h (readPair compiled compiledRaw shim declarations d h).2 0
  | track (key raw content : String) (h : Host σ) (hk : K key) (hnew : h.store.get? key = none) :
    Step K d h { h with store := h.store.commit key raw content } 0
  | commit (key raw content : String) (h : Host σ) (hk : K key) :
    Step K d h { h with store := h.store.commit key raw content } 1
  | drop (key : String) (h : Host σ) :
    Step K d h { h with store := h.store.erase key, engineState := h.tools.engine.release key h.engineState } 0
  | choose (exclusions : Exclusions) (settings : Settings) (h : Host σ) (hkeeps : h.exclusions.KeepsStep exclusions) :
    Step K d h { h with exclusions, settings } 0

/-- Steps one after the other; the number says how many of them are of the kind `commit`. -/
inductive Steps (K : String → Prop) (d : Disk) : Host σ → Host σ → Nat → Prop where
  | refl (h : Host σ) : Steps K d h h 0
  | tail {h h₁ h₂ : Host σ} {m n : Nat} : Steps K d h h₁ m → Step K d h₁ h₂ n → Steps K d h h₂ (m + n)

namespace Steps

variable {h h₁ h₂ : Host σ} {m n : Nat}

private theorem single (hs : Step K d h h₁ n) : Steps K d h h₁ n := by
  simpa using Steps.tail (.refl h) hs

private theorem cast (hs : Steps K d h h₁ m) (hmn : m = n) : Steps K d h h₁ n := hmn ▸ hs

private theorem trans (hs : Steps K d h h₁ m) (hs' : Steps K d h₁ h₂ n) : Steps K d h h₂ (m + n) := by
  induction hs' with
  | refl => exact hs
  | tail _ step ih => exact (ih.tail step).cast (by omega)

/-- What every step keeps is kept by all steps, where `I` may be about the number of texts stored so far. -/
theorem keeps {I : Nat → Host σ → Prop}
    (hstep : ∀ {n k} {h h' : Host σ}, Step K d h h' k → I n h → I (n + k) h') (hs : Steps K d h h₁ m)
    (hI : I n h) : I (n + m) h₁ := by
  induction hs with
  | refl => exact hI
  | tail _ step ih =>
    have := hstep step ih
    rwa [Nat.add_assoc] at this

end Steps

/-! ### What every step keeps -/

theorem Step.tools {h h' : Host σ} {n : Nat} (hs : Step K d h h' n) : h'.tools = h.tools := by
  cases hs <;> rfl

theorem Step.directory {h h' : Host σ} {n : Nat} (hs : Step K d h h' n) : h'.directory = h.directory := by
  cases hs <;> rfl

/-- Memos do nothing but learn. -/
theorem Step.learned {h h' : Host σ} {n : Nat} (hs : Step K d h h' n) :
    Memo.Learned h.tools.resolver d h.memo h'.memo := by
  cases hs with
  | identify path origin => exact Memo.learned_resolve ..
  | _ => exact .refl ..

theorem Steps.sound {h h' : Host σ} {n : Nat} (hs : Steps K d h h' n) (hm : h.memo.Sound) : h'.memo.Sound :=
  hs.keeps (I := fun _ h => h.memo.Sound) (n := 0) (fun step hm => step.learned.sound hm) hm

theorem Steps.found {h h' : Host σ} {n : Nat} (hs : Steps K d h h' n) {request : Resolution.Request} {i : Identity}
    (hf : h.memo.found.get? request = some i) : h'.memo.found.get? request = some i :=
  hs.keeps (I := fun _ h => h.memo.found.get? request = some i) (n := 0) (fun step hf => step.learned.kept hf) hf

/-! ### Actions that take steps -/

/-- The action takes steps in which at most `n` times a text is stored under a key that may have had one. -/
def Takes (K : String → Prop) (d : Disk) (n : Nat) (x : Action σ α) : Prop :=
  ∀ h, h.memo.Sound → ∃ k ≤ n, Steps K d h (x d h).2 k

namespace Takes

variable {m n l : Nat}

private theorem of_eq {x : Action σ α} (hx : ∀ h, (x d h).2 = h) : Takes K d n x :=
  fun h _ => ⟨0, Nat.zero_le n, by rw [hx]; exact .refl h⟩

private theorem of_step {x : Action σ α} (hx : ∀ h, Step K d h (x d h).2 n) : Takes K d n x :=
  fun h _ => ⟨n, Nat.le_refl n, .single (hx h)⟩

private theorem weaken {x : Action σ α} (hx : Takes K d n x) (hnm : n ≤ m) : Takes K d m x := by
  intro h hm
  obtain ⟨k, hk, hs⟩ := hx h hm
  exact ⟨k, Nat.le_trans hk hnm, hs⟩

private theorem pure (a : α) : Takes K d n (Pure.pure a : Action σ α) := of_eq fun _ => rfl

private theorem fail (e : HostError) : Takes K d n (Action.fail e : Action σ α) := of_eq fun _ => rfl

private theorem lift {ε : Type} (cause : ε → HostError) (r : Except ε α) : Takes K d n
    (Action.lift cause r : Action σ α) :=
  of_eq fun _ => by cases r <;> rfl

private theorem attempt {x : Action σ α} (hx : Takes K d n x) : Takes K d n x.attempt := fun h hm => hx h hm

/-- A sequence takes the steps of its parts; the second part may rely on the answer of the first. -/
private theorem bind_of_ok {x : Action σ α} {f : α → Action σ β} (hx : Takes K d m x)
    (hf : ∀ h a h₁, h.memo.Sound → x d h = (.ok a, h₁) → ∃ k ≤ n, Steps K d h₁ (f a d h₁).2 k) (hl : m + n ≤ l) :
    Takes K d l (x >>= f) := by
  intro h hm
  obtain ⟨k, hk, hs⟩ := hx h hm
  rcases hxd : x d h with ⟨e | a, h₁⟩
  · rw [Action.bind_run_of_error hxd]
    rw [hxd] at hs
    exact ⟨k, by omega, hs⟩
  · rw [Action.bind_run_of_ok hxd]
    rw [hxd] at hs
    obtain ⟨k', hk', hs'⟩ := hf h a h₁ hm hxd
    exact ⟨k + k', by omega, hs.trans hs'⟩

private theorem bind_of_takes {x : Action σ α} {f : α → Action σ β} (hx : Takes K d m x)
    (hf : ∀ a, Takes K d n (f a)) (hl : m + n ≤ l) : Takes K d l (x >>= f) := by
  refine bind_of_ok hx (fun h a h₁ hm hxd => ?_) hl
  obtain ⟨k, -, hs⟩ := hx h hm
  rw [hxd] at hs
  exact hf a h₁ (hs.sound hm)

private theorem bind {x : Action σ α} {f : α → Action σ β} (hx : Takes K d 0 x) (hf : ∀ a, Takes K d n (f a)) :
    Takes K d n (x >>= f) :=
  bind_of_takes hx hf (by omega)

/-- Nothing is stored in the second part. -/
private theorem bind_free {x : Action σ α} {f : α → Action σ β} (hx : Takes K d n x) (hf : ∀ a, Takes K d 0 (f a)) :
    Takes K d n (x >>= f) :=
  bind_of_takes hx hf (by omega)

private theorem bind_host {f : Host σ → Action σ β} (hf : ∀ h, Takes K d n (f h)) : Takes K d n (Action.host >>= f) :=
  fun h hm => hf h h hm

private theorem bind_disk {f : Disk → Action σ β} (hf : Takes K d n (f d)) : Takes K d n (Action.disk >>= f) := hf

end Takes

/-! ### What the operations do -/

/-- Whatever can be identified may be stored. -/
def AdmitsAll (K : String → Prop) : Prop := ∀ i : Identity, i.WellFormed → K i.normalized

theorem admitsAll_true : AdmitsAll fun _ => True := fun _ _ => trivial

private theorem identify_takes (path : String) (origin : Option String) : Takes K d 0
    (identify path origin : Action σ _) :=
  .of_step fun h => .identify path origin h

private theorem observeIdentity_takes (i : Identity) (given : Option String) :
    Takes K d 0 (observeIdentity i given : Action σ _) :=
  .of_eq fun h => by rw [observeIdentity_run]

theorem observe_takes (path : String) (origin given : Option String) :
    Takes K d 0 (observe path origin given : Action σ _) :=
  (identify_takes path origin).bind fun i => observeIdentity_takes i given

private theorem knownName_takes (name : String) : Takes K d 0 (knownName name : Action σ _) := by
  refine .bind_host fun h => ?_
  split
  · exact .pure name
  · refine (identify_takes name none).attempt.bind fun r => ?_
    cases r <;> exact .pure _

theorem engineName_takes (name : String) : Takes K d 0 (engineName name : Action σ _) := by
  refine .bind_host fun h => ?_
  split
  · exact .pure name
  · exact (identify_takes name none).bind fun i => .pure _

private theorem requireUnit_takes (unit : Option SourceUnit) (path : String) :
    Takes K d 0 (requireUnit unit path : Action σ _) := by
  cases unit
  · exact .fail _
  · exact .pure _

private theorem mergedContent_takes (o : Observation) : Takes K d 0 (mergedContent o : Action σ _) := by
  unfold mergedContent
  split
  · exact .pure _
  · refine .bind_disk ?_
    split
    · exact .pure _
    · refine (identify_takes _ _).bind fun shim => ?_
      refine (observeIdentity_takes shim none).bind fun declarations => ?_
      refine (Takes.of_step fun h => .readPair ..).bind fun units => ?_
      refine (requireUnit_takes _ _).bind fun compiledUnit => ?_
      refine (requireUnit_takes _ _).bind fun shimUnit => ?_
      exact .bind_host fun h => .lift _ _

theorem commit_takes {o : Observation} (hk : K o.path) : Takes K d 1 (commit o : Action σ _) := by
  unfold commit
  split
  · exact .pure _
  · refine (mergedContent_takes o).bind fun content => ?_
    exact (Takes.of_step fun h => .commit o.path o.raw content h hk).bind_free fun _ => .pure _

/-- Where nothing was stored, no text is replaced. -/
private theorem commit_steps_of_untracked {o : Observation} (ho : o.identity.WellFormed) (hk : K o.path) {h : Host σ}
    (hm : h.memo.Sound) (hnew : h.store.get? o.path = none) : Steps K d h (commit o d h).2 0 := by
  unfold commit
  split
  · exact .refl h
  · obtain ⟨k, hk0, hs⟩ := mergedContent_takes (K := K) (d := d) o h hm
    obtain rfl : k = 0 := by omega
    have hq := mergedContent_quiet (.of_wellFormed ho d) hm
    rcases hc : mergedContent o d h with ⟨e | content, h₁⟩
    · rw [Action.bind_run_of_error hc]
      rwa [hc] at hs
    · rw [Action.bind_run_of_ok hc]
      rw [hc] at hs hq
      exact hs.tail (.track o.path o.raw content h₁ hk ((hq.store o.path).trans hnew))

private theorem get?_eq_none_of_needsUpdate {i : Identity} {h h₁ : Host σ} {o : Observation}
    (ho : observeIdentity i none d h = (.ok o, h₁)) (hn : o.needsUpdate = true) : h.store.get? o.path = none := by
  obtain ⟨-, hseen, hi, hnews⟩ := observeIdentity_eq_ok.1 ho
  rw [Observation.path, hi]
  cases hr : h.store.get? i.normalized with
  | none => rfl
  | some record =>
    have hraw : record.rawContent = o.raw := by
      simpa [seenText, hr] using hseen
    rw [hnews, Store.needsUpdate, hr] at hn
    simp [hraw] at hn

private theorem trackImport_takes {i : Identity} (hi : i.WellFormed) (hk : K i.normalized) :
    Takes K d 0 (trackImport i : Action σ _) := by
  refine (observeIdentity_takes i none).attempt.bind_of_ok (n := 0) (fun h r h₁ hm hr => ?_) (by omega)
  rw [Action.attempt_run, observeIdentity_run] at hr
  cases r with
  | error e => exact ⟨0, Nat.le_refl 0, (Prod.mk.inj hr).2 ▸ .refl h⟩
  | ok o =>
    obtain ⟨ho, rfl⟩ := Prod.mk.inj hr
    have ho' : observeIdentity i none d h = (.ok o, h) := by
      rw [observeIdentity_run]
      exact congrArg (·, h) (Except.ok.inj ho)
    have hid : o.identity = i := (observeIdentity_eq_ok.1 ho').2.2.1
    refine ⟨0, Nat.le_refl 0, ?_⟩
    have hsteps : Steps K d h (commit o d h).2 0 := by
      cases hn : o.needsUpdate with
      | false =>
        unfold commit
        rw [hn]
        exact .refl h
      | true =>
        -- no text was given, so this is news only if nothing was stored
        have hnew := get?_eq_none_of_needsUpdate ho' hn
        exact commit_steps_of_untracked (hid ▸ hi) (by rw [Observation.path, hid]; exact hk) hm hnew
    show Steps K d h (((commit o).attempt >>= _) d h).2 0
    rcases hc : commit o d h with ⟨e | b, h₂⟩ <;> rw [hc] at hsteps
    · rw [Action.bind_attempt_run hc]
      exact hsteps
    · rw [Action.bind_attempt_run hc]
      cases b <;> exact hsteps

/-! #### Walks -/

private theorem identifyAll_takes (origin : String) (names : List String) :
    Takes K d 0 (identifyAll origin names : Action σ _) := by
  induction names with
  | nil => exact .pure _
  | cons raw rest ih =>
    refine (identify_takes raw (some origin)).attempt.bind fun r => ?_
    cases r with
    | error e => exact ih
    | ok i => exact ih.bind fun imports => .pure _

private theorem importsIn_takes (source origin : String) : Takes K d 0 (importsIn source origin : Action σ _) :=
  .bind_host fun _ => identifyAll_takes origin _

section

variable {importer raw : String} {i : Identity} {rest : List (String × Identity)} {w : Walk} {h h₁ : Host σ}

theorem followImports_of_excluded (hex : h.exclusions.excludes i.normalized = true) :
    followImports importer ((raw, i) :: rest) w d h = followImports importer rest w d h := by
  rw [followImports, Action.bind_host_run, hex, if_pos rfl]

/-- Of a script that has been met before, only the import is new. -/
theorem followImports_of_met (hex : h.exclusions.excludes i.normalized = false)
    (hmet : w.visited.contains i.normalized = true) :
    followImports importer ((raw, i) :: rest) w d h =
      followImports importer rest ⟨w.graph.addImport importer (edgeTo raw i), w.visited, w.queue⟩ d h := by
  rw [followImports, Action.bind_host_run, hex, if_neg Bool.false_ne_true]
  dsimp only
  rw [if_pos hmet]

theorem followImports_of_passed (hex : h.exclusions.excludes i.normalized = false)
    (hnew : w.visited.contains i.normalized = false) (htrack : trackImport i d h = (.ok none, h₁)) :
    followImports importer ((raw, i) :: rest) w d h =
      followImports importer rest
        ⟨w.graph.addImport importer (edgeTo raw i), i.normalized :: w.visited, w.queue⟩ d h₁ := by
  rw [followImports, Action.bind_host_run, hex, if_neg Bool.false_ne_true]
  dsimp only
  rw [hnew, if_neg Bool.false_ne_true, Action.bind_run_of_ok htrack]

/-- A script that is news waits to be visited. -/
theorem followImports_of_tracked (hex : h.exclusions.excludes i.normalized = false)
    (hnew : w.visited.contains i.normalized = false) {text : String}
    (htrack : trackImport i d h = (.ok (some text), h₁)) :
    followImports importer ((raw, i) :: rest) w d h =
      followImports importer rest
        ⟨w.graph.addImport importer (edgeTo raw i), i.normalized :: w.visited, w.queue ++ [(i, text)]⟩ d h₁ := by
  rw [followImports, Action.bind_host_run, hex, if_neg Bool.false_ne_true]
  dsimp only
  rw [hnew, if_neg Bool.false_ne_true, Action.bind_run_of_ok htrack]

end

private theorem followImports_takes (hK : AdmitsAll K) (importer : String) (imports : List (String × Identity))
    (hwf : ∀ x ∈ imports, x.2.WellFormed) (w : Walk) : Takes K d 0 (followImports importer imports w : Action σ _) := by
  induction imports generalizing w with
  | nil => exact .pure w
  | cons x rest ih =>
    obtain ⟨raw, i⟩ := x
    obtain ⟨hi, hrest⟩ := List.forall_mem_cons.1 hwf
    refine .bind_host fun h => ?_
    split
    · exact ih hrest w
    · dsimp only
      split
      · exact ih hrest _
      · refine (trackImport_takes hi (hK i hi)).bind fun text => ?_
        cases text with
        | none => exact ih hrest _
        | some text => exact ih hrest _

/-- A walk is done when no script waits, it is given up when one waits at the limit, and else it visits the first one. -/
@[elab_as_elim]
theorem walk_induction {motive : Nat → Walk → Prop} (done : ∀ limit graph visited, motive limit ⟨graph, visited, []⟩)
    (givenUp : ∀ graph visited x queue, motive 0 ⟨graph, visited, x :: queue⟩)
    (visit : ∀ limit graph visited script text queue, (∀ w, motive limit w) →
      motive (limit + 1) ⟨graph, visited, (script, text) :: queue⟩) (limit : Nat) (w : Walk) : motive limit w := by
  induction limit generalizing w with
  | zero =>
    obtain ⟨graph, visited, queue⟩ := w
    cases queue with
    | nil => exact done 0 graph visited
    | cons x queue => exact givenUp graph visited x queue
  | succ limit ih =>
    obtain ⟨graph, visited, queue⟩ := w
    cases queue with
    | nil => exact done (limit + 1) graph visited
    | cons x queue => exact visit limit graph visited x.1 x.2 queue ih

@[simp]
theorem walk_nil (limit : Nat) (graph : Imports.Graph) (visited : List String) :
    (walk limit ⟨graph, visited, []⟩ : Action σ _) = pure graph := by
  cases limit <;> rfl

private theorem walk_takes (hK : AdmitsAll K) (limit : Nat) (w : Walk) : Takes K d 0 (walk limit w : Action σ _) := by
  induction limit, w using walk_induction with
  | done limit graph visited =>
    rw [walk_nil]
    exact .pure graph
  | givenUp graph visited x queue => exact .fail _
  | visit limit graph visited importer text queue ih =>
    refine (importsIn_takes text importer.resolved).bind_of_ok (n := 0) (fun h imports h₁ hm hi => ?_) (by omega)
    obtain ⟨h', hi', hq, -⟩ := importsIn_run text importer.resolved d h
    rw [hi] at hi'
    obtain ⟨himports, rfl⟩ := Prod.mk.inj hi'
    have hm₁ := hq.sound hm
    -- the keys of the imports are admitted because all that is identified is well formed
    have hwf : ∀ x ∈ imports, x.2.WellFormed := by
      rw [Except.ok.inj himports]
      exact wellFormed_of_mem_identified hm₁
    exact ((followImports_takes hK _ imports hwf _).bind fun w => ih w) h₁ hm₁

theorem walkImports_takes (hK : AdmitsAll K) (o : Observation) : Takes K d 0 (walkImports o : Action σ _) :=
  .bind_host fun _ => walk_takes hK _ _

/-! #### Tracked scripts -/

private theorem parsedUnit_takes (key : String) : Takes K d 0 (parsedUnit key : Action σ _) := by
  refine (Takes.of_step fun h => .read key h).bind fun unit => ?_
  cases unit with
  | none => exact .fail _
  | some u => exact .pure u

theorem addObserved_takes (hK : AdmitsAll K) {o : Observation} (hk : K o.path) (withImports : Bool) :
    Takes K d 1 (addObserved o withImports : Action σ _) := by
  refine (commit_takes hk).bind_free fun stored => ?_
  split
  · split
    · exact (walkImports_takes hK o).bind fun _ => parsedUnit_takes _
    · exact parsedUnit_takes _
  · exact parsedUnit_takes _

/-- What is observed goes on to a second part that may rely on the identity. -/
private theorem observe_bind_takes {path : String} {origin given : Option String} {f : Observation → Action σ β}
    {n : Nat}
    (hf : ∀ o, o.identity.WellFormed → Takes K d n (f o)) : Takes K d n (observe path origin given >>= f) := by
  refine (observe_takes path origin given).bind_of_ok (n := n) (fun h o h₁ hm ho => ?_) (by omega)
  have hq := observe_quiet path origin given d h
  rw [ho] at hq
  exact hf o (wellFormed_of_observe hm ho) h₁ (hq.sound hm)

private theorem addFile_takes (hK : AdmitsAll K) (r : Request) : Takes K d 1 (addFile r : Action σ _) :=
  observe_bind_takes fun _ ho => addObserved_takes hK (hK _ ho) r.withImports

private theorem getFile_takes (hK : AdmitsAll K) (r : Request) : Takes K d 1 (getFile r : Action σ _) := by
  refine observe_bind_takes fun o ho => ?_
  split
  · exact addObserved_takes hK (hK _ ho) r.withImports
  · refine (Takes.of_step fun h => .read o.path h).bind fun unit => ?_
    cases unit with
    | none => exact addObserved_takes hK (hK _ ho) r.withImports
    | some u => exact .pure u

private theorem expandClosure_takes (hK : AdmitsAll K) (path : String) (origin : Option String) :
    Takes K d 1 (expandClosure path origin : Action σ _) :=
  observe_bind_takes fun o ho => (commit_takes (hK _ ho)).bind_free fun _ => walkImports_takes hK o

private theorem refreshDeclarations_takes (hK : AdmitsAll K) (name : String) :
    Takes K d 1 (refreshDeclarations name : Action σ _) := by
  refine (identify_takes name none).bind_of_ok (n := 1) (fun h i h₁ hm hi => ?_) (by omega)
  have hwf := wellFormed_of_identify hm hi
  have hq := identify_quiet name none d h
  rw [hi] at hq
  refine Takes.bind_host (fun h₂ => ?_) h₁ (hq.sound hm)
  split
  · exact .pure _
  · rename_i stored _
    refine (observeIdentity_takes i (some stored.rawContent)).bind_of_ok (n := 1) (fun h₃ o h₄ hm₃ ho => ?_) (by omega)
    obtain ⟨rfl, -, hid, -⟩ := observeIdentity_eq_ok.1 ho
    have hk : K o.path := by
      rw [Observation.path, hid]
      exact hK i hwf
    refine ((mergedContent_takes o).bind fun content => ?_) h₄ hm₃
    split
    · exact .pure _
    · exact (Takes.of_step fun h => .commit o.path o.raw content h hk).bind_free fun _ => .pure _

private theorem removeFile_takes (name : String) : Takes K d 0 (removeFile name : Action σ _) :=
  (knownName_takes name).bind fun path h _ => ⟨0, Nat.le_refl 0, .single (.drop path h)⟩

private theorem fileVersion_takes (name : String) : Takes K d 0 (fileVersion name : Action σ _) :=
  (knownName_takes name).bind fun _ => .bind_host fun _ => .pure _

private theorem fileRecord_takes (name : String) : Takes K d 0 (fileRecord name : Action σ _) :=
  (knownName_takes name).bind fun _ => .bind_host fun _ => .pure _

private theorem importsOfContent_takes (source origin : String) : Takes K d 0
    (importsOfContent source origin : Action σ _) :=
  (importsIn_takes source origin).bind fun _ => .pure _

private theorem importsOfFile_takes (name : String) : Takes K d 0 (importsOfFile name : Action σ _) := by
  refine .bind_host fun h => ?_
  split
  · exact importsOfContent_takes _ name
  · exact (observe_takes name none none).bind fun o => importsOfContent_takes o.raw o.identity.resolved

/-! #### Options -/

private theorem addExclusions_takes {add : Exclusions → String → Except Config.Error Exclusions}
    (hadd : ∀ {s pattern s'}, add s pattern = .ok s' → s.KeepsStep s') (patterns : List String) :
    Takes K d 0 (addExclusions add patterns : Action σ _) := by
  induction patterns with
  | nil => exact .pure _
  | cons pattern rest ih =>
    intro h hm
    unfold addExclusions
    rw [Action.bind_host_run]
    cases hone : add h.exclusions pattern with
    | error cause => exact ⟨0, Nat.le_refl 0, .refl h⟩
    | ok exclusions =>
      obtain ⟨k, hk, hs⟩ := ih { h with exclusions } hm
      exact ⟨0 + k, by omega, (Steps.single (.choose exclusions h.settings h (hadd hone))).trans hs⟩

private theorem setOptions_takes (options : Options) : Takes K d 0 (setOptions options : Action σ _) := by
  refine (addExclusions_takes Exclusions.keepsStep_addRegex _).bind fun _ =>
    (addExclusions_takes Exclusions.keepsStep_addGlob _).bind fun _ => ?_
  split
  · rename_i settings _
    exact .of_step fun h => .choose h.exclusions settings h (.refl _)
  · exact .pure _

private theorem exclude_takes (patterns : List (Pattern.Program Char)) : Takes K d 0 (exclude patterns : Action σ _) :=
  .of_step fun h => .choose _ h.settings h (h.exclusions.keepsStep_foldl_addProgram patterns)

/-! #### Events -/

private theorem declarationsChanged_takes (hK : AdmitsAll K) (compiled : String) :
    Takes K d 1 (declarationsChanged compiled : Action σ _) := by
  refine (fileVersion_takes compiled).bind fun version => ?_
  split
  · exact .pure _
  · refine (refreshDeclarations_takes hK compiled).bind_free fun refreshed => ?_
    split
    · exact (fileVersion_takes compiled).bind fun _ => .pure _
    · exact .pure _

private theorem scriptChanged_takes (hK : AdmitsAll K) (path name : String) (before : Version) (text : String) :
    Takes K d 1 (scriptChanged path name before text : Action σ _) := by
  refine (addFile_takes hK _).bind_free fun _ => (fileVersion_takes name).bind fun version => ?_
  split <;> exact .pure _

private theorem fileRemoved_takes (hK : AdmitsAll K) (path : String) : Takes K d 1 (fileRemoved path : Action σ _) := by
  unfold fileRemoved
  split
  · exact .pure _
  · refine .bind_disk ?_
    split
    · exact declarationsChanged_takes hK _
    · refine (removeFile_takes path).bind fun removed => ?_
      split
      · exact .pure _
      · dsimp only
        split
        · refine (removeFile_takes _).bind fun removed => ?_
          split <;> exact .pure _
        · exact .pure _

private theorem fileChanged_steps (hK : AdmitsAll K) (path : String) (trackNew : Bool) {h : Host σ}
    (hm : h.memo.Sound) : ∃ k ≤ 1, Steps K d h (fileChanged path trackNew d h).2 k := by
  unfold fileChanged
  split
  · exact ⟨0, by omega, .refl h⟩
  · split
    · exact declarationsChanged_takes hK _ h hm
    · dsimp only
      obtain ⟨k, hk, hs⟩ := fileVersion_takes (K := K) (d := d)
        (((declarationBase? path).map (· ++ sourceExtension)).getD path) h hm
      obtain rfl : k = 0 := by omega
      split <;> rename_i hv <;> rw [hv] at hs
      · exact ⟨0, by omega, hs⟩
      · split
        · exact ⟨0, by omega, hs⟩
        · split
          · obtain ⟨k, hk, hs'⟩ := scriptChanged_takes (d := d) hK _ _ _ _ _ (hs.sound hm)
            exact ⟨k, hk, (hs.trans hs').cast (by omega)⟩
          · exact ⟨0, by omega, hs⟩
          · exact ⟨0, by omega, hs⟩

/-! ### Operations and runs -/

/-- The key of a script that was observed elsewhere may be stored. -/
def Operation.Admitted (K : String → Prop) : Operation → Prop
  | .addObserved o _ => K o.path
  | _ => True

theorem admitted_true (run : List (Disk × Operation)) : ∀ x ∈ run, x.2.Admitted fun _ => True := by
  intro x _
  cases x.2 <;> trivial

/-- In every operation, a text is stored at most once under a key that may have had one. -/
theorem Operation.steps (hK : AdmitsAll K) {op : Operation} (hop : op.Admitted K) (d : Disk) {h : Host σ}
    (hm : h.memo.Sound) : ∃ k ≤ 1, Steps K d h (op.next d h) k := by
  have free : ∀ {α : Type} {x : Action σ α}, Takes K d 0 x → ∃ k ≤ 1, Steps K d h (x d h).2 k :=
    fun hx => hx.weaken (Nat.zero_le 1) h hm
  cases op with
  | identify path origin => exact free (identify_takes path origin)
  | observe path origin given => exact free (observe_takes path origin given)
  | addFile r => exact addFile_takes hK r h hm
  | getFile r => exact getFile_takes hK r h hm
  | addObserved o withImports => exact addObserved_takes hK hop withImports h hm
  | parsedUnit key => exact free (parsedUnit_takes key)
  | refreshDeclarations name => exact refreshDeclarations_takes hK name h hm
  | removeFile name => exact free (removeFile_takes name)
  | fileVersion name => exact free (fileVersion_takes name)
  | fileRecord name => exact free (fileRecord_takes name)
  | importsOfContent source origin => exact free (importsOfContent_takes source origin)
  | importsOfFile name => exact free (importsOfFile_takes name)
  | expandClosure path origin => exact expandClosure_takes hK path origin h hm
  | askAbout t name offset => exact free ((engineName_takes name).bind fun key => .of_step fun h => .ask t key offset h)
  | askAt t key offset => exact free (.of_step fun h => .ask t key offset h)
  | setOptions options => exact free (setOptions_takes options)
  | exclude patterns => exact free (exclude_takes patterns)
  | applyEvent trackNew event =>
    cases event with
    | created path => exact fileChanged_steps hK path trackNew hm
    | modified path => exact fileChanged_steps hK path false hm
    | removed path => exact fileRemoved_takes hK path h hm
    | flushed => exact ⟨0, by omega, .refl h⟩

/-- What every step keeps is kept by a run, where `I` may be about the number of texts stored so far. -/
theorem after_keeps {I : Nat → Host σ → Prop} (hK : AdmitsAll K)
    (hstep : ∀ {d n k} {h h' : Host σ}, Step K d h h' k → I n h → I (n + k) h')
    (hmono : ∀ {m n} {h : Host σ}, m ≤ n → I m h → I n h) {run : List (Disk × Operation)}
    (hrun : ∀ x ∈ run, x.2.Admitted K) {n : Nat} {h : Host σ} (hm : h.memo.Sound) (hI : I n h) :
    I (n + run.length) (h.after run) := by
  induction run generalizing n h with
  | nil => exact hI
  | cons x run ih =>
    obtain ⟨d, op⟩ := x
    obtain ⟨hop, hrest⟩ := List.forall_mem_cons.1 hrun
    obtain ⟨k, hk, hs⟩ := Operation.steps hK hop d hm
    have hnext : I (n + 1) (op.next d h) := hmono (by omega) (hs.keeps hstep hI)
    have := ih hrest (hs.sound hm) hnext
    rwa [Nat.add_assoc, Nat.add_comm 1] at this

theorem sound_after {h : Host σ} (hm : h.memo.Sound) (run : List (Disk × Operation)) : (h.after run).memo.Sound :=
  after_keeps (I := fun _ h => h.memo.Sound) admitsAll_true (fun step => step.learned.sound) (fun _ => id)
    (admitted_true run) (n := 0) hm hm

theorem tools_after {h : Host σ} (hm : h.memo.Sound) (run : List (Disk × Operation)) :
    (h.after run).tools = h.tools :=
  after_keeps (I := fun _ h' => h'.tools = h.tools) admitsAll_true (fun step ht => step.tools.trans ht) (fun _ => id)
    (admitted_true run) (n := 0) hm rfl

theorem Unused.sound {h : Host σ} (hu : h.Unused) : h.memo.Sound := hu.memo ▸ Memo.sound_empty

theorem Reachable.sound {h : Host σ} (hr : h.Reachable) : h.memo.Sound := by
  obtain ⟨h₀, run, hu, rfl⟩ := hr
  exact sound_after hu.sound run

end ScriptHost.Host
