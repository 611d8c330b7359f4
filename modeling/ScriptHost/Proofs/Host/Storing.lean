import ScriptHost.Proofs.Host.Closure
import ScriptHost.Proofs.Host.Watch

/-!
# Storing texts

Unless a script is dropped, a host leaves the record of a key as it is, stores the first text under it, or
replaces its text by one with the next number (`Progress`); a walk over imports does not even replace texts (`Onset`).
If an action fails before it has stored anything, every record is as before.  `Commits` says both of an action, and
`Tracks` says the same of what may follow it.  They hold of sequences if they hold of their parts (`Commits.bind`,
`Tracks.bind`).
-/

namespace ScriptHost

/-- The errors with which an operation fails before it has stored anything. -/
def HostError.Early : HostError → Prop
  | resolution _ | load _ | rejected _ | missingStatements _ => True
  | config _ | engineUnavailable _ | unfinished => False

namespace Host

open ScriptHost.Analysis ScriptHost.Path

variable {σ α β : Type} {d : Disk}

/-! ### Records -/

/-- A record stays, or it is the first one under its key. -/
inductive Onset : Option Record → Option Record → Prop where
  | kept (r : Option Record) : Onset r r
  | first (content raw : String) : Onset none (some ⟨1, content, raw⟩)

/-- A record stays, is the first one under its key, or has the number after that of the one before. -/
inductive Progress : Option Record → Option Record → Prop where
  | kept (r : Option Record) : Progress r r
  | first (content raw : String) : Progress none (some ⟨1, content, raw⟩)
  | next (r : Record) (content raw : String) : Progress (some r) (some ⟨r.version + 1, content, raw⟩)

private theorem Onset.of_eq {old new : Option Record} (heq : new = old) : Onset old new := heq ▸ .kept new

private theorem Onset.progress {old new : Option Record} (ho : Onset old new) : Progress old new := by
  cases ho with
  | kept => exact .kept old
  | first content raw => exact .first content raw

theorem Progress.of_eq {old new : Option Record} (heq : new = old) : Progress old new := heq ▸ .kept new

private theorem Onset.trans {r₁ r₂ r₃ : Option Record} (ho : Onset r₁ r₂) (ho' : Onset r₂ r₃) : Onset r₁ r₃ := by
  cases ho with
  | kept => exact ho'
  | first content raw =>
    cases ho' with
    | kept => exact .first content raw

private theorem Progress.trans {r₁ r₂ r₃ : Option Record} (hp : Progress r₁ r₂) (ho : Onset r₂ r₃) :
    Progress r₁ r₃ := by
  cases ho with
  | kept => exact hp
  | first content raw =>
    cases hp with
    | kept => exact .first content raw

private theorem progress_commit (s : Store) (path raw content key : String) :
    Progress (s.get? key) ((s.commit path raw content).get? key) := by
  rw [Store.get?_commit]
  split
  · rename_i hkey
    subst hkey
    unfold Store.nextVersion
    cases s.get? key with
    | none => exact .first content raw
    | some r => exact .next r content raw
  · exact .kept _

/-! ### Actions -/

/-- An action stores at most the first text under a key, and it does not fail early. -/
structure Tracks (d : Disk) (x : Action σ α) : Prop where
  sound : x.Keeps d fun h => h.memo.Sound
  onset : ∀ {h}, h.memo.Sound → ∀ key, Onset (h.store.get? key) ((x d h).2.store.get? key)
  late : ∀ {h e}, h.memo.Sound → (x d h).1 = .error e → ¬ e.Early

/-- An action stores at most one text under a key, the first or the next one, and if it fails early it stores none. -/
structure Commits (d : Disk) (x : Action σ α) : Prop where
  sound : x.Keeps d fun h => h.memo.Sound
  progress : ∀ {h}, h.memo.Sound → ∀ key, Progress (h.store.get? key) ((x d h).2.store.get? key)
  spares : ∀ {h e}, h.memo.Sound → (x d h).1 = .error e → e.Early →
    ∀ key, (x d h).2.store.get? key = h.store.get? key

namespace Tracks

private theorem of_quiet {x : Action σ α} (hq : ∀ h, Quiet d h (x d h).2)
    (hlate : ∀ {h e}, (x d h).1 = .error e → ¬ e.Early) : Tracks d x where
  sound h := (hq h).sound
  onset _ key := .of_eq ((hq _).store key)
  late _ := hlate

private theorem pure (a : α) : Tracks d (Pure.pure a : Action σ α) := of_quiet (fun h => .refl d h) (by simp)

private theorem of_unchanged {x : Action σ α} (hx : ∀ h, (x d h).2.memo = h.memo ∧ (x d h).2.store = h.store)
    (hlate : ∀ {h e}, (x d h).1 = .error e → ¬ e.Early) : Tracks d x where
  sound h hm := by
    show (x d h).2.memo.Sound
    rw [(hx h).1]
    exact hm
  onset _ key := .of_eq (by rw [(hx _).2])
  late _ := hlate

theorem bind {x : Action σ α} {f : α → Action σ β} (hx : Tracks d x) (hf : ∀ a, Tracks d (f a)) :
    Tracks d (x >>= f) where
  sound := hx.sound.bind fun a => (hf a).sound
  onset {h} hm key := by
    have hm₁ := hx.sound h hm
    have ho := hx.onset hm key
    rcases hxd : x d h with ⟨e | a, h₁⟩ <;> rw [hxd] at hm₁ ho
    · rwa [Action.bind_run_of_error hxd]
    · rw [Action.bind_run_of_ok hxd]
      exact ho.trans ((hf a).onset hm₁ key)
  late {h e} hm he := by
    have hm₁ := hx.sound h hm
    rcases hxd : x d h with ⟨e' | a, h₁⟩ <;> rw [hxd] at hm₁
    · rw [Action.bind_run_of_error hxd] at he
      cases he
      exact hx.late hm (congrArg Prod.fst hxd)
    · rw [Action.bind_run_of_ok hxd] at he
      exact (hf a).late hm₁ he

private theorem bind_host {f : Host σ → Action σ β} (hf : ∀ h, Tracks d (f h)) : Tracks d (Action.host >>= f) where
  sound h hm := (hf h).sound h hm
  onset {h} hm key := (hf h).onset hm key
  late {h _} hm he := (hf h).late hm he

theorem commits {x : Action σ α} (hx : Tracks d x) : Commits d x where
  sound := hx.sound
  progress hm key := (hx.onset hm key).progress
  spares hm he hearly := absurd hearly (hx.late hm he)

end Tracks

namespace Commits

private theorem of_quiet {x : Action σ α} (hq : ∀ h, Quiet d h (x d h).2) : Commits d x where
  sound h := (hq h).sound
  progress _ key := .of_eq ((hq _).store key)
  spares _ _ _ key := (hq _).store key

private theorem pure (a : α) : Commits d (Pure.pure a : Action σ α) := of_quiet fun h => .refl d h

/-- What follows a commit must not fail early. -/
theorem bind {x : Action σ α} {f : α → Action σ β} (hx : Commits d x) (hf : ∀ a, Tracks d (f a)) :
    Commits d (x >>= f) where
  sound := hx.sound.bind fun a => (hf a).sound
  progress {h} hm key := by
    have hm₁ := hx.sound h hm
    have hp := hx.progress hm key
    rcases hxd : x d h with ⟨e | a, h₁⟩ <;> rw [hxd] at hm₁ hp
    · rwa [Action.bind_run_of_error hxd]
    · rw [Action.bind_run_of_ok hxd]
      exact hp.trans ((hf a).onset hm₁ key)
  spares {h e} hm he hearly key := by
    have hm₁ := hx.sound h hm
    rcases hxd : x d h with ⟨e' | a, h₁⟩ <;> rw [hxd] at hm₁
    · rw [Action.bind_run_of_error hxd] at he ⊢
      cases he
      have hsame := hx.spares hm (congrArg Prod.fst hxd) hearly key
      rwa [hxd] at hsame
    · rw [Action.bind_run_of_ok hxd] at he
      exact absurd hearly ((hf a).late hm₁ he)

private theorem bind_host {f : Host σ → Action σ β} (hf : ∀ h, Commits d (f h)) : Commits d (Action.host >>= f) where
  sound h hm := (hf h).sound h hm
  progress {h} hm key := (hf h).progress hm key
  spares {h _} hm he hearly key := (hf h).spares hm he hearly key

/-- What is looked up goes on to a second part that may rely on it. -/
private theorem quiet_bind {x : Action σ α} {f : α → Action σ β} (hx : ∀ h, h.memo.Sound → Quiet d h (x d h).2)
    (hf : ∀ h a h₁, h.memo.Sound → x d h = (.ok a, h₁) → Commits d (f a)) : Commits d (x >>= f) where
  sound := by
    refine Action.Keeps.bind_of_ok (fun h hm => (hx h hm).sound hm) fun h a h₁ hm hxd hm₁ => ?_
    exact (hf h a h₁ hm hxd).sound h₁ hm₁
  progress {h} hm key := by
    have hq := hx h hm
    rcases hxd : x d h with ⟨e | a, h₁⟩ <;> rw [hxd] at hq
    · rw [Action.bind_run_of_error hxd]
      exact .of_eq (hq.store key)
    · rw [Action.bind_run_of_ok hxd, ← hq.store]
      exact (hf h a h₁ hm hxd).progress (hq.sound hm) key
  spares {h e} hm he hearly key := by
    have hq := hx h hm
    rcases hxd : x d h with ⟨e' | a, h₁⟩ <;> rw [hxd] at hq
    · rw [Action.bind_run_of_error hxd]
      exact hq.store key
    · rw [Action.bind_run_of_ok hxd] at he ⊢
      rw [← hq.store]
      exact (hf h a h₁ hm hxd).spares (hq.sound hm) he hearly key

end Commits

/-! ### Walks -/

/-- After meetings, a record is as before, or it is the first one for a key that was not known. -/
theorem recordAfter_onset (d : Disk) (known : List String) (s : Store) (meetings : List (Meeting σ)) (key : String) :
    Onset (s.get? key) (recordAfter d known s meetings key) ∧
      (key ∈ known → recordAfter d known s meetings key = s.get? key) := by
  unfold recordAfter
  cases s.get? key with
  | some r => exact ⟨.kept _, fun _ => rfl⟩
  | none =>
    rw [Option.none_or]
    cases hx : (discovered d known meetings).find? (·.1.normalized == key) with
    | none => exact ⟨.kept none, fun _ => rfl⟩
    | some x =>
      have hmem := List.mem_of_find?_eq_some hx
      have hkey : x.1.normalized = key := by simpa using List.find?_some hx
      obtain ⟨m, -, -, hr⟩ := exists_meeting_of_discovered hmem
      obtain ⟨-, text, content, -, -, hr⟩ := Meeting.record?_eq_some_iff.1 hr
      refine ⟨?_, fun hknown => absurd (hkey ▸ hknown) (not_mem_of_discovered hmem)⟩
      rw [Option.map_some, hr]
      exact .first content text

/-- A walk stores at most the first text under a key, and none under a key that has been met before, whether it is
given up or not. -/
theorem walk_tracks (limit : Nat) (w : Walk) :
    Tracks d (walk limit w : Action σ _) ∧
      ∀ {h : Host σ}, h.memo.Sound → ∀ key ∈ w.visited, (walk limit w d h).2.store.get? key = h.store.get? key := by
  induction limit, w using walk_induction with
  | done limit graph visited =>
    rw [walk_nil]
    exact ⟨.pure graph, fun _ _ _ => rfl⟩
  | givenUp graph visited x queue =>
    exact ⟨.of_quiet (fun h => .refl d h) (by rintro h e ⟨⟩; exact id), fun _ _ _ => rfl⟩
  | visit limit graph visited script text queue ih =>
    -- the visit of one script, and the rest of the walk after it
    have hstep : ∀ {h : Host σ}, h.memo.Sound → ∃ w' h₂, h₂.memo.Sound ∧
        walk (limit + 1) ⟨graph, visited, (script, text) :: queue⟩ d h = walk limit w' d h₂ ∧
        ∀ key, Onset (h.store.get? key) (h₂.store.get? key) ∧
          (key ∈ visited → h₂.store.get? key = h.store.get? key ∧ key ∈ w'.visited) := by
      intro h hm
      obtain ⟨h₁, ms, w', h₂, hleg⟩ := exists_leg (d := d) script text ⟨graph, visited, queue⟩ hm
      refine ⟨w', h₂, hleg.sound hm, hleg.next limit, fun key => ?_⟩
      obtain ⟨honset, hsame⟩ := recordAfter_onset d visited h₁.store ms key
      rw [hleg.round.trail.reached.record, ← hleg.quiet.store]
      exact ⟨honset, fun hkey => ⟨hsame hkey, hleg.round.visited ▸ mem_knownAfter_iff.2 (.inl hkey)⟩⟩
    refine ⟨⟨fun h hm => ?_, fun {h} hm key => ?_, fun {h e} hm he => ?_⟩, fun {h} hm key hkey => ?_⟩
      <;> obtain ⟨w', h₂, hm₂, hrun, hrecord⟩ := hstep hm
    · show (walk _ _ d h).2.memo.Sound
      rw [hrun]
      exact (ih w').1.sound h₂ hm₂
    · rw [hrun]
      exact (hrecord key).1.trans ((ih w').1.onset hm₂ key)
    · rw [hrun] at he
      exact (ih w').1.late hm₂ he
    · rw [hrun, (ih w').2 hm₂ key ((hrecord key).2 hkey).2, ((hrecord key).2 hkey).1]

private theorem walkImports_tracks (o : Observation) : Tracks d (walkImports o : Action σ _) :=
  .bind_host fun _ => (walk_tracks _ _).1

/-! ### Tracked scripts -/

theorem commit_of_error {o : Observation} (ho : o.Apart d) {h h₁ : Host σ} {e : HostError} (hm : h.memo.Sound)
    (hc : commit o d h = (.error e, h₁)) (key : String) :
    h₁.store.get? key = h.store.get? key := by
  have hrecord := get?_commit ho hm key
  have hanswer := commit_answer o d h
  rw [hc] at hrecord hanswer
  cases hr : o.record? d h with
  | none => simpa [hr] using hrecord
  | some r =>
    rw [hr] at hanswer
    cases hanswer

private theorem commit_commits {o : Observation} (ho : o.needsUpdate = true → o.Apart d) :
    Commits d (commit o : Action σ _) := by
  by_cases hn : o.needsUpdate = true
  case neg =>
    rw [show (commit o : Action σ _) = pure false from
      funext₂ fun d h => commit_of_not_news (Bool.eq_false_iff.2 hn) d h]
    exact (Tracks.pure false).commits
  replace ho := ho hn
  refine ⟨fun h hm => (commit_onward ho hm).sound hm, fun {h} hm key => ?_, fun {h e} hm he _ => ?_⟩
  · rw [get?_commit ho hm]
    cases hr : o.record? d h with
    | none => exact .of_eq (by simp)
    | some r =>
      obtain ⟨-, content, -, rfl⟩ := record?_eq_some_iff.1 hr
      rw [Option.some_or, ← Store.get?_commit]
      exact progress_commit ..
  · exact commit_of_error ho hm (Action.run_of_answer he)

private theorem parsedUnit_tracks (key : String) : Tracks d (parsedUnit key : Action σ _) := by
  refine .of_quiet (parsedUnit_quiet key d) fun {h e} he => ?_
  unfold parsedUnit at he
  rw [Action.bind_run_of_ok (Action.ask_run ..)] at he
  revert he
  cases (h.tools.engine.sourceFile (viewOf h.store) key h.engineState).1 with
  | none => rintro ⟨⟩; exact id
  | some u => rintro ⟨⟩

theorem addObserved_commits {o : Observation} (ho : o.needsUpdate = true → o.Apart d) (withImports : Bool) :
    Commits d (addObserved o withImports : Action σ _) := by
  refine (commit_commits ho).bind fun stored => ?_
  cases stored with
  | false => exact parsedUnit_tracks o.path
  | true =>
    cases withImports with
    | false => exact parsedUnit_tracks o.path
    | true => exact (walkImports_tracks o).bind fun _ => parsedUnit_tracks o.path

private theorem observe_bind_commits {path : String} {origin given : Option String} {f : Observation → Action σ β}
    (hf : ∀ o, o.Apart d → Commits d (f o)) : Commits d (observe path origin given >>= f) :=
  .quiet_bind (fun h _ => observe_quiet path origin given d h) fun _ _ _ hm ho =>
    hf _ (.of_wellFormed (wellFormed_of_observe hm ho) d)

theorem addFile_commits (r : Request) : Commits d (addFile r : Action σ _) :=
  observe_bind_commits fun _ ho => addObserved_commits (fun _ => ho) r.withImports

theorem getFile_commits (r : Request) : Commits d (getFile r : Action σ _) := by
  refine observe_bind_commits fun o ho => ?_
  split
  · exact addObserved_commits (fun _ => ho) r.withImports
  · refine .quiet_bind (fun h _ => .engineState d h _) fun _ unit _ _ _ => ?_
    cases unit with
    | none => exact addObserved_commits (fun _ => ho) r.withImports
    | some u => exact .pure u

theorem expandClosure_commits (path : String) (origin : Option String) :
    Commits d (expandClosure path origin : Action σ _) :=
  observe_bind_commits fun o ho => (commit_commits fun _ => ho).bind fun _ => walkImports_tracks o

theorem refreshDeclarations_commits (name : String) : Commits d (refreshDeclarations name : Action σ _) := by
  refine .quiet_bind (fun h _ => identify_quiet name none d h) fun _ i _ hm hi => ?_
  have hwf := wellFormed_of_identify hm hi
  refine .bind_host fun h => ?_
  split
  · exact .pure false
  · rename_i stored _
    refine .quiet_bind (fun h _ => observeIdentity_quiet i _ d h) fun _ o _ _ ho => ?_
    have hid := (observeIdentity_eq_ok.1 ho).2.2.1
    refine .quiet_bind (fun h hm => mergedContent_quiet (.of_wellFormed (hid ▸ hwf) d) hm) fun _ content _ _ _ => ?_
    split
    · exact .pure false
    · refine ⟨fun _ => id, fun {h} _ key => ?_, fun _ => nofun⟩
      exact progress_commit h.store o.path o.raw content key

/-! ### Lookups and options -/

private theorem fileVersion_tracks (name : String) : Tracks d (fileVersion name : Action σ _) := by
  refine .of_quiet (fileVersion_quiet name d) fun {h e} he => ?_
  obtain ⟨h₁, hv, -⟩ := fileVersion_run name d h
  rw [hv] at he
  cases he

theorem fileRecord_quiet (name : String) (d : Disk) (h : Host σ) : Quiet d h (fileRecord name d h).2 := by
  obtain ⟨h₁, hn, hl⟩ := knownName_run name d h
  unfold fileRecord
  rw [Action.bind_run_of_ok hn]
  exact hl.quiet

private theorem engineName_quiet (name : String) (d : Disk) (h : Host σ) : Quiet d h (engineName name d h).2 := by
  unfold engineName
  rw [Action.bind_host_run]
  split
  · exact .refl d h
  · exact Action.Keeps.bind (Quiet.keeps (identify_quiet name none d) h) (fun _ => .pure _) h (.refl d h)

theorem askAbout_quiet (t : Topic) (name : String) (offset : Nat) (d : Disk) (h : Host σ) :
    Quiet d h (askAbout t.question name offset d h).2 :=
  Action.Keeps.bind (Quiet.keeps (engineName_quiet name d) h) (fun _ => Quiet.keeps (fun h => .engineState d h _) h) h
    (.refl d h)

theorem importsOfContent_quiet (source origin : String) (d : Disk) (h : Host σ) :
    Quiet d h (importsOfContent source origin d h).2 := by
  obtain ⟨h₁, hi, hq, -⟩ := importsIn_run source origin d h
  unfold importsOfContent
  rw [Action.bind_run_of_ok hi]
  exact hq

theorem importsOfFile_quiet (name : String) (d : Disk) (h : Host σ) : Quiet d h (importsOfFile name d h).2 := by
  unfold importsOfFile
  rw [Action.bind_host_run]
  cases h.store.get? name with
  | some record => exact importsOfContent_quiet record.rawContent name d h
  | none =>
    exact Action.Keeps.bind (Quiet.keeps (observe_quiet name none none d) h)
      (fun o => Quiet.keeps (importsOfContent_quiet o.raw o.identity.resolved d) h) h (.refl d h)

private theorem addExclusions_tracks (add : Exclusions → String → Except Config.Error Exclusions)
    (patterns : List String) : Tracks d (addExclusions add patterns : Action σ _) := by
  induction patterns with
  | nil => exact .pure ()
  | cons pattern rest ih =>
    refine .bind_host fun h => Tracks.bind ?_ fun exclusions => ?_
    · refine .of_quiet (lift_quiet .config _ d) fun {h' e} he => ?_
      revert he
      cases add h.exclusions pattern with
      | error cause => rintro ⟨⟩; exact id
      | ok exclusions => rintro ⟨⟩
    · exact (Tracks.of_unchanged (fun _ => ⟨rfl, rfl⟩) (by rintro h e ⟨⟩)).bind fun _ => ih

theorem setOptions_tracks (options : Options) : Tracks d (setOptions options : Action σ _) := by
  refine (addExclusions_tracks ..).bind fun _ => (addExclusions_tracks ..).bind fun _ => ?_
  split
  · exact .of_unchanged (fun _ => ⟨rfl, rfl⟩) (by rintro h e ⟨⟩)
  · exact .pure ()

theorem exclude_tracks (patterns : List (Pattern.Program Char)) : Tracks d (exclude patterns : Action σ _) :=
  .of_unchanged (fun _ => ⟨rfl, rfl⟩) (by rintro h e ⟨⟩)

/-! ### Events -/

theorem declarationsChanged_commits (compiled : String) : Commits d (declarationsChanged compiled : Action σ _) := by
  refine .quiet_bind (fun h _ => fileVersion_quiet compiled d h) fun _ version _ _ _ => ?_
  split
  · exact .pure _
  · refine (refreshDeclarations_commits compiled).bind fun refreshed => ?_
    split
    · exact (fileVersion_tracks compiled).bind fun _ => .pure _
    · exact .pure _

theorem scriptChanged_commits (path name : String) (before : Version) (text : String) :
    Commits d (scriptChanged path name before text : Action σ _) := by
  refine (addFile_commits _).bind fun _ => (fileVersion_tracks name).bind fun version => ?_
  split <;> exact .pure _

end Host

end ScriptHost
