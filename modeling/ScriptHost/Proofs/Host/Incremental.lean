import ScriptHost.Proofs.Analysis.Reading
import ScriptHost.Proofs.Host.Record
import ScriptHost.Resolution.Lookup

/-!
# Incremental analysis

The syntax engine reads a script again only when its version has changed.  That is enough although versions start at 1
again after a removal, and although a merge shows texts of version 0 for a time: what the engine remembers of a script
is never newer than the record, and if it is of the same version, it has been read from that record (`UpToDate`).  Every
step keeps this, so the answers after any run are those of an engine that has read nothing
(`answers_eq_fresh_after`).
-/

namespace ScriptHost

open ScriptHost.Analysis

/-- The script that is read from a record. -/
def Record.parsed (key : String) (r : Record) : ParsedScript := ParsedScript.read key r.version r.content

namespace Host

/-- What is remembered of a script is not newer than its record, and was read from it if it is of the same version. -/
structure UpToDate (n : Nat) (h : Host SyntaxEngine) : Prop where
  engine : h.tools.engine = SyntaxEngine.engine
  numbered : Numbered n h.store
  remembered : ∀ {key script}, h.engineState.scripts.get? key = some script → ∃ r, h.store.get? key = some r ∧
    script.unit.version.toInt ≤ r.version.toInt ∧ (script.unit.version = r.version → script = Record.parsed key r)

/-- An engine that is shown a store reads the scripts that are stored. -/
theorem script?_viewOf {n : Nat} {s : Store} (hs : Numbered n s) (key : String) :
    (viewOf s).script? key = (s.get? key).map (Record.parsed key) := by
  unfold ScriptView.script?
  show (if s.version key = untracked then none else _) = _
  cases hr : s.get? key with
  | none =>
    have : s.version key = untracked := by rw [Store.version, hr]; rfl
    rw [if_pos this]
    rfl
  | some r =>
    have hv : s.version key = r.version := by rw [Store.version, hr]; rfl
    rw [if_neg (by rw [hv]; exact hs.version_ne_untracked hr)]
    simp only [viewOf, hr, hv, Option.map_some, Record.parsed]

/-! ### Questions -/

/-- The answer to a question depends on nothing but the scripts. -/
private theorem Topic.settled (t : Topic) (view : ScriptView) (key : String) (offset : Nat) :
    SyntaxEngine.Settled view (t.question SyntaxEngine.engine view key offset) := by
  cases t with
  | definitions => exact .definitionsAt view key offset
  | typeDefinitions => exact .typeDefinitionsAt view key offset
  | references => exact .referencesAt view key offset
  | implementations => exact .implementationsAt view key offset
  | quickInfo => exact .quickInfoAt view key offset

namespace UpToDate

variable {n : Nat} {h : Host SyntaxEngine} {K : String → Prop} {d : Disk}

theorem consistent (hu : UpToDate n h) : SyntaxEngine.Consistent (viewOf h.store) h.engineState := by
  intro key script hscript _ hversion
  obtain ⟨r, hr, -, hsame⟩ := hu.remembered hscript
  have hv : (viewOf h.store).version key = r.version := by
    show h.store.version key = r.version
    rw [Store.version, hr]
    rfl
  rw [script?_viewOf hu.numbered, hr, Option.map_some, hsame (hversion.trans hv)]

theorem mono {m : Nat} (hmn : m ≤ n) (hu : UpToDate m h) : UpToDate n h :=
  ⟨hu.engine, hu.numbered.mono hmn, hu.remembered⟩

private theorem refreshed {e : SyntaxEngine} (hu : UpToDate n h)
    (hr : SyntaxEngine.Refreshed (viewOf h.store) h.engineState e) : UpToDate n { h with engineState := e } := by
  refine ⟨hu.engine, hu.numbered, fun {key script} hscript => ?_⟩
  rcases hr key script hscript with hold | hnew
  · exact hu.remembered hold
  · rw [script?_viewOf hu.numbered, Option.map_eq_some_iff] at hnew
    obtain ⟨r, hget, rfl⟩ := hnew
    exact ⟨r, hget, Int.le_refl _, fun _ => rfl⟩

/-! ### Steps -/

private theorem read (hu : UpToDate n h) (key : String) :
    UpToDate n ((Action.ask fun engine view => engine.sourceFile view key : Action SyntaxEngine _) d h).2 := by
  rw [Action.ask_run, hu.engine]
  exact hu.refreshed ((SyntaxEngine.Settled.sourceFile _ key).refreshed hu.consistent)

private theorem ask (hu : UpToDate n h) (t : Topic) (key : String) (offset : Nat) :
    UpToDate n (askAt t.question key offset d h).2 := by
  rw [askAt, Action.ask_run, hu.engine]
  exact hu.refreshed ((t.settled _ key offset).refreshed hu.consistent)

private theorem readPair (hu : UpToDate n h) (compiled compiledRaw shim declarations : String) :
    UpToDate n (readPair compiled compiledRaw shim declarations d h).2 := by
  have hstep : Step (fun _ => True) d h (Host.readPair compiled compiledRaw shim declarations d h).2 0 := .readPair ..
  refine ⟨hstep.tools ▸ hu.engine, fun key r hr => ?_, fun {key script} hscript => ?_⟩
  · -- a record that is there was there before
    rw [readPair_run] at hr
    change (returnedStore h.store compiled compiledRaw shim declarations).get? key = some r at hr
    rw [get?_returnedStore] at hr
    split at hr
    · cases hr
    · exact hu.numbered key r hr
  · rw [readPair_run, hu.engine] at hscript ⊢
    simp only [releaseBoth, readBoth, SyntaxEngine.sourceFile_run, SyntaxEngine.scripts_release, Table.get?_erase]
      at hscript
    -- both scripts are released after they have been read, so the key is that of a third one
    split at hscript
    · cases hscript
    · rename_i hshim
      split at hscript
      · cases hscript
      · rename_i hcompiled
        rw [SyntaxEngine.get?_ensure_of_ne _ hshim, SyntaxEngine.get?_ensure_of_ne _ hcompiled] at hscript
        simp only [SyntaxEngine.scripts_release, Table.get?_erase, if_neg hshim, if_neg hcompiled] at hscript
        obtain ⟨r, hr, hle, hsame⟩ := hu.remembered hscript
        refine ⟨r, ?_, hle, hsame⟩
        show (returnedStore h.store compiled compiledRaw shim declarations).get? key = some r
        rw [get?_returnedStore, if_neg (fun hk => hshim hk.1)]
        exact hr

/-- A text that is stored is of a version that is newer than all that is remembered. -/
private theorem commit (hu : UpToDate n h) (hn : n + 2 < 2 ^ 63) (path raw content : String) {key : String}
    {script : ParsedScript} (hscript : h.engineState.scripts.get? key = some script) :
    ∃ r, (h.store.commit path raw content).get? key = some r ∧ script.unit.version.toInt ≤ r.version.toInt ∧
      (script.unit.version = r.version → script = Record.parsed key r) := by
  obtain ⟨r, hr, hle, hsame⟩ := hu.remembered hscript
  rw [Store.get?_commit]
  split
  · rename_i hkey
    subst hkey
    -- the new version is greater than the old one, and that is not less than what is remembered
    have hnext := hu.numbered.toInt_nextVersion hr hn
    refine ⟨_, rfl, ?_, fun hv => ?_⟩
    · show _ ≤ (h.store.nextVersion key).toInt
      omega
    · have : script.unit.version.toInt = (h.store.nextVersion key).toInt := congrArg Int64.toInt hv
      omega
  · exact ⟨r, hr, hle, hsame⟩

private theorem of_step {h' : Host SyntaxEngine} {k : Nat} (hs : Step K d h h' k) (hn : n + k + 1 < 2 ^ 63)
    (hu : UpToDate n h) : UpToDate (n + k) h' := by
  have hnumbered := Numbered.of_step hs hn hu.numbered
  cases hs with
  | identify path origin => exact ⟨hu.engine, hu.numbered, hu.remembered⟩
  | choose exclusions settings => exact ⟨hu.engine, hu.numbered, hu.remembered⟩
  | read key => exact hu.read key
  | ask t key offset => exact hu.ask t key offset
  | readPair compiled compiledRaw shim declarations => exact hu.readPair ..
  | track path raw content _ hk hnew =>
    -- nothing is remembered of a script that is not tracked
    refine ⟨hu.engine, hnumbered, fun {key script} hscript => ?_⟩
    obtain ⟨r, hr, hle, hsame⟩ := hu.remembered hscript
    refine ⟨r, ?_, hle, hsame⟩
    have hne : key ≠ path := by
      rintro rfl
      rw [hnew] at hr
      cases hr
    simpa [Store.get?_commit, hne] using hr
  | commit path raw content _ hk => exact ⟨hu.engine, hnumbered, hu.commit (by omega) path raw content⟩
  | drop path =>
    refine ⟨hu.engine, hnumbered, fun {key script} hscript => ?_⟩
    rw [hu.engine, SyntaxEngine.scripts_release, Table.get?_erase] at hscript
    split at hscript
    · cases hscript
    · rename_i hne
      simpa [hne] using hu.remembered hscript

theorem of_steps {h' : Host SyntaxEngine} {k : Nat} (hs : Steps K d h h' k) (hn : n + k + 1 < 2 ^ 63)
    (hu : UpToDate n h) : UpToDate (n + k) h' :=
  hs.keeps (I := fun n h => n + 1 < 2 ^ 63 → UpToDate n h) (fun step hh hk => of_step step hk (hh (by omega)))
    (fun _ => hu) hn

theorem of_takes {α : Type} {x : Action SyntaxEngine α} {m : Nat} (hx : Takes K d m x) (hm : h.memo.Sound)
    (hn : n + m + 1 < 2 ^ 63) (hu : UpToDate n h) : UpToDate (n + m) (x d h).2 := by
  obtain ⟨k, hk, hs⟩ := hx h hm
  exact (of_steps hs (by omega) hu).mono (by omega)

/-! ### Answers -/

theorem sourceFile_eq (hu : UpToDate n h) (key : String) :
    (h.tools.engine.sourceFile (viewOf h.store) key h.engineState).1 =
      (h.store.get? key).map fun r => (Record.parsed key r).unit := by
  rw [hu.engine, SyntaxEngine.sourceFile_run, SyntaxEngine.ensure_answer hu.consistent, script?_viewOf hu.numbered,
    Option.map_map]
  rfl

private theorem question_eq (hu : UpToDate n h) (t : Topic) (key : String) (offset : Nat) :
    (t.question h.tools.engine (viewOf h.store) key offset h.engineState).1 =
      (t.question SyntaxEngine.engine (viewOf h.store) key offset .fresh).1 := by
  rw [hu.engine]
  exact (t.settled _ key offset).answer_eq_fresh hu.consistent

end UpToDate

/-- A unit is what is read from the record of a key. -/
def Current (s : Store) (key : String) (u : SourceUnit) : Prop :=
  ∃ r, s.get? key = some r ∧ u = (Record.parsed key r).unit

/-- On a disk, whatever the host answers next is what an engine that has read nothing answers, and units are those of
the records. -/
structure AnswersAnew (d : Disk) (h : Host SyntaxEngine) : Prop where
  sourceFile : ∀ key, (h.tools.engine.sourceFile (viewOf h.store) key h.engineState).1 =
    (SyntaxEngine.engine.sourceFile (viewOf h.store) key .fresh).1
  stored : ∀ key, (h.tools.engine.sourceFile (viewOf h.store) key h.engineState).1 =
    (h.store.get? key).map fun r => (Record.parsed key r).unit
  askAt : ∀ (t : Topic) key offset, (askAt t.question key offset d h).1 =
    .ok (t.question SyntaxEngine.engine (viewOf h.store) key offset .fresh).1
  askAbout : ∀ (t : Topic) name offset, (askAbout t.question name offset d h).1 =
    (engineName name d h).1.map fun key => (t.question SyntaxEngine.engine (viewOf h.store) key offset .fresh).1
  parsedUnit : ∀ {key u h'}, parsedUnit key d h = (.ok u, h') → Current h'.store key u
  addObserved : ∀ {o withImports u h'}, addObserved o withImports d h = (.ok u, h') → Current h'.store o.path u
  addFile : ∀ {r u h'}, addFile r d h = (.ok u, h') →
    ∃ o h₁, observe r.path r.origin r.content d h = (.ok o, h₁) ∧ Current h'.store o.path u
  getFile : ∀ {r u h'}, getFile r d h = (.ok u, h') →
    ∃ o h₁, observe r.path r.origin r.content d h = (.ok o, h₁) ∧ Current h'.store o.path u

/-- Names are looked up without a change of the store. -/
private theorem engineName_store {σ : Type} (name : String) (d : Disk) (h : Host σ) :
    (engineName name d h).2.store = h.store := by
  unfold engineName
  rw [Action.bind_host_run]
  split
  · rfl
  · rcases hi : (identify name none : Action σ _) d h with ⟨e | i, h₁⟩
    · rw [Action.bind_run_of_error hi]
      exact congrArg (·.2.store) hi.symm
    · rw [Action.bind_run_of_ok hi]
      exact congrArg (·.2.store) hi.symm

namespace UpToDate

variable {n : Nat} {h h' : Host SyntaxEngine} {d : Disk} {u : SourceUnit}

private theorem current_of_read (hu : UpToDate n h) {key : String}
    (hread : (h.tools.engine.sourceFile (viewOf h.store) key h.engineState).1 = some u) : Current h.store key u := by
  rw [hu.sourceFile_eq, Option.map_eq_some_iff] at hread
  obtain ⟨r, hr, rfl⟩ := hread
  exact ⟨r, hr, rfl⟩

private theorem current_parsedUnit (hu : UpToDate n h) {key : String} (hp : parsedUnit key d h = (.ok u, h')) :
    Current h'.store key u := by
  obtain ⟨unit, h₁, hread, hp⟩ := Action.bind_eq_ok.1 hp
  rw [Action.ask_run] at hread
  obtain ⟨hunit, rfl⟩ := Prod.mk.inj hread
  cases unit with
  | none => cases hp
  | some v =>
    cases hp
    exact hu.current_of_read (Except.ok.inj hunit)

private theorem current_addObserved (hu : UpToDate n h) (hm : h.memo.Sound) (hn : n + 2 < 2 ^ 63) {o : Observation}
    {withImports : Bool} (ha : addObserved o withImports d h = (.ok u, h')) : Current h'.store o.path u := by
  obtain ⟨stored, h₁, hc, ha⟩ := Action.bind_eq_ok.1 ha
  have htakes : Takes (fun _ => True) d 1 (Host.commit o : Action SyntaxEngine _) := commit_takes trivial
  have hu₁ := hu.of_takes htakes hm (by omega)
  obtain ⟨k, -, hs⟩ := htakes h hm
  have hm₁ := hs.sound hm
  rw [hc] at hu₁ hm₁
  -- the unit is read last, after the imports have been followed or not
  cases stored with
  | false => exact hu₁.current_parsedUnit ha
  | true =>
    cases withImports with
    | false => exact hu₁.current_parsedUnit ha
    | true =>
      obtain ⟨graph, h₂, hw, ha⟩ := Action.bind_eq_ok.1 ha
      have hu₂ := hu₁.of_takes (walkImports_takes (d := d) admitsAll_true o) hm₁ (by omega)
      rw [hw] at hu₂
      exact hu₂.current_parsedUnit ha

private theorem observed (hu : UpToDate n h) (hm : h.memo.Sound) (hn : n + 1 < 2 ^ 63) {path : String}
    {origin given : Option String} {o : Observation} (ho : observe path origin given d h = (.ok o, h')) :
    UpToDate n h' ∧ h'.memo.Sound := by
  have htakes : Takes (fun _ => True) d 0 (observe path origin given : Action SyntaxEngine _) :=
    observe_takes path origin given
  have hu' := hu.of_takes htakes hm hn
  have hm' := (observe_quiet path origin given d h).sound hm
  rw [ho] at hu' hm'
  exact ⟨hu', hm'⟩

theorem answersAnew (hu : UpToDate n h) (hm : h.memo.Sound) (hn : n + 2 < 2 ^ 63) (d : Disk) : h.AnswersAnew d where
  sourceFile key := by
    rw [hu.engine]
    exact (SyntaxEngine.Settled.sourceFile _ key).answer_eq_fresh hu.consistent
  stored := hu.sourceFile_eq
  askAt t key offset := congrArg Except.ok (hu.question_eq t key offset)
  askAbout t name offset := by
    have hu' := hu.of_takes (K := fun _ => True) (engineName_takes (d := d) name) hm (by omega)
    have hstore := engineName_store name d h
    unfold Host.askAbout
    rcases hk : engineName name d h with ⟨e | key, h₁⟩ <;> rw [hk] at hu' hstore
    · rw [Action.bind_run_of_error hk]
      rfl
    · rw [Action.bind_run_of_ok hk, ← hstore]
      exact congrArg Except.ok (hu'.question_eq t key offset)
  parsedUnit hp := hu.current_parsedUnit hp
  addObserved ha := hu.current_addObserved hm hn ha
  addFile {r u h'} ha := by
    obtain ⟨o, h₁, ho, ha⟩ := Action.bind_eq_ok.1 ha
    obtain ⟨hu₁, hm₁⟩ := hu.observed hm (by omega) ho
    exact ⟨o, h₁, ho, hu₁.current_addObserved hm₁ hn ha⟩
  getFile {r u h'} hg := by
    obtain ⟨o, h₁, ho, hg⟩ := Action.bind_eq_ok.1 hg
    obtain ⟨hu₁, hm₁⟩ := hu.observed hm (by omega) ho
    refine ⟨o, h₁, ho, ?_⟩
    split at hg
    · exact hu₁.current_addObserved hm₁ hn hg
    · obtain ⟨unit, h₂, hread, hg⟩ := Action.bind_eq_ok.1 hg
      have hu₂ := hu₁.read (d := d) o.path
      rw [hread] at hu₂
      rw [Action.ask_run] at hread
      obtain ⟨hunit, rfl⟩ := Prod.mk.inj hread
      cases unit with
      | none => exact hu₂.current_addObserved hm₁ hn hg
      | some v =>
        cases hg
        exact hu₁.current_of_read (Except.ok.inj hunit)

end UpToDate

/-- What an unused engine remembers after a run is up to date. -/
theorem upToDate_after {h : Host SyntaxEngine} (hu : h.Unused) (he : h.tools.engine = SyntaxEngine.engine)
    (hs : h.engineState = .fresh) {run : List (Disk × Operation)} (hlen : run.length + 1 < 2 ^ 63) :
    UpToDate run.length (h.after run) := by
  have hstart : UpToDate 0 h := by
    refine ⟨he, numbered_of_unused hu, fun {key script} hscript => ?_⟩
    rw [hs] at hscript
    cases hscript
  have hafter := after_keeps (I := fun n h => n + 1 < 2 ^ 63 → UpToDate n h) admitsAll_true
    (fun step hh hn => .of_step step hn (hh (by omega))) (fun hmn hh hn => .mono hmn (hh (by omega)))
    (admitted_true run) (n := 0) hu.sound (fun _ => hstart)
  rw [Nat.zero_add] at hafter
  exact hafter hlen

/-- Incremental analysis gives what is found from scratch: after every run of a host that uses the syntax engine,
whatever has happened on the disk in between, all answers are those of an engine that has read nothing but the texts
that are stored now.  The bound on the length is there because versions are numbers of 64 bits, which start again after
that many texts. -/
theorem answers_eq_fresh_after {h : Host SyntaxEngine} (hu : h.Unused) (he : h.tools.engine = SyntaxEngine.engine)
    (hs : h.engineState = .fresh) {run : List (Disk × Operation)} (hlen : run.length + 2 < 2 ^ 63) (d : Disk) :
    (h.after run).AnswersAnew d :=
  (upToDate_after hu he hs (by omega)).answersAnew (sound_after hu.sound run) hlen d

/-- A text may be replaced by another of the same version. -/
theorem answers_eq_fresh_after_removal :
    ((fresh ⟨Resolution.nodeResolver, Merge.typePrelude, SyntaxEngine.engine⟩ .fresh "/r").after
      [(Disk.empty.write "/r/a.ts" (.text "let x = 1"), .addFile { path := "/r/a.ts" }),
        (Disk.empty, .removeFile "/r/a.ts"),
        (Disk.empty.write "/r/a.ts" (.text "let y = 2"), .addFile { path := "/r/a.ts" })]).AnswersAnew .empty :=
  answers_eq_fresh_after (unused_fresh ..) rfl rfl (by decide) .empty

end Host

end ScriptHost
