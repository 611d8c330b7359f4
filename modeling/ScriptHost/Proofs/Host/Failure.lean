import ScriptHost.Proofs.Host.Effect

/-!
# Failures

An operation that fails early leaves every record as it is, and a walk over imports passes over the scripts that cannot
be tracked (`failures_spare_records`).  Only a script that is known by the path of its own declarations, which no host
identifies, may lose its record (`not_failures_spare_records_of_every_operation`).
-/

namespace ScriptHost.Host

open ScriptHost.Analysis ScriptHost.Path

variable {σ : Type} {d : Disk}

/-! ### Imports that cannot be tracked -/

/-- A script cannot be tracked: its text cannot be seen, or it cannot be merged with its declarations. -/
def Untrackable (i : Identity) (d : Disk) (h : Host σ) : Prop :=
  (∃ e h₁, observeIdentity i none d h = (.error e, h₁)) ∨
    ∃ o h₁ e h₂, observeIdentity i none d h = (.ok o, h₁) ∧ commit o d h₁ = (.error e, h₂)

/-- A script that cannot be tracked is passed over, and no record is changed. -/
private theorem trackImport_of_untrackable {i : Identity} (hi : i.WellFormed) {h : Host σ} (hm : h.memo.Sound)
    (hu : Untrackable i d h) :
    ∃ h₁, trackImport i d h = (.ok none, h₁) ∧ h₁.memo.Sound ∧ ∀ key, h₁.store.get? key = h.store.get? key := by
  unfold trackImport
  rcases hu with ⟨e, h₁, ho⟩ | ⟨o, h₁, e, h₂, ho, hc⟩
  · have hq := observeIdentity_quiet i none d h
    rw [ho] at hq
    rw [Action.bind_attempt_run ho]
    exact ⟨h₁, rfl, hq.sound hm, hq.store⟩
  · obtain ⟨rfl, -, hid, -⟩ := observeIdentity_eq_ok.1 ho
    have hapart : o.Apart d := .of_wellFormed (hid ▸ hi) d
    have honward := commit_onward hapart hm
    rw [hc] at honward
    rw [Action.bind_attempt_run ho]
    refine ⟨h₂, ?_, honward.sound hm, commit_of_error hapart hm hc⟩
    show ((commit o).attempt >>= _) d h₁ = _
    rw [Action.bind_attempt_run hc]
    rfl

/-- The walk after an import that is passed over. -/
def Walk.pass (w : Walk) (importer : Identity) (raw : String) (i : Identity) : Walk :=
  ⟨w.graph.addImport importer.normalized (edgeTo raw i), i.normalized :: w.visited, w.queue⟩

/-- What happens to an import that cannot be tracked, where `rest` is to be followed after it. -/
structure PassedOver (importer : Identity) (raw : String) (i : Identity) (rest : List (String × Identity)) (w : Walk)
    (d : Disk) (h : Host σ) : Prop where
  /-- The walk goes on with the next import, and all records are as before. -/
  goes_on : ∃ h₁, followImports importer.normalized ((raw, i) :: rest) w d h =
      followImports importer.normalized rest (w.pass importer raw i) d h₁ ∧
    ∀ key, h₁.store.get? key = h.store.get? key
  /-- Until the walk ends, nothing is stored under the key of the import. -/
  stays : ∀ limit, ((followImports importer.normalized ((raw, i) :: rest) w >>= walk limit) d h).2.store.get?
    i.normalized = h.store.get? i.normalized

/-- Scripts that have been met before keep their records until a walk ends. -/
private theorem followImports_walk_keeps (importer : Identity) {imports : List (String × Identity)}
    (hwf : ∀ x ∈ imports, x.2.WellFormed) (w : Walk) (limit : Nat) {h : Host σ} (hm : h.memo.Sound) {key : String}
    (hkey : key ∈ w.visited) :
    ((followImports importer.normalized imports w >>= walk limit) d h).2.store.get? key = h.store.get? key := by
  obtain ⟨ms, w', h', hrun, hround⟩ := followImports_run (d := d) importer imports w hm hwf
  have hvisited : key ∈ w'.visited := hround.visited ▸ mem_knownAfter_iff.2 (.inl hkey)
  rw [Action.bind_run_of_ok hrun, (walk_tracks limit w').2 (hround.trail.reached.onward.sound hm) key hvisited,
    hround.trail.reached.record]
  exact (recordAfter_onset d w.visited h.store ms key).2 hkey

private theorem passedOver_of_untrackable (importer : Identity) (raw : String) {i : Identity} (hi : i.WellFormed)
    {rest : List (String × Identity)} (hrest : ∀ x ∈ rest, x.2.WellFormed) {w : Walk} {h : Host σ} (hm : h.memo.Sound)
    (hex : h.exclusions.excludes i.normalized = false) (hnew : w.visited.contains i.normalized = false)
    (hu : Untrackable i d h) : PassedOver importer raw i rest w d h := by
  obtain ⟨h₁, htrack, hm₁, hsame⟩ := trackImport_of_untrackable hi hm hu
  have hrun : followImports importer.normalized ((raw, i) :: rest) w d h =
      followImports importer.normalized rest (w.pass importer raw i) d h₁ :=
    followImports_of_passed hex hnew htrack
  refine ⟨⟨h₁, hrun, hsame⟩, fun limit => ?_⟩
  rw [Action.bind_run, hrun, ← Action.bind_run, ← hsame]
  exact followImports_walk_keeps importer hrest _ limit hm₁ List.mem_cons_self

/-! ### Operations that fail -/

/-- A failure changes no record.  If an operation fails because a path cannot be resolved, or a text cannot be loaded,
read or merged, every record is as before, whatever was put aside for a merge.  A walk over imports, at any time, passes
over a script that cannot be loaded or merged, and leaves the record under its key as it is to the end. -/
theorem failures_spare_records {h : Host σ} (hr : h.Reachable) (d : Disk) :
    (∀ {op : Operation} {e}, op.Apart d → op.failure? d h = some e → e.Early →
      ∀ key, (op.next d h).store.get? key = h.store.get? key) ∧
    ∀ {h₁ : Host σ} {importer i : Identity} {raw rest} {w : Walk}, h₁.memo.Sound → i.WellFormed →
      (∀ x ∈ rest, x.2.WellFormed) → h₁.exclusions.excludes i.normalized = false →
      w.visited.contains i.normalized = false → Untrackable i d h₁ → PassedOver importer raw i rest w d h₁ :=
  ⟨fun hop he hearly => (Operation.effect hop hr.sound).spares he hearly,
    fun hm hi hrest hex hnew hu => passedOver_of_untrackable _ _ hi hrest hm hex hnew hu⟩

/-- A script that nobody has identified may be known by the path of the shim of its own declarations.  If it cannot be
merged with them, the record under this path is lost. -/
theorem not_failures_spare_records_of_every_operation : ¬ ∀ (h : Host SyntaxEngine), h.Reachable →
    ∀ (op : Operation) d e, op.failure? d h = some e → e.Early →
      ∀ key, (op.next d h).store.get? key = h.store.get? key := by
  intro hall
  let d := (Disk.empty.write "/r/x.js" (.text "1")).write "/r/x.d.ts" (.text "interface A \x7b\x7d")
  let start := fresh ⟨Resolution.nodeResolver, Merge.typePrelude, SyntaxEngine.engine⟩ SyntaxEngine.fresh "/r"
  let run : List (Disk × Operation) := [(d, .addFile { path := "/r/x-temp.ts", content := some ")" })]
  let op : Operation := .addObserved ⟨⟨"/r/x.js", "/r/x-temp.ts", false⟩, "1", true⟩ false
  have hbefore : (start.after run).store.contains "/r/x-temp.ts" = true := by decide +kernel
  have hfailure : op.failure? d (start.after run) = some (.rejected "/r/x-temp.ts has a syntax error at byte 0") := by
    decide +kernel
  have hafter : (op.next d (start.after run)).store.contains "/r/x-temp.ts" = false := by decide +kernel
  have hsame := hall (start.after run) ⟨start, run, unused_fresh .., rfl⟩ op d _ hfailure trivial "/r/x-temp.ts"
  rw [Table.contains, hsame] at hafter
  exact absurd (hbefore.symm.trans hafter) (by decide)

/-- A compiled script cannot be merged because its declarations are no text. -/
theorem failures_spare_records_of_merge : ∃ (d : Disk) (h : Host SyntaxEngine),
    h.store.contains "/r/a.ts" = true ∧
    (Operation.addFile { path := "/r/c.js" }).failure? d h = some (.load (.notText "/r/c.d.ts")) ∧
    (∀ key, ((Operation.addFile { path := "/r/c.js" }).next d h).store.get? key = h.store.get? key) ∧
    PassedOver (.ofResolved "/r/a.ts") "./c.js" (.ofResolved "/r/c.js") []
      ⟨Imports.Graph.empty.addFile "/r/a.ts", ["/r/a.ts"], []⟩ d h := by
  let d := ((Disk.empty.write "/r/a.ts" (.text "import './c.js'")).write "/r/c.js" (.text "1")).write "/r/c.d.ts"
    .binary
  let start := fresh ⟨Resolution.nodeResolver, Merge.typePrelude, SyntaxEngine.engine⟩ SyntaxEngine.fresh "/r"
  let run : List (Disk × Operation) := [(d, .addFile { path := "/r/a.ts" })]
  have hr : (start.after run).Reachable := ⟨start, run, unused_fresh .., rfl⟩
  obtain ⟨hfails, hwalks⟩ := failures_spare_records hr d
  have hfailure : (Operation.addFile { path := "/r/c.js" }).failure? d (start.after run) =
      some (.load (.notText "/r/c.d.ts")) := by
    decide +kernel
  refine ⟨d, start.after run, by decide +kernel, hfailure, hfails trivial hfailure trivial, ?_⟩
  refine hwalks hr.sound (.ofResolved _) (by simp) (by decide +kernel) (by decide +kernel) (.inr ?_)
  -- the text of the script itself is seen
  have hobserve : observeIdentity (.ofResolved "/r/c.js") none d (start.after run) =
      (.ok ⟨.ofResolved "/r/c.js", "1", true⟩, start.after run) :=
    observeIdentity_eq_ok.2 ⟨rfl, by decide +kernel, rfl, by decide +kernel⟩
  have hcommit : (commit ⟨.ofResolved "/r/c.js", "1", true⟩ d (start.after run)).1 =
      .error (.load (.notText "/r/c.d.ts")) := by
    decide +kernel
  exact ⟨_, _, _, _, hobserve, Action.run_of_answer hcommit⟩

end ScriptHost.Host
