import ScriptHost.Proofs.Host.Incremental
import ScriptHost.Proofs.Host.Sync

/-!
# By which paths scripts are addressed

A path is resolved when a script is added, but the path of a tracked script, a shim path and the absolute path of a
source are not when a script is named (`TakenAsIs`), and the path of a tracked script is not when a question is asked.
So the path by which a script was added addresses it if and only if it is not taken as it is or is the key of the script
(`addressed_iff`).  The absolute path of a source need not be its key: it may end in `.tsx` or `.d.ts`, or have dots.
-/

namespace ScriptHost.Host

open ScriptHost.Analysis ScriptHost.Path

variable {σ : Type} {d : Disk} {h : Host σ} {path key : String}

/-- Paths that are not resolved when they name a script. -/
def TakenAsIs (path : String) (h : Host σ) : Prop :=
  h.store.contains path = true ∨ isShim path = true ∨ (isEngineName path = true ∧ isAbsolute path = true)

/-- By a path, the version and the record of the script with a key are found, and the script is dropped. -/
structure Managed (path key : String) (d : Disk) (h : Host σ) : Prop where
  version : (fileVersion path d h).1 = .ok (h.store.version key)
  record : (fileRecord path d h).1 = .ok (h.store.get? key)
  removed : (removeFile path d h).1 = .ok true
  untracked : (removeFile path d h).2.store.get? key = none

/-- By a path, all questions are asked about the script with a key. -/
def Asked (path key : String) (d : Disk) (h : Host σ) : Prop :=
  ∀ {α : Type} (q : Question σ α) offset, askAbout q path offset d h = askAt q key offset d h

/-! ### Names of scripts that have been identified -/

private theorem knownKey_of_takenAsIs (ht : TakenAsIs path h) : knownKey path d h = path := by
  refine if_pos ?_
  rcases ht with hc | hs | ⟨he, ha⟩
  · simp [hc]
  · simp [hs]
  · simp [he, ha]

private theorem knownKey_of_not_takenAsIs (ht : ¬ TakenAsIs path h) {i : Identity}
    (hi : (identify path none d h).1 = .ok i) : knownKey path d h = i.normalized := by
  have hnot : (h.store.contains path || isShim path || (isEngineName path && isAbsolute path)) = false := by
    refine Bool.eq_false_iff.2 fun htaken => ht ?_
    simpa [TakenAsIs, or_assoc] using htaken
  rw [knownKey, hnot, if_neg (by decide), hi]
  rfl

private theorem fileRecord_answer (path : String) (d : Disk) (h : Host σ) :
    (fileRecord path d h).1 = .ok (h.store.get? (knownKey path d h)) := by
  obtain ⟨h₁, hn, hl⟩ := knownName_run path d h
  unfold fileRecord
  rw [Action.bind_run_of_ok hn, ← hl.store]
  rfl

/-- A tracked script is managed by a path if and only if the path is known by its key. -/
private theorem managed_iff (htracked : h.store.contains key = true) :
    Managed path key d h ↔ knownKey path d h = key := by
  obtain ⟨h₁, hv, -⟩ := fileVersion_run path d h
  obtain ⟨h₂, hr, hstore, -⟩ := removeFile_run path d h
  constructor
  · intro hmanaged
    by_contra hne
    -- another script is dropped, so this one stays
    have hgone := hmanaged.untracked
    rw [hr] at hgone
    change h₂.store.get? key = none at hgone
    rw [hstore, Table.get?_erase, if_neg (Ne.symm hne)] at hgone
    rw [Table.contains, hgone] at htracked
    cases htracked
  · intro hknown
    rw [hknown] at hv hr hstore
    refine ⟨by rw [hv], by rw [fileRecord_answer, hknown], by rw [hr, htracked], ?_⟩
    rw [hr]
    show h₂.store.get? key = none
    rw [hstore, Table.get?_erase, if_pos rfl]

/-- Questions about a path are asked about the path itself if it is tracked, else about what has been identified. -/
private theorem engineName_of_found {i : Identity}
    (hf : h.memo.found.get? (Resolution.Memo.key path h.directory) = some i) (d : Disk) :
    engineName path d h = (.ok (if h.store.contains path then path else i.normalized), h) := by
  unfold engineName
  rw [Action.bind_host_run]
  cases h.store.contains path with
  | true => rfl
  | false =>
    rw [if_neg (by decide), Action.bind_run_of_ok (identify_of_found hf)]
    rfl

private theorem asked_iff {i : Identity} (hf : h.memo.found.get? (Resolution.Memo.key path h.directory) = some i) :
    Asked path i.normalized d h ↔ (h.store.contains path = true → path = i.normalized) := by
  have hrun : ∀ {α : Type} (q : Question σ α) offset, askAbout q path offset d h =
      askAt q (if h.store.contains path then path else i.normalized) offset d h := by
    intro α q offset
    unfold askAbout
    rw [Action.bind_run_of_ok (engineName_of_found hf d)]
  constructor
  · intro hasked hc
    -- a question that is answered by the key itself
    have hanswer := hasked (fun _ _ name _ s => (some name, s)) 0
    rw [hrun, if_pos hc, askAt, askAt, Action.ask_run, Action.ask_run] at hanswer
    simpa using congrArg Prod.fst hanswer
  · intro hkey α q offset
    rw [hrun]
    split
    · rename_i hc
      rw [hkey hc]
    · rfl

/-! ### Scripts that have been added -/

/-- Let a script be added by a path without an origin, to a host that uses the syntax engine and after whatever run.
Its unit has the version of its record, which is at least 1.  Afterwards, whatever is on the disk, the script is managed
by the path if and only if the path is not taken as it is or is the key, and it is asked about if and only if the path
is not tracked or is the key. -/
theorem addressed_iff {h₀ h' : Host SyntaxEngine} (hu : h₀.Unused) (he : h₀.tools.engine = SyntaxEngine.engine)
    (hs : h₀.engineState = .fresh) {run : List (Disk × Operation)} (hlen : run.length + 2 < 2 ^ 63) {d : Disk}
    {r : Request} (horigin : r.origin = none) {u : SourceUnit} (hadd : addFile r d (h₀.after run) = (.ok u, h'))
    (d' : Disk) :
    1 ≤ u.version ∧ h'.store.version u.fileName = u.version ∧
      (Managed r.path u.fileName d' h' ↔ (TakenAsIs r.path h' → r.path = u.fileName)) ∧
      (Asked r.path u.fileName d' h' ↔ (h'.store.contains r.path = true → r.path = u.fileName)) := by
  have hm : (h₀.after run).memo.Sound := sound_after hu.sound run
  have hafter : h' = h₀.after (run ++ [(d, .addFile r)]) := by
    rw [after_append]
    exact (congrArg Prod.snd hadd).symm
  have hnumbered : Numbered (run ++ [(d, Operation.addFile r)]).length h'.store :=
    hafter ▸ numbered_after hu (by simpa using hlen)
  have hupToDate : UpToDate run.length (h₀.after run) := upToDate_after hu he hs (by omega)
  have hanswers := hupToDate.answersAnew hm (by omega) d
  obtain ⟨o, h₁, ho, record, hrecord, rfl⟩ := hanswers.addFile hadd
  -- what was observed has been identified, and is found ever after
  rw [horigin] at ho
  obtain ⟨i, h₂, hi, ho⟩ := Action.bind_eq_ok.1 ho
  obtain ⟨-, -, hid, -⟩ := observeIdentity_eq_ok.1 ho
  have hpath : o.path = i.normalized := congrArg Identity.normalized hid
  have hfound : h'.memo.found.get? (Resolution.Memo.key r.path h'.directory) = some i := by
    have hadmitted : ∀ x ∈ [(d, Operation.addFile r)], x.2.Admitted EngineKey := by simp [Operation.Admitted]
    have hdirectory : (addFile r d (h₀.after run)).2.directory = (h₀.after run).directory :=
      directory_after hm hadmitted
    have := found_addFile (r := r) hm (by rw [horigin]; exact congrArg Prod.fst hi)
    rwa [horigin, Option.getD_none, ← hdirectory, hadd] at this
  rw [hpath] at hrecord ⊢
  have htracked : h'.store.contains i.normalized = true := by rw [Table.contains, hrecord]; rfl
  have hrun : identify r.path none d' h' = (.ok i, h') := identify_of_found hfound
  have hidentified : (identify r.path none d' h').1 = .ok i := congrArg Prod.fst hrun
  show 1 ≤ record.version ∧ h'.store.version i.normalized = record.version ∧
    (Managed r.path i.normalized d' h' ↔ _) ∧ (Asked r.path i.normalized d' h' ↔ _)
  refine ⟨Int64.le_iff_toInt_le.2 (hnumbered _ _ hrecord).1, by rw [Store.version, hrecord]; rfl, ?_, asked_iff hfound⟩
  rw [managed_iff htracked]
  by_cases ht : TakenAsIs r.path h'
  · rw [knownKey_of_takenAsIs ht]
    exact ⟨fun heq _ => heq, fun heq => heq ht⟩
  · rw [knownKey_of_not_takenAsIs ht hidentified]
    exact ⟨fun _ htaken => absurd htaken ht, fun _ => rfl⟩

/-- A script with markup is tracked, but not under the path by which it was added. -/
theorem addressed_markup_iff : ∃ (d : Disk) (u : SourceUnit) (h : Host SyntaxEngine),
    u.fileName = "/r/a.ts" ∧ u.version = 1 ∧
    (Managed "/r/a.tsx" u.fileName d h ↔ (TakenAsIs "/r/a.tsx" h → "/r/a.tsx" = u.fileName)) ∧
    ¬ Managed "/r/a.tsx" u.fileName d h ∧
    (fileVersion "/r/a.tsx" d h).1 = .ok Analysis.untracked := by
  let d := Disk.empty.write "/r/a.tsx" (.text "1")
  let start := fresh ⟨Resolution.nodeResolver, Merge.typePrelude, SyntaxEngine.engine⟩ SyntaxEngine.fresh "/r"
  have hok : (addFile { path := "/r/a.tsx" } d start).1.toOption.isSome = true := by decide +kernel
  obtain ⟨u, hu⟩ := Option.isSome_iff_exists.1 hok
  have hunit : (addFile { path := "/r/a.tsx" } d start).1.toOption.map (fun u => (u.fileName, u.version)) =
      some ("/r/a.ts", 1) := by
    decide +kernel
  rw [hu] at hunit
  obtain ⟨hname, hversion⟩ := Prod.mk.inj (Option.some.inj hunit)
  have hadd := Action.run_of_answer (toOption_eq_some_iff.1 hu)
  have hlen : ([] : List (Disk × Operation)).length + 2 < 2 ^ 63 := by decide
  have haddressed := addressed_iff (unused_fresh ..) rfl rfl hlen rfl hadd d
  refine ⟨d, u, _, hname, hversion, haddressed.2.2.1, fun hmanaged => ?_, by decide +kernel⟩
  have hkey := haddressed.2.2.1.1 hmanaged (.inr (.inr ⟨by decide +kernel, by decide +kernel⟩))
  change "/r/a.tsx" = u.fileName at hkey
  rw [show u.fileName = "/r/a.ts" from hname] at hkey
  exact absurd hkey (by decide)

end ScriptHost.Host
