import ScriptHost.Proofs.Host.Record
import ScriptHost.Proofs.Host.Watch

/-!
# Whether events keep a script in sync

A file that has been added is in sync if its change is noticed, its new text is stored under its key, and its removal
drops the key (`InSync`).  The key is found by resolving the path of the file, but events about absolute paths of
sources take the path itself for the key.  So a file is in sync if and only if it is known by its own path or that is
not the path of a source (`inSync_iff`).  A key never ends in `.tsx`, so no file whose path does is in sync.
-/

namespace ScriptHost.Host

open ScriptHost.Analysis ScriptHost.Path

variable {σ : Type} {d : Disk}

/-- After the file at a path has got a text (on the disk `d₁`), its change is noticed and the text is stored under a
key; after the file has been removed (on the disk `d₂`), nothing is stored under the key. -/
structure InSync (trackNew : Bool) (path key text : String) (d₁ d₂ : Disk) (h : Host σ) : Prop where
  noticed : (applyEvent trackNew (.modified path) d₁ h).1 ≠ .ok .ignored
  stored : ((applyEvent trackNew (.modified path) d₁ h).2.store.get? key).map (·.rawContent) = some text
  dropped : (applyEvent trackNew (.removed path) d₂ h).2.store.get? key = none

/-- Keys that may be those of sources. -/
abbrev EngineKey (key : String) : Prop := isEngineName key = true

theorem admitsAll_engineKey : AdmitsAll EngineKey := fun _ hi => hi.isEngineName

/-! ### What has been added -/

/-- What has been identified is found ever after. -/
private theorem found_after {h : Host σ} (hm : h.memo.Sound) {run : List (Disk × Operation)}
    (hrun : ∀ x ∈ run, x.2.Admitted EngineKey) {request : Resolution.Request} {i : Identity}
    (hf : h.memo.found.get? request = some i) : (h.after run).memo.found.get? request = some i :=
  after_keeps (I := fun _ h => h.memo.found.get? request = some i) admitsAll_engineKey
    (fun step hf => step.learned.kept hf) (fun _ => id) hrun (n := 0) hm hf

theorem directory_after {h : Host σ} (hm : h.memo.Sound) {run : List (Disk × Operation)}
    (hrun : ∀ x ∈ run, x.2.Admitted EngineKey) : (h.after run).directory = h.directory :=
  after_keeps (I := fun _ h' => h'.directory = h.directory) admitsAll_engineKey
    (fun step hd => step.directory.trans hd) (fun _ => id) hrun (n := 0) hm rfl

theorem found_addFile {h : Host σ} (hm : h.memo.Sound) {r : Request} {i : Identity}
    (hi : (identify r.path r.origin d h).1 = .ok i) :
    (addFile r d h).2.memo.found.get? (Resolution.Memo.key r.path (r.origin.getD h.directory)) = some i := by
  have hrun := Action.run_of_answer hi
  have hfound := found_of_identify hrun
  have hm₁ : (identify r.path r.origin d h).2.memo.Sound := (identify_quiet r.path r.origin d h).sound hm
  unfold addFile observe
  rcases ho : (observeIdentity i r.content : Action σ _) d (identify r.path r.origin d h).2 with ⟨e | o, h₁⟩
  · -- the file cannot be loaded, but it has been identified
    have hsame : h₁ = (identify r.path r.origin d h).2 := by
      have := congrArg Prod.snd ho
      rw [observeIdentity_run] at this
      exact this.symm
    rw [Action.bind_run_of_error ((Action.bind_run_of_ok hrun).trans ho), hsame]
    exact hfound
  · obtain ⟨rfl, -, hid, -⟩ := observeIdentity_eq_ok.1 ho
    have hk : EngineKey o.path := by
      rw [Observation.path, hid]
      exact (wellFormed_of_identify hm hrun).isEngineName
    rw [Action.bind_run_of_ok ((Action.bind_run_of_ok hrun).trans ho)]
    obtain ⟨k, -, hs⟩ := addObserved_takes (d := d) admitsAll_engineKey hk r.withImports _ hm₁
    exact hs.found hfound

/-! ### Events -/

section

variable {h : Host σ} {n : Nat} {path : String} {i : Identity}

private theorem isFile_of_read {content : Content} (hread : d.read path = .ok content) : d.isFile path = true := by
  unfold Disk.read at hread
  unfold Disk.isFile
  split at hread
  · rename_i hl
    rw [hl]
  · cases hread
  · cases hread

/-- A text that is given for a script without declarations is stored, unless it is stored already. -/
private theorem scriptChanged_stores (hm : h.memo.Sound) (hi : (identify path none d h).1 = .ok i)
    (hplain : i.isCompiled = true → declarationsBeside d i.resolved = none) (name : String) (before : Version)
    (text : String) :
    ((scriptChanged path name before text d h).2.store.get? i.normalized).map (·.rawContent) = some text := by
  rw [scriptChanged_record hm hi, if_pos rfl]
  cases hn : h.store.needsUpdate i.normalized text with
  | true =>
    have hmerge := mergedContent_of_plain (o := observedText i text h) hplain h
    have hr : (observedText i text h).record? d h = some ⟨h.store.nextVersion i.normalized, text, text⟩ :=
      record?_eq_some_iff.2 ⟨hn, text, congrArg Prod.fst hmerge, rfl⟩
    rw [hr]
    rfl
  | false =>
    rw [record?_of_not_news hn, Option.none_or]
    cases hr : h.store.get? i.normalized with
    | none => simp [Store.needsUpdate, hr] at hn
    | some r =>
      have : r.rawContent = text := by simpa [Store.needsUpdate, hr] using hn
      rw [Option.map_some, this]

private theorem modified_of_known (hm : h.memo.Sound) (hs : isScript path = true) (hbase : declarationBase? path = none)
    (hi : (identify path none d h).1 = .ok i)
    (hplain : i.isCompiled = true → declarationsBeside d i.resolved = none) {text : String}
    (hread : d.read path = .ok (.text text)) (hknown : ¬ h.store.version (knownKey path d h) < 0) :
    (fileChanged path false d h).1 ≠ .ok .ignored ∧
      ((fileChanged path false d h).2.store.get? i.normalized).map (·.rawContent) = some text := by
  obtain ⟨h₁, hl, hrun⟩ := fileChanged_run hs (isFile_of_read hread) (compiledSibling?_of_no_base hbase d) false h
  rw [watchedName_of_no_base hbase, if_neg (fun hneg => hknown hneg.1), hread] at hrun
  have hi₁ : (identify path none d h₁).1 = .ok i := (hl.identify_answer path).trans hi
  rw [hrun]
  refine ⟨fun hignored => ?_, scriptChanged_stores (hl.quiet.sound hm) hi₁ hplain ..⟩
  have hne := scriptChanged_ne_ignored (d := d) path path (h.store.version (knownKey path d h)) text h₁
  revert hignored hne
  dsimp only
  cases (scriptChanged path path (h.store.version (knownKey path d h)) text d h₁).1 with
  | error e => simp [Except.mapError]
  | ok outcome => simp [Except.mapError]

private theorem modified_of_unknown (hs : isScript path = true) (hbase : declarationBase? path = none)
    (hf : d.isFile path = true) (hunknown : h.store.version (knownKey path d h) < 0) :
    (fileChanged path false d h).1 = .ok .ignored := by
  obtain ⟨h₁, -, hrun⟩ := fileChanged_run hs hf (compiledSibling?_of_no_base hbase d) false h
  rw [watchedName_of_no_base hbase, if_pos ⟨hunknown, rfl⟩] at hrun
  rw [hrun]

/-- A file that is identified is in sync if and only if it is known by its key. -/
private theorem inSync_iff_of_identified (hm : h.memo.Sound) (hn : Numbered n h.store)
    (hkeys : StoredIn EngineKey h.store) (ha : isAbsolute path = true) (hs : isScript path = true)
    (hbase : declarationBase? path = none)
    (hi : ∀ d, (identify path none d h).1 = .ok i) (htracked : h.store.contains i.normalized = true) {d₁ d₂ : Disk}
    (hplain : i.isCompiled = true → declarationsBeside d₁ i.resolved = none) {text : String}
    (hread : d₁.read path = .ok (.text text)) (trackNew : Bool) :
    InSync trackNew path i.normalized text d₁ d₂ h ↔ (isEngineName path = true → i.normalized = path) := by
  obtain ⟨r, hr⟩ := Option.isSome_iff_exists.1 htracked
  obtain ⟨hdrop, hstay⟩ := fileRemoved_record hs (compiledSibling?_of_no_base hbase d₂) hr
  constructor
  · intro hsync hengine
    -- the path is taken for the key, so it must be tracked, and it is what is dropped
    have hknown : ∀ d, knownKey path d h = path := fun d => knownKey_of_engineName hengine ha d h
    have hpath : h.store.contains path = true := by
      by_contra hc
      have hneg : h.store.version (knownKey path d₁ h) < 0 := by
        rw [hknown]
        exact hn.version_neg_iff.2 (by simpa using hc)
      exact hsync.noticed (modified_of_unknown hs hbase (isFile_of_read hread) hneg)
    by_contra hne
    have hkept := hstay fun hdrops => by
      rcases hdrops with hkey | ⟨hc, -⟩
      · exact hne (((hknown d₂).symm.trans hkey).symm)
      · rw [hknown, hpath] at hc
        cases hc
    have hgone : (fileRemoved path d₂ h).2.store.get? i.normalized = none := hsync.dropped
    rw [hkept] at hgone
    cases hgone
  · intro hkey
    have hknown : ∀ d, knownKey path d h = i.normalized := by
      intro d
      cases hengine : isEngineName path with
      | true => rw [knownKey_of_engineName hengine ha, hkey hengine]
      | false =>
        -- a path that is not that of a source is never a key, so it is identified
        refine knownKey_of_identified hengine ?_ (hi d)
        cases hp : h.store.get? path with
        | none => rw [Table.contains, hp]; rfl
        | some old => exact absurd (hkeys path old hp) (by rw [EngineKey, hengine]; decide)
    have hpos : ¬ h.store.version (knownKey path d₁ h) < 0 := by
      rw [hknown, hn.version_neg_iff, htracked]
      decide
    obtain ⟨hnoticed, hstored⟩ := modified_of_known hm hs hbase (hi d₁) hplain hread hpos
    exact ⟨hnoticed, hstored, hdrop (.inl (hknown d₂))⟩

end

/-- Let a script be added to a host as the file at an absolute path, under the key of `i`, and let it be tracked still
after all that has happened later.  The file, if it is no declaration file and the script has no declarations, is in
sync if and only if its path is the key or is not that of a source. -/
theorem inSync_iff {h₀ h : Host σ} (hu : h₀.Unused) {run later : List (Disk × Operation)} {d : Disk} {r : Request}
    (hrun : ∀ x ∈ run ++ (d, .addFile r) :: later, x.2.Admitted EngineKey)
    (hlen : (run ++ (d, .addFile r) :: later).length + 1 < 2 ^ 63) (hh : h = h₀.after (run ++ (d, .addFile r) :: later))
    (horigin : r.origin = none) {i : Identity} (hi : (identify r.path none d (h₀.after run)).1 = .ok i)
    (htracked : h.store.contains i.normalized = true) (ha : isAbsolute r.path = true) (hs : isScript r.path = true)
    (hbase : declarationBase? r.path = none) {d₁ : Disk} {text : String} (hread : d₁.read r.path = .ok (.text text))
    (hplain : i.isCompiled = true → declarationsBeside d₁ i.resolved = none) (d₂ : Disk) (trackNew : Bool) :
    InSync trackNew r.path i.normalized text d₁ d₂ h ↔ (isEngineName r.path = true → i.normalized = r.path) := by
  have hm : (h₀.after run).memo.Sound := sound_after hu.sound run
  have hearlier : ∀ x ∈ run, x.2.Admitted EngineKey := fun x hx => hrun x (List.mem_append_left _ hx)
  have hlater : ∀ x ∈ (d, Operation.addFile r) :: later, x.2.Admitted EngineKey :=
    fun x hx => hrun x (List.mem_append_right _ hx)
  have hsplit : h = ((addFile r d (h₀.after run)).2).after later := by
    rw [hh, after_append]
    rfl
  have hm' : (addFile r d (h₀.after run)).2.memo.Sound := by
    have := sound_after hm [(d, .addFile r)]
    exact this
  have hfound : h.memo.found.get? (Resolution.Memo.key r.path (h₀.after run).directory) = some i := by
    have hadded := found_addFile (r := r) hm (by rw [horigin]; exact hi)
    rw [horigin, Option.getD_none] at hadded
    rw [hsplit]
    exact found_after hm' (fun x hx => hlater x (List.mem_cons_of_mem _ hx)) hadded
  have hdirectory : h.directory = (h₀.after run).directory := by
    rw [hh, after_append]
    exact directory_after hm hlater
  have hidentified : ∀ d, (identify r.path none d h).1 = .ok i := by
    intro d
    rw [identify_of_found]
    rw [Option.getD_none, hdirectory]
    exact hfound
  subst hh
  exact inSync_iff_of_identified (sound_after hu.sound _) (numbered_after hu hlen)
    (storedIn_after admitsAll_engineKey hu hrun) ha hs hbase hidentified htracked hplain hread trackNew

/-- A file with markup is added under the key of a source, and its changes are ignored. -/
theorem inSync_markup_iff : ∃ (d : Disk) (h : Host SyntaxEngine),
    h.store.contains "/r/a.ts" = true ∧
    (InSync false "/r/a.tsx" "/r/a.ts" "2" d .empty h ↔
      (isEngineName "/r/a.tsx" = true → "/r/a.ts" = "/r/a.tsx")) ∧
    (applyEvent false (.modified "/r/a.tsx") d h).1 = .ok .ignored := by
  refine ⟨Disk.empty.write "/r/a.tsx" (.text "2"),
    (fresh ⟨Resolution.nodeResolver, Merge.typePrelude, SyntaxEngine.engine⟩ .fresh "/r").after
      ([] ++ [(Disk.empty.write "/r/a.tsx" (.text "1"), .addFile { path := "/r/a.tsx" })]),
    by decide +kernel, ?_, by decide +kernel⟩
  refine inSync_iff (r := { path := "/r/a.tsx" }) (i := ⟨"/r/a.tsx", "/r/a.ts", false⟩) (unused_fresh ..) ?_ ?_ rfl rfl
    ?_ ?_ ?_ ?_ ?_ ?_ ?_ .empty false
  · simp [Operation.Admitted]
  · decide
  all_goals decide +kernel

end ScriptHost.Host
