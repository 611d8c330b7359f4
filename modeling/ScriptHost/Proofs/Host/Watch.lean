import ScriptHost.Analysis.SyntaxEngine
import ScriptHost.Proofs.Host.Commit
import ScriptHost.Proofs.Host.Step
import ScriptHost.Resolution.Lookup

/-!
# What an event does to a record

An event about a file may store a text under the key of the file (`Overwrites`), merge a compiled script again
(`Refreshes`) or drop a script (`Drops`).  It leaves a record exactly as it was if it does none of this to the key of
the record (`record_unchanged_iff`).  The keys of different files may be the same: a compiled script and its source
have the same one, so an event about the compiled script changes the record of the source.
-/

namespace ScriptHost.Host

open ScriptHost.Analysis ScriptHost.Path

variable {σ α β : Type} {d : Disk}

/-! ### Actions that end quietly -/

theorem get?_bind_of_quiet {x : Action σ α} {f : α → Action σ β} (hf : ∀ a h, Quiet d h (f a d h).2) (h : Host σ)
    (key : String) : ((x >>= f) d h).2.store.get? key = (x d h).2.store.get? key := by
  rcases hx : x d h with ⟨e | a, h₁⟩
  · rw [Action.bind_run_of_error hx]
  · rw [Action.bind_run_of_ok hx]
    exact (hf a h₁).store key

theorem fileVersion_run (name : String) (d : Disk) (h : Host σ) :
    ∃ h₁, fileVersion name d h = (.ok (h.store.version (knownKey name d h)), h₁) ∧ Looked d h h₁ := by
  obtain ⟨h₁, hn, hl⟩ := knownName_run name d h
  refine ⟨h₁, ?_, hl⟩
  unfold fileVersion
  rw [Action.bind_run_of_ok hn, ← hl.store]
  rfl

theorem fileVersion_quiet (name : String) (d : Disk) (h : Host σ) : Quiet d h (fileVersion name d h).2 := by
  obtain ⟨h₁, hv, hl⟩ := fileVersion_run name d h
  rw [hv]
  exact hl.quiet

/-- What is removed is what a name is known by; if that is not tracked, other names are known as before. -/
theorem removeFile_run (name : String) (d : Disk) (h : Host σ) :
    ∃ h₁, removeFile name d h = (.ok (h.store.contains (knownKey name d h)), h₁) ∧
      h₁.store = h.store.erase (knownKey name d h) ∧
      (h.store.contains (knownKey name d h) = false → ∀ other, knownKey other d h₁ = knownKey other d h) := by
  obtain ⟨h', hn, hl⟩ := knownName_run name d h
  refine ⟨{ h' with
    store := h'.store.erase (knownKey name d h)
    engineState := h'.tools.engine.release (knownKey name d h) h'.engineState }, ?_, ?_, ?_⟩
  · unfold removeFile
    rw [Action.bind_run_of_ok hn, ← hl.store]
    rfl
  · show h'.store.erase _ = _
    rw [hl.store]
  · intro hc other
    have hsame : (h'.store.erase (knownKey name d h)).contains other = h'.store.contains other := by
      rw [Table.contains, Table.get?_erase, hl.store]
      split
      · rename_i hother
        rw [hother, hc]
        rfl
      · rfl
    rw [← hl.knownKey other]
    unfold knownKey at hsame ⊢
    dsimp only
    rw [hsame]
    rfl

theorem parsedUnit_quiet (key : String) (d : Disk) (h : Host σ) : Quiet d h (parsedUnit key d h).2 := by
  unfold parsedUnit
  refine Action.Keeps.bind (Quiet.keeps (fun h => .engineState d h _) h) (fun unit => ?_) h (.refl d h)
  cases unit with
  | none => exact .fail _
  | some u => exact .pure u

/-! ### Texts that are given -/

/-- What is observed of a script whose text is given. -/
def observedText (i : Identity) (text : String) (h : Host σ) : Observation :=
  ⟨i, text, h.store.needsUpdate i.normalized text⟩

/-- Of what a path stands for, the text is observed that can be seen. -/
theorem observe_run {path : String} {origin : Option String} {h : Host σ} {i : Identity}
    (hi : (identify path origin d h).1 = .ok i) (given : Option String) :
    observe path origin given d h =
      ((seenText h.store d i given).map (observedText i · h), (identify path origin d h).2) := by
  unfold observe
  rw [Action.bind_run_of_ok (Action.run_of_answer hi), observeIdentity_run]
  rfl

private theorem addObserved_record (o : Observation) (h : Host σ) (key : String) :
    (addObserved o false d h).2.store.get? key = (commit o d h).2.store.get? key := by
  refine get?_bind_of_quiet (fun stored h₁ => ?_) h key
  cases stored <;> exact parsedUnit_quiet o.path d h₁

/-- What is seen of a file that is added is stored for it, if it is news and can be merged. -/
theorem addFile_stores {r : Request} {h : Host σ} {i : Identity} (hm : h.memo.Sound)
    (hi : (identify r.path r.origin d h).1 = .ok i) (himports : r.withImports = false) {text : String}
    (htext : seenText h.store d i r.content = .ok text) (key : String) :
    (addFile r d h).2.store.get? key =
      if key = i.normalized then ((observedText i text h).record? d h).or (h.store.get? key) else h.store.get? key := by
  have hwf := wellFormed_of_identify hm (Action.run_of_answer hi)
  have hm₁ : (identify r.path r.origin d h).2.memo.Sound := (identify_quiet r.path r.origin d h).sound hm
  have hmemo : (identify r.path r.origin d h).2 = { h with memo := (identify r.path r.origin d h).2.memo } := rfl
  have hobserve := observe_run hi r.content
  rw [htext] at hobserve
  unfold addFile
  rw [Action.bind_run_of_ok hobserve, himports]
  refine (addObserved_record _ _ key).trans ?_
  rw [get?_commit (.of_wellFormed hwf d) hm₁, hmemo, record?_memo _ d hm hm₁]
  rfl

theorem addFile_of_unseen {r : Request} {h : Host σ} {i : Identity} (hi : (identify r.path r.origin d h).1 = .ok i)
    {e : HostError} (he : seenText h.store d i r.content = .error e) : (addFile r d h).2.store = h.store := by
  have hobserve := observe_run hi r.content
  rw [he] at hobserve
  unfold addFile
  rw [Action.bind_run_of_error hobserve]
  rfl

theorem addFile_of_unidentified {r : Request} {h : Host σ} {e : HostError}
    (hi : (identify r.path r.origin d h).1 = .error e) :
    addFile r d h = (.error e, (identify r.path r.origin d h).2) := by
  unfold addFile observe
  rw [Action.bind_run_of_error (Action.bind_run_of_error (Action.run_of_answer hi))]

theorem scriptChanged_record {path : String} {h : Host σ} {i : Identity} (hm : h.memo.Sound)
    (hi : (identify path none d h).1 = .ok i) (name : String) (before : Version) (text key : String) :
    (scriptChanged path name before text d h).2.store.get? key =
      if key = i.normalized then ((observedText i text h).record? d h).or (h.store.get? key) else h.store.get? key := by
  have hadd := addFile_stores (r := { path, content := some text }) hm hi rfl rfl key
  unfold scriptChanged
  rw [get?_bind_of_quiet (fun unit h₁ => ?_) h key, hadd]
  refine Action.Keeps.bind (Quiet.keeps (fileVersion_quiet name d) h₁) (fun version => ?_) h₁ (.refl d h₁)
  split <;> exact .pure _

theorem scriptChanged_of_error {path : String} {h : Host σ} {e : HostError}
    (hi : (identify path none d h).1 = .error e) (name : String) (before : Version) (text : String) :
    scriptChanged path name before text d h = (.error e, (identify path none d h).2) := by
  have hadd := addFile_of_unidentified (r := { path, content := some text }) hi
  unfold scriptChanged
  rw [Action.bind_run_of_error hadd]

theorem scriptChanged_ne_ignored (path name : String) (before : Version) (text : String) (h : Host σ) :
    (scriptChanged path name before text d h).1 ≠ .ok .ignored := by
  unfold scriptChanged
  rcases ha : (addFile { path, content := some text } : Action σ _) d h with ⟨e | u, h₁⟩
  · rw [Action.bind_run_of_error ha]
    simp
  · obtain ⟨h₂, hv, -⟩ := fileVersion_run name d h₁
    rw [Action.bind_run_of_ok ha, Action.bind_run_of_ok hv]
    split <;> simp

/-! ### Declarations -/

/-- The record that is stored when a script is merged with its declarations again: none if it is not tracked, cannot be
merged or is not another text then. -/
def refreshed? (i : Identity) (d : Disk) (h : Host σ) : Option Record :=
  (h.store.get? i.normalized).bind fun stored =>
    (mergedContent ⟨i, stored.rawContent, false⟩ d h).1.toOption.bind fun content =>
      if content = stored.content then none
      else some ⟨h.store.nextVersion i.normalized, content, stored.rawContent⟩

theorem eq_of_refreshed? {i : Identity} {h : Host σ} {r : Record} (hr : refreshed? i d h = some r) :
    ∃ content raw, r = ⟨h.store.nextVersion i.normalized, content, raw⟩ := by
  obtain ⟨stored, -, hr⟩ := Option.bind_eq_some_iff.1 hr
  obtain ⟨content, -, hr⟩ := Option.bind_eq_some_iff.1 hr
  split at hr <;> cases hr
  exact ⟨content, stored.rawContent, rfl⟩

/-- A stored text is observed as it is, and that is no news. -/
private theorem observe_stored {i : Identity} {h : Host σ} {stored : Record}
    (hs : h.store.get? i.normalized = some stored) :
    observeIdentity i (some stored.rawContent) d h = (.ok ⟨i, stored.rawContent, false⟩, h) := by
  have hold : h.store.needsUpdate i.normalized stored.rawContent = false := by
    simp [Store.needsUpdate, hs]
  rw [observeIdentity_run, ← hold]
  rfl

/-- A tracked script is merged with its declarations again; another text than before is stored for it. -/
theorem refreshDeclarations_run {name : String} {h : Host σ} {i : Identity} (hm : h.memo.Sound)
    (hi : (identify name none d h).1 = .ok i) : ∃ h₁, Quiet d h h₁ ∧ refreshDeclarations name d h =
      match h.store.get? i.normalized with
      | none => (.ok false, h₁)
      | some stored =>
        match (mergedContent ⟨i, stored.rawContent, false⟩ d h).1 with
        | .error e => (.error e, h₁)
        | .ok content =>
          if content = stored.content then (.ok false, h₁)
          else (.ok true, { h₁ with store := h₁.store.commit i.normalized stored.rawContent content }) := by
  have hrun := Action.run_of_answer hi
  have hwf := wellFormed_of_identify hm hrun
  have hq := identify_quiet name none d h
  have hm₁ : (identify name none d h).2.memo.Sound := hq.sound hm
  unfold refreshDeclarations
  rw [Action.bind_run_of_ok hrun, Action.bind_host_run]
  cases hs : h.store.get? i.normalized with
  | none =>
    rw [show (identify name none d h).2.store.get? i.normalized = none from hs]
    exact ⟨(identify name none d h).2, hq, rfl⟩
  | some stored =>
    have hs₁ : (identify name none d h).2.store.get? i.normalized = some stored := hs
    have hanswer : (mergedContent ⟨i, stored.rawContent, false⟩ d (identify name none d h).2).1 =
        (mergedContent ⟨i, stored.rawContent, false⟩ d h).1 := mergedContent_memo _ d hm hm₁
    have hquiet := hq.trans (mergedContent_quiet (o := ⟨i, stored.rawContent, false⟩) (.of_wellFormed hwf d) hm₁)
    rw [hs₁]
    dsimp only
    rw [Action.bind_run_of_ok (observe_stored hs₁), ← hanswer]
    rcases hc : mergedContent ⟨i, stored.rawContent, false⟩ d (identify name none d h).2 with ⟨e | content, h₁⟩
      <;> rw [hc] at hquiet
    · exact ⟨h₁, hquiet, Action.bind_run_of_error hc⟩
    · refine ⟨h₁, hquiet, (Action.bind_run_of_ok hc).trans ?_⟩
      dsimp only
      split <;> rfl

theorem refreshDeclarations_record {name : String} {h : Host σ} {i : Identity} (hm : h.memo.Sound)
    (hi : (identify name none d h).1 = .ok i) (key : String) :
    (refreshDeclarations name d h).2.store.get? key =
      if key = i.normalized then (refreshed? i d h).or (h.store.get? key) else h.store.get? key := by
  obtain ⟨h₁, hquiet, hrun⟩ := refreshDeclarations_run hm hi
  rw [hrun]
  unfold refreshed?
  cases hs : h.store.get? i.normalized with
  | none => simpa using hquiet.store key
  | some stored =>
    rw [Option.bind_some]
    dsimp only
    cases hc : (mergedContent ⟨i, stored.rawContent, false⟩ d h).1 with
    | error e => simpa [Except.toOption] using hquiet.store key
    | ok content =>
      by_cases hcontent : content = stored.content
      · simpa [Except.toOption, hcontent] using hquiet.store key
      · have hnext : h₁.store.nextVersion i.normalized = h.store.nextVersion i.normalized := by
          rw [Store.nextVersion, hquiet.store, Store.nextVersion]
        simp only [Except.toOption, Option.bind_some, if_neg hcontent]
        rw [Store.get?_commit, hnext, hquiet.store]
        simp

theorem refreshDeclarations_answer {name : String} {h : Host σ} {i : Identity} (hm : h.memo.Sound)
    (hi : (identify name none d h).1 = .ok i) :
    (refreshDeclarations name d h).1.toOption.getD false = (refreshed? i d h).isSome := by
  obtain ⟨h₁, -, hrun⟩ := refreshDeclarations_run hm hi
  rw [hrun]
  unfold refreshed?
  cases h.store.get? i.normalized with
  | none => rfl
  | some stored =>
    rw [Option.bind_some]
    dsimp only
    cases (mergedContent ⟨i, stored.rawContent, false⟩ d h).1 with
    | error e => rfl
    | ok content => by_cases hcontent : content = stored.content <;> simp [Except.toOption, hcontent]

/-- What would be stored does not change when something has been looked up. -/
private theorem refreshed?_of_looked {h h₁ : Host σ} (hl : Looked d h h₁) (hm : h.memo.Sound) (i : Identity) :
    refreshed? i d h₁ = refreshed? i d h := by
  have hm₁ := hl.quiet.sound hm
  unfold refreshed?
  rw [hl.eq_memo]
  simp only [mergedContent_memo _ d hm hm₁]

theorem record?_of_looked {h h₁ : Host σ} (hl : Looked d h h₁) (hm : h.memo.Sound) (i : Identity)
    (text : String) : (observedText i text h₁).record? d h₁ = (observedText i text h).record? d h := by
  have hm₁ := hl.quiet.sound hm
  rw [hl.eq_memo]
  exact record?_memo _ d hm hm₁

theorem refreshDeclarations_of_error {name : String} {h : Host σ} {e : HostError}
    (hi : (identify name none d h).1 = .error e) :
    refreshDeclarations name d h = (.error e, (identify name none d h).2) := by
  unfold refreshDeclarations
  rw [Action.bind_run_of_error (Action.run_of_answer hi)]

/-! ### Records that stay -/

private theorem version_ne {s : Store} {key : String} {r : Record} (hr : s.get? key = some r) (content raw : String) :
    (⟨s.nextVersion key, content, raw⟩ : Record) ≠ r := by
  intro heq
  refine nextVersion_ne_version s key ?_
  rw [Store.version, hr]
  exact congrArg Record.version heq

section

variable {h : Host σ} {key : String} {r : Record}

/-- A record stays if and only if nothing is stored in its place. -/
private theorem stays_iff {store : Store} {new : Option Record} {i : Identity} (hr : h.store.get? key = some r)
    (hstore : store.get? key = if key = i.normalized then new.or (h.store.get? key) else h.store.get? key)
    (hnew : ∀ r', new = some r' → ∃ content raw, r' = ⟨h.store.nextVersion i.normalized, content, raw⟩) :
    store.get? key = some r ↔ ¬ (i.normalized = key ∧ new.isSome) := by
  rw [hstore]
  by_cases hkey : key = i.normalized
  · rw [if_pos hkey]
    cases hn : new with
    | none => simpa using hr
    | some r' =>
      obtain ⟨content, raw, rfl⟩ := hnew r' hn
      -- what is stored has another version
      subst hkey
      simpa using version_ne hr content raw
  · rw [if_neg hkey]
    simpa [Ne.symm hkey] using hr

private theorem scriptChanged_stays_iff (hm : h.memo.Sound) (hr : h.store.get? key = some r) (path name : String)
    (before : Version) (text : String) :
    (scriptChanged path name before text d h).2.store.get? key = some r ↔
      ¬ ∃ i, (identify path none d h).1 = .ok i ∧ i.normalized = key ∧
        ((observedText i text h).record? d h).isSome := by
  cases hi : (identify path none d h).1 with
  | error e =>
    rw [scriptChanged_of_error hi]
    exact ⟨fun _ ⟨i, hi, _⟩ => (by cases hi), fun _ => hr⟩
  | ok i =>
    have hstays := stays_iff hr (scriptChanged_record hm hi name before text key) fun r' hr' => by
      obtain ⟨-, content, -, rfl⟩ := record?_eq_some_iff.1 hr'
      exact ⟨content, text, rfl⟩
    rw [hstays]
    simp

private theorem refreshDeclarations_stays_iff (hm : h.memo.Sound) (hr : h.store.get? key = some r) (name : String) :
    (refreshDeclarations name d h).2.store.get? key = some r ↔
      ¬ ∃ i, (identify name none d h).1 = .ok i ∧ i.normalized = key ∧ (refreshed? i d h).isSome := by
  cases hi : (identify name none d h).1 with
  | error e =>
    rw [refreshDeclarations_of_error hi]
    exact ⟨fun _ ⟨i, hi, _⟩ => (by cases hi), fun _ => hr⟩
  | ok i =>
    rw [stays_iff hr (refreshDeclarations_record hm hi key) fun r' => eq_of_refreshed?]
    simp

end

/-! ### Events -/

/-- The name under which a changed file is looked up. -/
def watchedName (path : String) : String := ((declarationBase? path).map (· ++ sourceExtension)).getD path

/-- A file that is no declaration file is looked up under its own path. -/
theorem watchedName_of_no_base {path : String} (hbase : declarationBase? path = none) : watchedName path = path := by
  rw [watchedName, hbase, Option.map_none, Option.getD_none]

theorem compiledSibling?_of_no_base {path : String} (hbase : declarationBase? path = none) (d : Disk) :
    compiledSibling? d path = none := by
  rw [compiledSibling?, hbase]
  rfl

/-- The compiled script that declarations describe differs from them in the extension alone. -/
theorem exists_of_compiledSibling {path compiled : String} (hsib : compiledSibling? d path = some compiled) :
    ∃ base extension, path = base ++ declarationExtension ∧ extension ∈ compiledExtensions ∧
      compiled = base ++ extension := by
  obtain ⟨base, hbase, hfirst⟩ := Option.bind_eq_some_iff.1 hsib
  unfold Disk.firstExisting at hfirst
  obtain ⟨extension, hextension, rfl⟩ := List.mem_map.1 (List.mem_of_find?_eq_some hfirst)
  exact ⟨base, extension, Text.beforeTail?_eq_some_iff.1 hbase, hextension, rfl⟩

/-- The name under which a removed file is looked up if it is not tracked itself. -/
def sourceName (path : String) : String := ((declarationBase? path).getD (withoutExtension path)) ++ sourceExtension

/-- A changed file is known to the host, or new files are tracked. -/
def Noticed (trackNew : Bool) (path : String) (d : Disk) (h : Host σ) : Prop :=
  trackNew = true ∨ ¬ h.store.version (knownKey (watchedName path) d h) < 0

theorem noticed_iff {trackNew : Bool} {path : String} {h : Host σ} : Noticed trackNew path d h ↔
    ¬ (h.store.version (knownKey (watchedName path) d h) < 0 ∧ (!trackNew) = true) := by
  cases trackNew <;> simp [Noticed]

/-- The text of a changed file is stored under a key. -/
def Overwrites (trackNew : Bool) (path key : String) (d : Disk) (h : Host σ) : Prop :=
  Noticed trackNew path d h ∧ ∃ text i, d.read path = .ok (.text text) ∧ (identify path none d h).1 = .ok i ∧
    i.normalized = key ∧ ((observedText i text h).record? d h).isSome

/-- A script is merged with its declarations again, and another text is stored under a key. -/
def Refreshes (compiled key : String) (d : Disk) (h : Host σ) : Prop :=
  ¬ h.store.version (knownKey compiled d h) < 0 ∧
    ∃ i, (identify compiled none d h).1 = .ok i ∧ i.normalized = key ∧ (refreshed? i d h).isSome

/-- The script with a key is dropped for a removed file. -/
def Drops (path key : String) (d : Disk) (h : Host σ) : Prop :=
  knownKey path d h = key ∨
    (h.store.contains (knownKey path d h) = false ∧ knownKey (sourceName path) d h = key)

/-- The creation or change of a file is one of the script with a key. -/
def Changes (trackNew : Bool) (path key : String) (d : Disk) (h : Host σ) : Prop :=
  isScript path = true ∧ d.isFile path = true ∧
    match compiledSibling? d path with
    | some compiled => Refreshes compiled key d h
    | none => Overwrites trackNew path key d h

/-- The removal of a file changes or drops the script with a key. -/
def Removes (path key : String) (d : Disk) (h : Host σ) : Prop :=
  isScript path = true ∧
    match compiledSibling? d path with
    | some compiled => Refreshes compiled key d h
    | none => Drops path key d h

/-- An event is one of the script with a key. -/
def Event.Concerns (trackNew : Bool) (key : String) (d : Disk) (h : Host σ) : Event → Prop
  | .created path => Changes trackNew path key d h
  | .modified path => Changes false path key d h
  | .removed path => Removes path key d h
  | .flushed => False

section

variable {h : Host σ} {key : String} {r : Record}

private theorem declarationsChanged_stays_iff (hm : h.memo.Sound) (hr : h.store.get? key = some r) (compiled : String) :
    (declarationsChanged compiled d h).2.store.get? key = some r ↔ ¬ Refreshes compiled key d h := by
  obtain ⟨h₁, hv, hl⟩ := fileVersion_run compiled d h
  have hr₁ : h₁.store.get? key = some r := hl.store ▸ hr
  unfold declarationsChanged Refreshes
  rw [Action.bind_run_of_ok hv]
  split
  · rename_i hneg
    exact ⟨fun _ hrefresh => hrefresh.1 hneg, fun _ => hr₁⟩
  · rename_i hpos
    rw [get?_bind_of_quiet (fun refreshed h₂ => ?_) h₁ key]
    · rw [refreshDeclarations_stays_iff (hl.quiet.sound hm) hr₁]
      simp only [hl.identify_answer, refreshed?_of_looked hl hm, hpos, not_false_eq_true, true_and]
    · split
      · exact Action.Keeps.bind (Quiet.keeps (fileVersion_quiet compiled d) h₂) (fun _ => .pure _) h₂ (.refl d h₂)
      · exact .refl d h₂

/-- What a change of a file comes to that is no declaration of a compiled script. -/
theorem fileChanged_run {path : String} (hs : isScript path = true) (hf : d.isFile path = true)
    (hsib : compiledSibling? d path = none) (trackNew : Bool) (h : Host σ) :
    ∃ h₁, Looked d h h₁ ∧ fileChanged path trackNew d h =
      if h.store.version (knownKey (watchedName path) d h) < 0 ∧ !trackNew then (.ok .ignored, h₁)
      else
        match d.read path with
        | .ok (.text text) =>
          let changed := scriptChanged path (watchedName path)
            (h.store.version (knownKey (watchedName path) d h)) text d h₁
          (changed.1.mapError .host, changed.2)
        | .ok .binary => (.error .notText, h₁)
        | .error cause => (.error (.unreadable cause), h₁) := by
  obtain ⟨h₁, hv, hl⟩ := fileVersion_run (watchedName path) d h
  refine ⟨h₁, hl, ?_⟩
  unfold watchedName at hv
  unfold fileChanged
  rw [if_neg (by simp [hs, hf]), hsib]
  simp only [hv]
  rfl

/-- A change of declarations is one of the compiled script beside them. -/
theorem fileChanged_of_sibling {path compiled : String} (hs : isScript path = true) (hf : d.isFile path = true)
    (hsib : compiledSibling? d path = some compiled) (trackNew : Bool) (h : Host σ) :
    fileChanged path trackNew d h =
      ((declarationsChanged compiled d h).1.mapError .host, (declarationsChanged compiled d h).2) := by
  unfold fileChanged
  rw [if_neg (by simp [hs, hf]), hsib]
  rfl

/-- What is no script or no file is ignored. -/
theorem fileChanged_of_ignored {path : String} (hfile : ¬ (isScript path = true ∧ d.isFile path = true))
    (trackNew : Bool) (h : Host σ) : fileChanged path trackNew d h = (.ok .ignored, h) := by
  have hneither : (isScript path && d.isFile path) = false :=
    Bool.eq_false_iff.2 fun hboth => hfile (by simpa using hboth)
  unfold fileChanged
  rw [← Bool.not_and, hneither]
  rfl

theorem fileRemoved_of_sibling {path compiled : String} (hs : isScript path = true)
    (hsib : compiledSibling? d path = some compiled) (h : Host σ) :
    fileRemoved path d h = declarationsChanged compiled d h := by
  unfold fileRemoved
  rw [if_neg (by simp [hs]), Action.bind_disk_run, hsib]

theorem fileRemoved_of_ignored {path : String} (hs : ¬ isScript path = true) (h : Host σ) :
    fileRemoved path d h = (.ok .ignored, h) := by
  unfold fileRemoved
  rw [if_pos (by simpa using hs)]
  rfl

private theorem fileChanged_stays_iff (hm : h.memo.Sound) (hr : h.store.get? key = some r) (trackNew : Bool)
    (path : String) : (fileChanged path trackNew d h).2.store.get? key = some r ↔ ¬ Changes trackNew path key d h := by
  unfold Changes
  by_cases hfile : isScript path = true ∧ d.isFile path = true
  · obtain ⟨hs, hf⟩ := hfile
    simp only [hs, hf, true_and]
    cases hsib : compiledSibling? d path with
    | some compiled =>
      rw [fileChanged_of_sibling hs hf hsib]
      exact declarationsChanged_stays_iff hm hr compiled
    | none =>
      obtain ⟨h₁, hl, hrun⟩ := fileChanged_run hs hf hsib trackNew h
      have hr₁ : h₁.store.get? key = some r := hl.store ▸ hr
      unfold Overwrites
      rw [hrun]
      split
      · -- the file is not known
        rename_i hunknown
        exact ⟨fun _ hover => noticed_iff.1 hover.1 hunknown, fun _ => hr₁⟩
      · rename_i hknown
        have hnoticed : Noticed trackNew path d h := noticed_iff.2 hknown
        cases hread : d.read path with
        | error cause => simpa using hr₁
        | ok content =>
          cases content with
          | binary => simpa using hr₁
          | text text =>
            dsimp only
            rw [scriptChanged_stays_iff (hl.quiet.sound hm) hr₁]
            simp only [hl.identify_answer, record?_of_looked hl hm]
            simp [hnoticed]
  · rw [fileChanged_of_ignored hfile]
    exact ⟨fun _ hchange => hfile ⟨hchange.1, hchange.2.1⟩, fun _ => hr⟩

theorem fileRemoved_run {path : String} (hs : isScript path = true) (hsib : compiledSibling? d path = none)
    (h : Host σ) : fileRemoved path d h = (removeFile path >>= fun removed =>
      if removed = true then pure (.removed path)
      else if sourceName path = path then pure .ignored
      else removeFile (sourceName path) >>= fun removed =>
        if removed = true then pure (.removed (sourceName path)) else pure .ignored : Action σ Outcome) d h := by
  unfold fileRemoved
  rw [if_neg (by simp [hs]), Action.bind_disk_run, hsib, ← ite_not (p := sourceName path = path)]
  rfl

/-- For a removed file that is no declaration of a compiled script, one script is dropped or none. -/
theorem fileRemoved_record {path : String} (hs : isScript path = true) (hsib : compiledSibling? d path = none)
    (hr : h.store.get? key = some r) :
    (Drops path key d h → (fileRemoved path d h).2.store.get? key = none) ∧
      (¬ Drops path key d h → (fileRemoved path d h).2.store.get? key = some r) := by
  have htracked : h.store.contains key = true := by rw [Table.contains, hr]; rfl
  obtain ⟨h₁, hremove, hstore, hknown⟩ := removeFile_run path d h
  rw [fileRemoved_run hs hsib, Action.bind_run_of_ok hremove]
  unfold Drops
  cases hc : h.store.contains (knownKey path d h) with
  | true =>
    -- the file itself is tracked and dropped
    rw [if_pos rfl]
    show (_ → h₁.store.get? key = none) ∧ (_ → h₁.store.get? key = some r)
    rw [hstore, Table.get?_erase]
    by_cases hkey : key = knownKey path d h
    · simp [hkey]
    · simp [hkey, Ne.symm hkey, hr]
  | false =>
    have hne : knownKey path d h ≠ key := by
      rintro rfl
      rw [htracked] at hc
      cases hc
    have hr₁ : h₁.store.get? key = some r := by
      rw [hstore, Table.get?_erase, if_neg (Ne.symm hne), hr]
    rw [if_neg (by decide)]
    by_cases hsource : sourceName path = path
    · rw [if_pos hsource, hsource]
      exact ⟨fun hdrop => absurd (hdrop.elim id (·.2)) hne, fun _ => hr₁⟩
    · -- the source is known by the same key as before
      rw [if_neg hsource]
      obtain ⟨h₂, hremove₂, hstore₂, -⟩ := removeFile_run (sourceName path) d h₁
      rw [hknown hc] at hremove₂ hstore₂
      have hend : ∀ removed h₃, Quiet d h₃ ((if removed = true then pure (.removed (sourceName path))
          else pure .ignored : Action σ Outcome) d h₃).2 := by
        intro removed h₃
        cases removed <;> exact .refl d h₃
      rw [get?_bind_of_quiet hend, hremove₂, hstore₂, Table.get?_erase, hr₁]
      by_cases hkey : key = knownKey (sourceName path) d h
      · simp [← hkey]
      · simp [hkey, Ne.symm hkey, hne]

private theorem fileRemoved_stays_iff (hm : h.memo.Sound) (hr : h.store.get? key = some r) (path : String) :
    (fileRemoved path d h).2.store.get? key = some r ↔ ¬ Removes path key d h := by
  unfold Removes
  by_cases hs : isScript path = true
  · simp only [hs, true_and]
    cases hsib : compiledSibling? d path with
    | some compiled =>
      rw [fileRemoved_of_sibling hs hsib]
      exact declarationsChanged_stays_iff hm hr compiled
    | none =>
      obtain ⟨hdrop, hstay⟩ := fileRemoved_record hs hsib hr
      refine ⟨fun hsame hd => ?_, hstay⟩
      rw [hdrop hd] at hsame
      cases hsame
  · rw [fileRemoved_of_ignored hs]
    exact ⟨fun _ hremove => hs hremove.1, fun _ => hr⟩

end

/-- An event leaves a record exactly as it was, its version and both of its texts, if and only if it does not concern
the key of the record. -/
theorem record_unchanged_iff {h : Host σ} (hreach : h.Reachable) {key : String} {r : Record}
    (hr : h.store.get? key = some r) (trackNew : Bool) (event : Event) (d : Disk) :
    (applyEvent trackNew event d h).2.store.get? key = some r ↔ ¬ event.Concerns trackNew key d h := by
  cases event with
  | created path => exact fileChanged_stays_iff hreach.sound hr trackNew path
  | modified path => exact fileChanged_stays_iff hreach.sound hr false path
  | removed path => exact fileRemoved_stays_iff hreach.sound hr path
  | flushed => exact ⟨fun _ => id, fun _ => hr⟩

/-- A change of a compiled script is one of the source beside it, whose text it replaces. -/
theorem record_changed_beside : ∃ (d : Disk) (h : Host SyntaxEngine),
    h.store.get? "/r/a.ts" = some ⟨1, "1", "1"⟩ ∧
    ((applyEvent false (.modified "/r/a.js") d h).2.store.get? "/r/a.ts" = some ⟨1, "1", "1"⟩ ↔
      ¬ (Event.modified "/r/a.js").Concerns false "/r/a.ts" d h) ∧
    (applyEvent false (.modified "/r/a.js") d h).2.store.get? "/r/a.ts" = some ⟨2, "2", "2"⟩ :=
  ⟨(Disk.empty.write "/r/a.ts" (.text "1")).write "/r/a.js" (.text "2"),
    (fresh ⟨Resolution.nodeResolver, Merge.typePrelude, SyntaxEngine.engine⟩ .fresh "/r").after
      [(Disk.empty.write "/r/a.ts" (.text "1"), .addFile { path := "/r/a.ts" })],
    by decide +kernel,
    record_unchanged_iff ⟨_, _, unused_fresh .., rfl⟩ (by decide +kernel) ..,
    by decide +kernel⟩

end ScriptHost.Host
