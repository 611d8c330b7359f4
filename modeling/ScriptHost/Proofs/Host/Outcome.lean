import ScriptHost.Proofs.Host.Adding
import ScriptHost.Proofs.Host.Incremental
import ScriptHost.Proofs.Host.Storing
import ScriptHost.Proofs.Host.Sync

/-!
# What is answered to an event

What is answered to an event says what has become of the records (`Truthful`): that nothing has changed, that a text has
been stored and its version, or that a script has been dropped.  To find out whether a text has been stored, the host
compares versions under the name of the file, but the text is stored under the key that the file has been identified
with.  If these are not the same, the text is stored without being reported (`Unreported`), and in no other case does an
answer say anything that is not so (`applyEvent_truthful_iff`).
-/

namespace ScriptHost.Host

open ScriptHost.Analysis ScriptHost.Path

variable {σ : Type} {d : Disk}

/-! ### Answers -/

/-- All records are as before. -/
def SameRecords (before after : Store) : Prop := ∀ key, after.get? key = before.get? key

/-- Between two states of a store, a record has been stored under a key, and all others are as before. -/
structure StoredAt (key : String) (r : Record) (before after : Store) : Prop where
  stored : after.get? key = some r
  news : before.get? key ≠ some r
  others : ∀ other ≠ key, after.get? other = before.get? other

/-- Between two states of a store, the record of a key has been dropped, and all others are as before. -/
structure DroppedAt (key : String) (before after : Store) : Prop where
  tracked : before.contains key = true
  gone : after.get? key = none
  others : ∀ other ≠ key, after.get? other = before.get? other

/-- The answer to an event says what has become of the records. -/
def Truthful (before after : Store) : Except WatchError Outcome → Prop
  | .error _ | .ok .ignored | .ok (.unchanged _) => SameRecords before after
  | .ok (.updated _ version) => ∃ key r, StoredAt key r before after ∧ r.version = version
  | .ok (.removed _) => ∃ key, DroppedAt key before after

private theorem SameRecords.refl (s : Store) : SameRecords s s := fun _ => rfl

private theorem storedAt_of_next {before after : Store} {key : String} {r : Record}
    (hstore : ∀ other, after.get? other = if other = key then some r else before.get? other)
    (hr : r.version = before.nextVersion key) : StoredAt key r before after := by
  refine ⟨by rw [hstore, if_pos rfl], fun hold => ?_, fun other hne => by rw [hstore, if_neg hne]⟩
  have hv : before.version key = r.version := by rw [Store.version, hold]; rfl
  exact nextVersion_ne_version before key (hr.symm.trans hv.symm)

namespace StoredAt

variable {before after : Store} {key : String} {r : Record}

private theorem not_same (hs : StoredAt key r before after) : ¬ SameRecords before after :=
  fun hsame => hs.news ((hsame key).symm.trans hs.stored)

/-- What has been stored is found under one key alone. -/
private theorem truthful_updated_iff (hs : StoredAt key r before after) {path : String} {version : Version} :
    Truthful before after (.ok (.updated path version)) ↔ version = r.version := by
  constructor
  · rintro ⟨key', r', hs', rfl⟩
    have hkey : key' = key := by
      by_contra hne
      exact hs'.news ((hs.others key' hne).symm.trans hs'.stored)
    rw [hkey] at hs'
    rw [Option.some.inj (hs.stored.symm.trans hs'.stored)]
  · rintro rfl
    exact ⟨key, r, hs, rfl⟩

end StoredAt

/-! ### Scripts that are added -/

private theorem contains_of_commit {o : Observation} (ho : o.identity.WellFormed) {h h₁ : Host σ} (hm : h.memo.Sound)
    (hnews : o.needsUpdate = h.store.needsUpdate o.path o.raw) {stored : Bool}
    (hc : commit o d h = (.ok stored, h₁)) : h₁.store.contains o.path = true := by
  have hstored := stored_of_commit (.of_wellFormed ho d) hm hnews hc
  rw [needsUpdate_eq_false_iff] at hstored
  obtain ⟨r, hr, -⟩ := Option.map_eq_some_iff.1 hstored
  rw [Table.contains, hr]
  rfl

theorem UpToDate.of_looked {n : Nat} {h h₁ : Host SyntaxEngine} (hu : UpToDate n h) (hl : Looked d h h₁) :
    UpToDate n h₁ := by
  rw [hl.eq_memo]
  exact ⟨hu.engine, hu.numbered, hu.remembered⟩

/-- The syntax engine can read every tracked script. -/
private theorem parsedUnit_of_tracked {n : Nat} {h : Host SyntaxEngine} (hu : UpToDate n h) {key : String}
    (hc : h.store.contains key = true) (d : Disk) : ∃ u, (parsedUnit key d h).1 = .ok u := by
  obtain ⟨record, hrecord⟩ := Option.isSome_iff_exists.1 hc
  have hread := hu.sourceFile_eq key
  rw [hrecord] at hread
  unfold parsedUnit
  rw [Action.bind_run_of_ok (Action.ask_run ..), hread]
  exact ⟨_, rfl⟩

/-- What has been observed cannot be added without its imports if and only if it cannot be committed. -/
private theorem addObserved_eq_error_iff {n : Nat} {h : Host SyntaxEngine} (hu : UpToDate n h) (hm : h.memo.Sound)
    (hn : n + 2 < 2 ^ 63) {o : Observation} (ho : o.identity.WellFormed)
    (hnews : o.needsUpdate = h.store.needsUpdate o.path o.raw) {e : HostError} :
    (addObserved o false d h).1 = .error e ↔ (commit o d h).1 = .error e := by
  unfold addObserved
  rcases hc : commit o d h with ⟨e' | stored, h₁⟩
  · rw [Action.bind_run_of_error hc]
    simp
  · -- the script is tracked now, so the engine can read it
    have htakes : Takes (fun _ => True) d 1 (commit o : Action SyntaxEngine _) := commit_takes trivial
    have hu₁ := hu.of_takes htakes hm (by omega)
    rw [hc] at hu₁
    obtain ⟨u, hunit⟩ := parsedUnit_of_tracked hu₁ (contains_of_commit ho hm hnews hc) d
    have hne : (parsedUnit o.path d h₁).1 ≠ .error e := by rw [hunit]; exact nofun
    rw [Action.bind_run_of_ok hc]
    cases stored <;> exact ⟨fun herror => absurd herror hne, nofun⟩

private theorem addFile_of_error {n : Nat} {h h' : Host SyntaxEngine} (hu : UpToDate n h) (hm : h.memo.Sound)
    (hn : n + 2 < 2 ^ 63) {r : Request} (himports : r.withImports = false) {e : HostError}
    (hadd : addFile r d h = (.error e, h')) : SameRecords h.store h'.store := by
  unfold addFile at hadd
  have hq := observe_quiet r.path r.origin r.content d h
  rcases ho : (observe r.path r.origin r.content : Action SyntaxEngine _) d h with ⟨e' | o, h₁⟩ <;> rw [ho] at hq
  · rw [Action.bind_run_of_error ho] at hadd
    cases hadd
    exact hq.store
  · rw [Action.bind_run_of_ok ho, himports] at hadd
    have hwf := wellFormed_of_observe hm ho
    have hm₁ := hq.sound hm
    have hnews : o.needsUpdate = h₁.store.needsUpdate o.path o.raw := by
      obtain ⟨i, h₂, -, hi⟩ := Action.bind_eq_ok.1 ho
      obtain ⟨rfl, -, rfl, hnews⟩ := observeIdentity_eq_ok.1 hi
      exact hnews
    have hu₁ := hu.of_takes (K := fun _ => True) (observe_takes (d := d) r.path r.origin r.content) hm (by omega)
    rw [ho] at hu₁
    have hcommit := (addObserved_eq_error_iff hu₁ hm₁ hn hwf hnews).1 (congrArg Prod.fst hadd)
    have hrun := Action.run_of_answer hcommit
    have hsame := commit_of_error (.of_wellFormed hwf d) hm₁ hrun
    have hstate : h' = (commit o d h₁).2 := by
      have := congrArg Prod.snd hadd
      unfold addObserved at this
      rw [Action.bind_run_of_error hrun] at this
      exact this.symm
    rw [hstate]
    exact fun key => (hsame key).trans (hq.store key)

/-- A script whose text is given cannot be added if and only if the text is news and cannot be merged. -/
theorem addFile_eq_error_iff {n : Nat} {h : Host SyntaxEngine} (hu : UpToDate n h) (hm : h.memo.Sound)
    (hn : n + 2 < 2 ^ 63) {path : String} {i : Identity} (hi : (identify path none d h).1 = .ok i) {text : String}
    {e : HostError} : (addFile { path, content := some text } d h).1 = .error e ↔
      h.store.needsUpdate i.normalized text = true ∧ (mergedContent (observedText i text h) d h).1 = .error e := by
  have hwf := wellFormed_of_identify hm (Action.run_of_answer hi)
  have hl : Looked d h (identify path none d h).2 := .inr ⟨path, rfl⟩
  have hm₁ := hl.quiet.sound hm
  have hobserve := observe_run hi (some text)
  have hmerge := mergedContent_memo (observedText i text h) d hm hm₁
  rw [← hl.eq_memo] at hmerge
  unfold addFile
  rw [Action.bind_run_of_ok hobserve]
  have hadd := addObserved_eq_error_iff (d := d) (e := e) (hu.of_looked hl) hm₁ hn
    (show (observedText i text h).identity.WellFormed from hwf) rfl
  rw [commit_eq_error_iff, hmerge] at hadd
  exact hadd

/-- By what a name is known depends on whether it is tracked and what it stands for. -/
private theorem knownKey_congr {name : String} {h h₁ : Host σ} (hc : h₁.store.contains name = h.store.contains name)
    (hi : (identify name none d h₁).1 = (identify name none d h).1) : knownKey name d h₁ = knownKey name d h := by
  unfold knownKey
  rw [hc, hi]

section

variable {name key : String} {r : Record} {h h₁ : Host σ}

/-- A name is known as before after something has been stored, unless it is the key of what has been stored. -/
private theorem knownKey_of_stored (hs : StoredAt key r h.store h₁.store)
    (hi : (identify name none d h₁).1 = (identify name none d h).1) :
    knownKey name d h₁ = if name = key then key else knownKey name d h := by
  by_cases hkey : name = key
  · have hc : h₁.store.contains name = true := by rw [hkey, Table.contains, hs.stored]; rfl
    rw [if_pos hkey, ← hkey, knownKey, if_pos (by simp [hc])]
  · rw [if_neg hkey, knownKey_congr (by rw [Table.contains, hs.others name hkey, Table.contains]) hi]

/-- The versions under a name before and after something has been stored tell of it if and only if the name was known by
the key, or has become known by it and the versions differ. -/
private theorem versions_tell_iff (hs : StoredAt key r h.store h₁.store) (hr : r.version = h.store.nextVersion key)
    (hi : (identify name none d h₁).1 = (identify name none d h).1) :
    (h₁.store.version (knownKey name d h₁) ≠ h.store.version (knownKey name d h) ∧
        h₁.store.version (knownKey name d h₁) = r.version) ↔
      ¬ (knownKey name d h ≠ key ∧ (name = key → h.store.version (knownKey name d h) = 1)) := by
  have hnow : h₁.store.version key = r.version := by rw [Store.version, hs.stored]; rfl
  rw [knownKey_of_stored hs hi]
  by_cases hkey : knownKey name d h = key
  · rw [hkey, ite_self, hnow, hr]
    simp [nextVersion_ne_version]
  · by_cases hname : name = key
    · -- the name is the key, but was not tracked
      have hnew : h.store.get? key = none := by
        by_contra hold
        have hc : h.store.contains name = true := by
          rw [hname, Table.contains, Option.isSome_iff_ne_none]
          exact hold
        exact hkey (by rw [knownKey, if_pos (by simp [hc]), hname])
      have hone : r.version = 1 := by rw [hr, Store.nextVersion, hnew]; rfl
      rw [if_pos hname, hnow, hone]
      exact ⟨fun hne htold => hne.1 (htold.2 hname).symm, fun hnot => ⟨fun hv => hnot ⟨hkey, fun _ => hv.symm⟩, rfl⟩⟩
    · have hold : h₁.store.version (knownKey name d h) = h.store.version (knownKey name d h) := by
        rw [Store.version, hs.others _ hkey, Store.version]
      rw [if_neg hname, hold]
      exact ⟨fun hne => absurd rfl hne.1, fun hnot => absurd ⟨hkey, fun heq => absurd heq hname⟩ hnot⟩

end

/-! ### Events about scripts -/

/-- The text of a changed file is stored under another key than that under which the file is known by its name.  (If the
key is the name itself, which is tracked then, the former version must be that of a first text.) -/
def Unreported (trackNew : Bool) (path : String) (d : Disk) (h : Host σ) : Prop :=
  isScript path = true ∧ d.isFile path = true ∧ compiledSibling? d path = none ∧
    ∃ key, Overwrites trackNew path key d h ∧ knownKey (watchedName path) d h ≠ key ∧
      (watchedName path = key → h.store.version (knownKey (watchedName path) d h) = 1)

/-- What is answered for a new text is true unless it is stored under another key than the name is known by. -/
private theorem scriptChanged_truthful_iff {n : Nat} {h : Host SyntaxEngine} (hu : UpToDate n h) (hm : h.memo.Sound)
    (hn : n + 2 < 2 ^ 63) (path name text : String) :
    let changed := scriptChanged path name (h.store.version (knownKey name d h)) text d h
    Truthful h.store changed.2.store (changed.1.mapError .host) ↔
      ¬ ∃ i, (identify path none d h).1 = .ok i ∧ ((observedText i text h).record? d h).isSome ∧
        knownKey name d h ≠ i.normalized ∧ (name = i.normalized → h.store.version (knownKey name d h) = 1) := by
  intro changed
  cases hi : (identify path none d h).1 with
  | error e =>
    have hrun : changed = (.error e, (identify path none d h).2) := scriptChanged_of_error hi ..
    rw [hrun]
    refine ⟨fun _ ⟨i, hi, _⟩ => ?_, fun _ => SameRecords.refl h.store⟩
    cases hi
  | ok i =>
    have hrecord := addFile_stores (r := { path, content := some text }) hm hi rfl rfl
    have hanswer := addFile_keeps_answer name (r := { path, content := some text }) rfl rfl
      (identify name none d h).1 h rfl
    simp only [Except.ok.injEq, exists_eq_left']
    rcases hadd : addFile { path, content := some text } d h with ⟨e | u, h₁⟩ <;> rw [hadd] at hrecord hanswer
    · -- nothing is stored if the script cannot be added
      have hsame := addFile_of_error hu hm hn rfl hadd
      have hrun : changed = (.error e, h₁) := Action.bind_run_of_error hadd
      rw [hrun]
      refine ⟨fun _ hstored => ?_, fun _ => hsame⟩
      obtain ⟨r, hr⟩ := Option.isSome_iff_exists.1 hstored.1
      obtain ⟨-, content, -, hrv⟩ := record?_eq_some_iff.1 hr
      simp only [hr, Option.some_or] at hrecord
      exact (storedAt_of_next hrecord (congrArg Record.version hrv)).not_same hsame
    · obtain ⟨h₂, hv, hl⟩ := fileVersion_run name d h₁
      have hrun : changed = (.ok (if h₁.store.version (knownKey name d h₁) = h.store.version (knownKey name d h)
          then .unchanged name else .updated name (h₁.store.version (knownKey name d h₁))), h₂) := by
        show scriptChanged path name (h.store.version (knownKey name d h)) text d h = _
        unfold scriptChanged
        rw [Action.bind_run_of_ok hadd, Action.bind_run_of_ok hv]
        split <;> rfl
      rw [hrun]
      dsimp only [Except.mapError]
      rw [hl.store]
      cases hr : (observedText i text h).record? d h with
      | none =>
        -- the text is stored already, and the name is known as before
        simp only [hr, Option.none_or, ite_self] at hrecord
        have hsame : SameRecords h.store h₁.store := hrecord
        have hknown := knownKey_congr (by rw [Table.contains, hsame, Table.contains]) hanswer
        have hversion : h₁.store.version (knownKey name d h₁) = h.store.version (knownKey name d h) := by
          rw [Store.version, hsame, hknown, Store.version]
        rw [if_pos hversion]
        exact ⟨fun _ hstored => by simp at hstored, fun _ => hsame⟩
      | some r =>
        obtain ⟨-, content, -, hrv⟩ := record?_eq_some_iff.1 hr
        simp only [hr, Option.some_or] at hrecord
        have hversion : r.version = h.store.nextVersion i.normalized := congrArg Record.version hrv
        have hstored : StoredAt i.normalized r h.store h₁.store := storedAt_of_next hrecord hversion
        have htell := versions_tell_iff hstored hversion hanswer
        simp only [Option.isSome_some, true_and]
        rw [← htell]
        split
        · rename_i hv
          exact ⟨fun hsame => absurd hsame hstored.not_same, fun hne => absurd hv hne.1⟩
        · rename_i hv
          exact ⟨fun htrue => ⟨hv, hstored.truthful_updated_iff.1 htrue⟩,
            fun htrue => hstored.truthful_updated_iff.2 htrue.2⟩

/-- The path of a compiled script is not that of a source, since the last three characters are others. -/
theorem isEngineName_compiled {extension : String} (hext : extension ∈ compiledExtensions) (base : String) :
    isEngineName (base ++ extension) = false := by
  refine Bool.eq_false_iff.2 fun hengine => ?_
  rw [isEngineName, Bool.or_eq_true] at hengine
  simp only [compiledExtensions, List.mem_cons, List.not_mem_nil, or_false] at hext
  rcases hengine with htail | htail
  all_goals
    obtain ⟨body, hbody⟩ := Text.hasTail_iff.1 htail
    have heq := congrArg (fun s => s.toList.reverse.take 3) hbody
    rcases hext with rfl | rfl | rfl | rfl <;> simp at heq

private theorem isEngineName_of_compiledSibling {path compiled : String}
    (hsib : compiledSibling? d path = some compiled) : isEngineName compiled = false := by
  obtain ⟨base, extension, -, hext, rfl⟩ := exists_of_compiledSibling hsib
  exact isEngineName_compiled hext base

theorem StoredIn.untracked {s : Store} (hs : StoredIn EngineKey s) {path : String} (hp : isEngineName path = false) :
    s.contains path = false := by
  cases hr : s.get? path with
  | none => rw [Table.contains, hr]; rfl
  | some r => exact absurd (hs path r hr) (by rw [EngineKey, hp]; decide)

/-- What is answered to an event about declarations is true. -/
private theorem declarationsChanged_truthful {h : Host σ} (hm : h.memo.Sound) (hkeys : StoredIn EngineKey h.store)
    {compiled : String} (hc : isEngineName compiled = false) :
    Truthful h.store (declarationsChanged compiled d h).2.store ((declarationsChanged compiled d h).1.mapError .host) := by
  obtain ⟨h₁, hv, hl⟩ := fileVersion_run compiled d h
  have hm₁ : h₁.memo.Sound := hl.quiet.sound hm
  unfold declarationsChanged
  rw [Action.bind_run_of_ok hv, ← hl.store]
  split
  · exact SameRecords.refl h₁.store
  · cases hi : (identify compiled none d h₁).1 with
    | error e =>
      rw [Action.bind_run_of_error (refreshDeclarations_of_error hi)]
      exact SameRecords.refl h₁.store
    | ok i =>
      have hrecord := refreshDeclarations_record hm₁ hi
      have hanswer := refreshDeclarations_answer hm₁ hi
      have hkept := refreshDeclarations_keeps_answer compiled compiled (.ok i) h₁ hi
      rcases hr : refreshDeclarations compiled d h₁ with ⟨e | refreshed, h₂⟩ <;> rw [hr] at hrecord hanswer hkept
      · rw [Action.bind_run_of_error hr]
        have hnone : refreshed? i d h₁ = none := by simpa [Except.toOption] using hanswer.symm
        simp only [hnone, Option.none_or, ite_self] at hrecord
        exact hrecord
      · rw [Action.bind_run_of_ok hr]
        cases refreshed with
        | false =>
          have hnone : refreshed? i d h₁ = none := by simpa [Except.toOption] using hanswer.symm
          simp only [hnone, Option.none_or, ite_self] at hrecord
          exact hrecord
        | true =>
          obtain ⟨r, hnew⟩ := Option.isSome_iff_exists.1 hanswer.symm
          simp only [hnew, Option.some_or] at hrecord
          obtain ⟨content, raw, hrv⟩ := eq_of_refreshed? hnew
          have hversion : r.version = h₁.store.nextVersion i.normalized := congrArg Record.version hrv
          -- the compiled script is known by its key
          have huntracked : h₂.store.contains compiled = false := by
            have hwf := wellFormed_of_identify hm₁ (Action.run_of_answer hi)
            have hne : compiled ≠ i.normalized := by
              rintro rfl
              rw [hwf.isEngineName] at hc
              cases hc
            rw [Table.contains, hrecord, if_neg hne, hl.store]
            exact hkeys.untracked hc
          have hknown := knownKey_of_identified hc huntracked hkept
          obtain ⟨h₃, hv₃, hl₃⟩ := fileVersion_run compiled d h₂
          rw [if_pos rfl, Action.bind_run_of_ok hv₃, hknown]
          refine ⟨i.normalized, r, ?_, ?_⟩
          · show StoredAt i.normalized r h₁.store h₃.store
            rw [hl₃.store]
            exact storedAt_of_next hrecord hversion
          · show r.version = h₂.store.version i.normalized
            have hstored : h₂.store.get? i.normalized = some r := by rw [hrecord, if_pos rfl]
            rw [Store.version, hstored]
            rfl

/-! ### Removals -/

/-- A removal drops the script that a name is known by, if it is tracked, and nothing else. -/
private theorem removeFile_drops {name : String} {h h₁ : Host σ} {removed : Bool}
    (hrun : removeFile name d h = (.ok removed, h₁)) :
    if removed then DroppedAt (knownKey name d h) h.store h₁.store else SameRecords h.store h₁.store := by
  obtain ⟨h', hrun', hstore, -⟩ := removeFile_run name d h
  obtain ⟨hremoved, rfl⟩ := Prod.mk.inj (hrun'.symm.trans hrun)
  have hremoved := Except.ok.inj hremoved
  have hget : ∀ key, h'.store.get? key = if key = knownKey name d h then none else h.store.get? key := fun key => by
    rw [hstore, Table.get?_erase]
  cases removed with
  | true => exact ⟨hremoved, by rw [hget, if_pos rfl], fun other hne => by rw [hget, if_neg hne]⟩
  | false =>
    intro key
    rw [hget]
    split
    · rename_i hkey
      rw [hkey]
      exact (by simpa [Table.contains] using hremoved : h.store.get? (knownKey name d h) = none).symm
    · rfl

/-- What is answered to the removal of a file is true. -/
private theorem fileRemoved_truthful {h : Host σ} (hm : h.memo.Sound) (hkeys : StoredIn EngineKey h.store)
    (path : String) : Truthful h.store (fileRemoved path d h).2.store ((fileRemoved path d h).1.mapError .host) := by
  by_cases hs : isScript path = true
  · cases hsib : compiledSibling? d path with
    | some compiled =>
      rw [fileRemoved_of_sibling hs hsib]
      exact declarationsChanged_truthful hm hkeys (isEngineName_of_compiledSibling hsib)
    | none =>
      rw [fileRemoved_run hs hsib]
      obtain ⟨h₁, hremove, -⟩ := removeFile_run path d h
      have hdrops := removeFile_drops hremove
      rw [Action.bind_run_of_ok hremove]
      cases hc : h.store.contains (knownKey path d h) with
      | true =>
        rw [hc, if_pos rfl] at hdrops
        rw [if_pos rfl]
        exact ⟨_, hdrops⟩
      | false =>
        rw [hc, if_neg (by decide)] at hdrops
        rw [if_neg (by decide)]
        by_cases hsource : sourceName path = path
        · rw [if_pos hsource]
          exact hdrops
        · rw [if_neg hsource]
          obtain ⟨h₂, hremove₂, -⟩ := removeFile_run (sourceName path) d h₁
          have hdrops₂ := removeFile_drops hremove₂
          rw [Action.bind_run_of_ok hremove₂]
          -- nothing has been dropped before
          cases hc₂ : h₁.store.contains (knownKey (sourceName path) d h₁) with
          | true =>
            rw [hc₂, if_pos rfl] at hdrops₂
            rw [if_pos rfl]
            refine ⟨knownKey (sourceName path) d h₁, ?_, hdrops₂.gone, fun other hne => ?_⟩
            · rw [← hdrops₂.tracked, Table.contains, Table.contains, hdrops]
            · exact (hdrops₂.others other hne).trans (hdrops other)
          | false =>
            rw [hc₂, if_neg (by decide)] at hdrops₂
            rw [if_neg (by decide)]
            exact fun key => (hdrops₂ key).trans (hdrops key)
  · rw [fileRemoved_of_ignored hs]
    exact SameRecords.refl h.store

/-! ### Events -/

/-- What is answered to the creation or change of a file is true unless its text is stored without being reported. -/
private theorem fileChanged_truthful_iff {n : Nat} {h : Host SyntaxEngine} (hu : UpToDate n h) (hm : h.memo.Sound)
    (hkeys : StoredIn EngineKey h.store) (hn : n + 2 < 2 ^ 63) (path : String) (trackNew : Bool) :
    Truthful h.store (fileChanged path trackNew d h).2.store (fileChanged path trackNew d h).1 ↔
      ¬ Unreported trackNew path d h := by
  unfold Unreported
  by_cases hfile : isScript path = true ∧ d.isFile path = true
  · obtain ⟨hs, hf⟩ := hfile
    simp only [hs, hf, true_and]
    cases hsib : compiledSibling? d path with
    | some compiled =>
      rw [fileChanged_of_sibling hs hf hsib]
      have htrue := declarationsChanged_truthful (d := d) hm hkeys (isEngineName_of_compiledSibling hsib)
      simpa using htrue
    | none =>
      obtain ⟨h₁, hl, hrun⟩ := fileChanged_run hs hf hsib trackNew h
      rw [hrun]
      unfold Overwrites
      split
      · -- the file is not known
        rename_i hunknown
        refine ⟨fun _ hover => ?_, fun _ => ?_⟩
        · obtain ⟨-, key, ⟨hnoticed, -⟩, -⟩ := hover
          exact noticed_iff.1 hnoticed hunknown
        · rw [hl.store]
          exact SameRecords.refl h.store
      · rename_i hknown
        have hsame : SameRecords h.store h₁.store := fun key => by rw [hl.store]
        cases hread : d.read path with
        | error cause => simp [Truthful, hsame]
        | ok content =>
          cases content with
          | binary => simp [Truthful, hsame]
          | text text =>
            have hchanged := scriptChanged_truthful_iff (d := d) (hu.of_looked hl) (hl.quiet.sound hm) hn path
              (watchedName path) text
            simp only [hl.store, hl.knownKey, hl.identify_answer, record?_of_looked hl hm] at hchanged
            dsimp only
            rw [hchanged]
            simp [noticed_iff.2 hknown]
  · rw [fileChanged_of_ignored hfile]
    exact ⟨fun _ hunreported => hfile ⟨hunreported.1, hunreported.2.1⟩, fun _ => SameRecords.refl h.store⟩

/-- A text is stored for an event without being reported. -/
def Event.Unreported (trackNew : Bool) (d : Disk) (h : Host σ) : Event → Prop
  | .created path => Host.Unreported trackNew path d h
  | .modified path => Host.Unreported false path d h
  | .removed _ | .flushed => False

/-- After every run of a host that uses the syntax engine, whatever has happened on the disk, the answer to an event says
what has become of the records, unless a text is stored without being reported. -/
theorem applyEvent_truthful_iff {h₀ : Host SyntaxEngine} (hu : h₀.Unused) (he : h₀.tools.engine = SyntaxEngine.engine)
    (hs : h₀.engineState = .fresh) {run : List (Disk × Operation)} (hrun : ∀ x ∈ run, x.2.Admitted EngineKey)
    (hlen : run.length + 2 < 2 ^ 63) (trackNew : Bool) (event : Event) (d : Disk) :
    Truthful (h₀.after run).store (applyEvent trackNew event d (h₀.after run)).2.store
        (applyEvent trackNew event d (h₀.after run)).1 ↔
      ¬ event.Unreported trackNew d (h₀.after run) := by
  have hm : (h₀.after run).memo.Sound := sound_after hu.sound run
  have hup : UpToDate run.length (h₀.after run) := upToDate_after hu he hs (by omega)
  have hkeys : StoredIn EngineKey (h₀.after run).store := storedIn_after admitsAll_engineKey hu hrun
  cases event with
  | created path => exact fileChanged_truthful_iff hup hm hkeys hlen path trackNew
  | modified path => exact fileChanged_truthful_iff hup hm hkeys hlen path false
  | removed path => exact ⟨fun _ => id, fun _ => fileRemoved_truthful hm hkeys path⟩
  | flushed => exact ⟨fun _ => id, fun _ => SameRecords.refl _⟩

/-- A new file with markup is tracked, and the answer is that nothing has changed. -/
theorem applyEvent_truthful_iff_of_markup : ∃ (d : Disk) (h : Host SyntaxEngine),
    (applyEvent true (.created "/r/a.tsx") d h).1 = .ok (.unchanged "/r/a.tsx") ∧
    h.store.get? "/r/a.ts" = none ∧
    (applyEvent true (.created "/r/a.tsx") d h).2.store.get? "/r/a.ts" = some ⟨1, "1", "1"⟩ ∧
    (Truthful h.store (applyEvent true (.created "/r/a.tsx") d h).2.store (applyEvent true (.created "/r/a.tsx") d h).1 ↔
      ¬ (Event.created "/r/a.tsx").Unreported true d h) ∧
    (Event.created "/r/a.tsx").Unreported true d h := by
  let d := Disk.empty.write "/r/a.tsx" (.text "1")
  let h := fresh ⟨Resolution.nodeResolver, Merge.typePrelude, SyntaxEngine.engine⟩ SyntaxEngine.fresh "/r"
  let run : List (Disk × Operation) := []
  have hlen : run.length + 2 < 2 ^ 63 := by decide
  have hrun : ∀ x ∈ run, x.2.Admitted EngineKey := List.forall_mem_nil _
  have hu : h.Unused := unused_fresh ..
  have htrue := applyEvent_truthful_iff hu rfl rfl hrun hlen true (.created "/r/a.tsx") d
  have hover : Overwrites true "/r/a.tsx" "/r/a.ts" d h :=
    ⟨.inl rfl, "1", .ofResolved "/r/a.tsx", by decide +kernel, by decide +kernel, by decide +kernel, by decide +kernel⟩
  refine ⟨d, h, by decide +kernel, by decide +kernel, by decide +kernel, htrue, by decide +kernel, by decide +kernel,
    by decide +kernel, "/r/a.ts", hover, by decide +kernel, ?_⟩
  intro heq
  exact absurd heq (by decide +kernel)

end ScriptHost.Host
