import ScriptHost.Proofs.Host.Quiet

/-!
# What is stored for an observed script

A commit stores one record, or none if the text is not news or cannot be merged (`Observation.record?`), and leaves all
other records as they are (`get?_commit`).  A script that is not compiled, and one without declarations, is stored as it
is (`mergedContent_of_plain`); what comes of a merge depends on the disk, the store and the engine alone
(`mergedContent_of_declarations`).
-/

namespace ScriptHost.Host

open ScriptHost.Analysis ScriptHost.Path ScriptHost.Resolution

variable {σ : Type}

/-! ### Merging -/

theorem mergedContent_of_plain {o : Observation} {d : Disk}
    (ho : o.identity.isCompiled = true → declarationsBeside d o.identity.resolved = none) (h : Host σ) :
    mergedContent o d h = (.ok o.raw, h) := by
  unfold mergedContent
  by_cases hc : o.identity.isCompiled = true
  · rw [hc, Bool.not_true, if_neg (by decide), Action.bind_disk_run, ho hc]
    rfl
  · rw [if_pos (by simpa using hc)]
    rfl

/-- The text that is made of the two scripts that an engine has read, if it could. -/
def combined (r : Merge.Reassembler) (compiled shim : String) :
    Option SourceUnit × Option SourceUnit → Except HostError String
  | (none, _) => .error (.missingStatements compiled)
  | (some _, none) => .error (.missingStatements shim)
  | (some u, some v) => (r u.statements v.statements).mapError .rejected

/-- What comes of the merge of a script with its declarations. -/
def mergeAnswer (o : Observation) (declaration : String) (d : Disk) (h : Host σ) : Except HostError String :=
  let shim := shimPath declaration
  (seenText h.store d (.shim shim) none).bind fun declarations =>
    combined h.tools.reassembler o.path shim
      (readBoth h.tools.engine (viewOf (lentStore h.store o.path o.raw shim declarations)) o.path shim
        (releaseBoth h.tools.engine o.path shim h.engineState)).1

private theorem combined_run (compiled shim : String) (units : Option SourceUnit × Option SourceUnit) (d : Disk)
    (h : Host σ) : (do
      let compiledUnit ← requireUnit units.1 compiled
      let shimUnit ← requireUnit units.2 shim
      Action.lift .rejected ((← Action.host).tools.reassembler compiledUnit.statements shimUnit.statements) :
        Action σ String) d h = (combined h.tools.reassembler compiled shim units, h) := by
  obtain ⟨u, v⟩ := units
  cases u with
  | none => rfl
  | some u =>
    cases v with
    | none => rfl
    | some v =>
      show Action.lift .rejected (h.tools.reassembler u.statements v.statements) d h =
        ((h.tools.reassembler u.statements v.statements).mapError .rejected, h)
      cases h.tools.reassembler u.statements v.statements <;> rfl

/-- What an engine answers when it is shown a script with its declarations, and its state after that. -/
def readShown (o : Observation) (declaration text : String) (h : Host σ) :
    (Option SourceUnit × Option SourceUnit) × σ :=
  readBoth h.tools.engine (viewOf (lentStore h.store o.path o.raw (shimPath declaration) text)) o.path
    (shimPath declaration) (releaseBoth h.tools.engine o.path (shimPath declaration) h.engineState)

/-- If the declarations can be seen, the engine is shown both texts and then made to forget them. -/
theorem mergedContent_run {o : Observation} {d : Disk} {declaration : String}
    (hc : o.identity.isCompiled = true) (hd : declarationsBeside d o.identity.resolved = some declaration) {h : Host σ}
    (hm : h.memo.Sound) :
    mergedContent o d h =
      match seenText h.store d (.shim (shimPath declaration)) none with
      | .error e => (.error e, (identify (shimPath declaration) none d h).2)
      | .ok text =>
        (combined h.tools.reassembler o.path (shimPath declaration) (readShown o declaration text h).1,
          { (identify (shimPath declaration) none d h).2 with
            store := returnedStore h.store o.path o.raw (shimPath declaration) text
            engineState := releaseBoth h.tools.engine o.path (shimPath declaration)
              (readShown o declaration text h).2 }) := by
  have hi := Action.run_of_answer (identify_of_isShim (isShim_shimPath declaration) none d hm)
  -- nothing but the memo has changed when the declarations are observed
  have hobserve :=
    observeIdentity_run (.shim (shimPath declaration)) none d (identify (shimPath declaration) none d h).2
  change _ = ((seenText h.store d (.shim (shimPath declaration)) none).map _, _) at hobserve
  unfold mergedContent
  rw [hc, Bool.not_true, if_neg (by decide), Action.bind_disk_run, hd]
  dsimp only
  rw [Action.bind_run_of_ok hi]
  cases hs : seenText h.store d (.shim (shimPath declaration)) none with
  | error e =>
    rw [hs] at hobserve
    rw [Action.bind_run_of_error hobserve]
  | ok text =>
    rw [hs] at hobserve
    rw [Action.bind_run_of_ok hobserve, Action.bind_run_of_ok (readPair_run ..)]
    exact combined_run o.path (shimPath declaration) _ d _

theorem mergedContent_of_declarations {o : Observation} {d : Disk} {declaration : String}
    (hc : o.identity.isCompiled = true) (hd : declarationsBeside d o.identity.resolved = some declaration) {h : Host σ}
    (hm : h.memo.Sound) : (mergedContent o d h).1 = mergeAnswer o declaration d h := by
  rw [mergedContent_run hc hd hm]
  unfold mergeAnswer
  dsimp only
  cases seenText h.store d (.shim (shimPath declaration)) none <;> rfl

/-- What comes of a merge does not depend on what is remembered of other paths. -/
theorem mergedContent_memo (o : Observation) (d : Disk) {h : Host σ} {m : Memo} (hm : h.memo.Sound) (hm' : m.Sound) :
    (mergedContent o d { h with memo := m }).1 = (mergedContent o d h).1 := by
  by_cases hc : o.identity.isCompiled = true
  · cases hd : declarationsBeside d o.identity.resolved with
    | none => rw [mergedContent_of_plain fun _ => hd, mergedContent_of_plain fun _ => hd]
    | some declaration =>
      rw [mergedContent_of_declarations hc hd hm, mergedContent_of_declarations hc hd hm']
      rfl
  · rw [mergedContent_of_plain fun h => absurd h hc, mergedContent_of_plain fun h => absurd h hc]

/-! ### News -/

theorem needsUpdate_eq_false_iff {s : Store} {key raw : String} :
    s.needsUpdate key raw = false ↔ (s.get? key).map (·.rawContent) = some raw := by
  cases hr : s.get? key <;> simp [Store.needsUpdate, hr]

theorem nextVersion_ne_version (s : Store) (key : String) : s.nextVersion key ≠ s.version key := by
  unfold Store.nextVersion Store.version
  cases s.get? key with
  | none => decide
  | some r =>
    show r.version + 1 ≠ r.version
    rw [Ne, Int64.add_eq_left]
    decide

/-! ### Commits -/

/-- The record that is stored for an observed script. -/
def Observation.record? (o : Observation) (d : Disk) (h : Host σ) : Option Record :=
  if o.needsUpdate then
    (mergedContent o d h).1.toOption.map fun content => ⟨h.store.nextVersion o.path, content, o.raw⟩
  else none

theorem record?_of_not_news {o : Observation} (hn : o.needsUpdate = false) (d : Disk) (h : Host σ) :
    o.record? d h = none := by
  rw [Observation.record?, hn, if_neg (by decide)]

theorem record?_eq_some_iff {o : Observation} {d : Disk} {h : Host σ} {r : Record} :
    o.record? d h = some r ↔ o.needsUpdate = true ∧
      ∃ content, (mergedContent o d h).1 = .ok content ∧ r = ⟨h.store.nextVersion o.path, content, o.raw⟩ := by
  unfold Observation.record?
  cases hn : o.needsUpdate with
  | false => simp
  | true =>
    rw [if_pos rfl, Option.map_eq_some_iff]
    simp only [toOption_eq_some_iff, true_and]
    constructor
    · rintro ⟨content, hc, rfl⟩
      exact ⟨content, hc, rfl⟩
    · rintro ⟨content, hc, rfl⟩
      exact ⟨content, hc, rfl⟩

theorem record?_memo (o : Observation) (d : Disk) {h : Host σ} {m : Memo} (hm : h.memo.Sound) (hm' : m.Sound) :
    o.record? d { h with memo := m } = o.record? d h := by
  unfold Observation.record?
  rw [mergedContent_memo o d hm hm']

/-- A commit stores the record of the observed script and changes no other one. -/
theorem get?_commit {o : Observation} {d : Disk} (ho : o.Apart d) {h : Host σ} (hm : h.memo.Sound) (key : String) :
    (commit o d h).2.store.get? key =
      if key = o.path then (o.record? d h).or (h.store.get? key) else h.store.get? key := by
  unfold commit
  cases hn : o.needsUpdate with
  | false =>
    rw [record?_of_not_news hn]
    simp
  | true =>
    have hq := mergedContent_quiet ho hm
    rw [Observation.record?, hn, Bool.not_true, if_neg (by decide), if_pos rfl]
    rcases hc : mergedContent o d h with ⟨e | content, h₁⟩ <;> rw [hc] at hq
    · rw [Action.bind_run_of_error hc]
      simpa [Except.toOption] using hq.store key
    · rw [Action.bind_run_of_ok hc]
      -- the merge is over, and the store is as before
      show (h₁.store.commit o.path o.raw content).get? key = _
      have hnext : h₁.store.nextVersion o.path = h.store.nextVersion o.path := by
        rw [Store.nextVersion, hq.store, Store.nextVersion]
      rw [Store.get?_commit, hnext, hq.store]
      simp [Except.toOption]

theorem commit_onward {o : Observation} {d : Disk} (ho : o.Apart d) {h : Host σ} (hm : h.memo.Sound) :
    Onward d h (commit o d h).2 := by
  unfold commit
  split
  · exact .refl d h
  · have hq := mergedContent_quiet ho hm
    rcases hc : mergedContent o d h with ⟨e | content, h₁⟩ <;> rw [hc] at hq
    · rw [Action.bind_run_of_error hc]
      exact hq.toOnward
    · rw [Action.bind_run_of_ok hc]
      exact ⟨hq.setup, hq.memo⟩

/-- A commit fails if and only if the text is news and cannot be merged. -/
theorem commit_eq_error_iff {o : Observation} {d : Disk} {h : Host σ} {e : HostError} :
    (commit o d h).1 = .error e ↔ o.needsUpdate = true ∧ (mergedContent o d h).1 = .error e := by
  unfold commit
  cases hn : o.needsUpdate with
  | false => simp
  | true =>
    rw [Bool.not_true, if_neg (by decide)]
    rcases hc : mergedContent o d h with ⟨e' | content, h₁⟩
    · rw [Action.bind_run_of_error hc]
      simp
    · rw [Action.bind_run_of_ok hc]
      simp only [true_and, reduceCtorEq, iff_false]
      exact nofun

theorem commit_answer (o : Observation) (d : Disk) (h : Host σ) :
    (commit o d h).1.toOption.getD false = (o.record? d h).isSome := by
  unfold commit
  cases hn : o.needsUpdate with
  | false =>
    rw [record?_of_not_news hn]
    rfl
  | true =>
    rw [Observation.record?, hn, Bool.not_true, if_neg (by decide), if_pos rfl]
    rcases hc : mergedContent o d h with ⟨e | content, h₁⟩
    · rw [Action.bind_run_of_error hc]
      rfl
    · rw [Action.bind_run_of_ok hc]
      rfl

theorem commit_of_not_news {o : Observation} (hn : o.needsUpdate = false) (d : Disk) (h : Host σ) :
    commit o d h = (.ok false, h) := by
  unfold commit
  rw [hn]
  rfl

theorem stored_of_commit {o : Observation} {d : Disk} (ho : o.Apart d) {h h₁ : Host σ} (hm : h.memo.Sound)
    (hnews : o.needsUpdate = h.store.needsUpdate o.path o.raw) {stored : Bool}
    (hc : commit o d h = (.ok stored, h₁)) : h₁.store.needsUpdate o.path o.raw = false := by
  have hrecord := get?_commit ho hm o.path
  have hanswer := commit_answer o d h
  rw [hc] at hrecord hanswer
  rw [if_pos rfl] at hrecord
  rw [needsUpdate_eq_false_iff, hrecord]
  cases hn : o.needsUpdate with
  | true =>
    -- a text that is news is stored if the commit does not fail
    have hstored : stored = true := by
      unfold commit at hc
      rw [hn, Bool.not_true, if_neg (by decide)] at hc
      obtain ⟨content, h₂, -, hc⟩ := Action.bind_eq_ok.1 hc
      cases hc
      rfl
    obtain ⟨r, hr⟩ := Option.isSome_iff_exists.1 (hanswer.symm.trans hstored)
    obtain ⟨-, content, -, rfl⟩ := record?_eq_some_iff.1 hr
    rw [hr]
    rfl
  | false =>
    rw [record?_of_not_news hn, Option.none_or]
    exact needsUpdate_eq_false_iff.1 (hnews ▸ hn)

end ScriptHost.Host
