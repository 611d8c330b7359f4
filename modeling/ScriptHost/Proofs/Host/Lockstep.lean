import ScriptHost.Proofs.Host.Closure
import ScriptHost.Proofs.Host.Merge
import ScriptHost.Proofs.Resolution.Blind

/-!
# Closures on two disks

Two disks hold the same files, but one declaration file has different texts.  A closure that starts from the same
state on both goes the same way: it finds the same scripts, and tracks them with the same texts and versions
(`expandClosure_ignores_declarations`).  Only what engines see of a script may differ that is merged with the
declarations.  This needs that no script takes its own text from the declaration file, be it the first one or an import,
under its path or under a shim path, and that the merge does not fail.
-/

namespace ScriptHost.Host

open ScriptHost.Analysis ScriptHost.Imports ScriptHost.Path ScriptHost.Resolution ScriptHost.Text

/-! ### Shims in memos -/

/-- The names that stand for shims are the shim paths. -/
def Labelled (m : Memo) : Prop := ∀ request i, m.found.get? request = some i → i.isTemporary = isShim request.1

private theorem labelled_learned {r : Resolver} {d : Disk} {m m' : Memo} (hm : Memo.Learned r d m m')
    (hl : Labelled m) : Labelled m' := by
  intro request i hi
  rcases hm.new hi with hold | ⟨name, origin, rfl, hnew⟩
  · exact hl request i hold
  · show i.isTemporary = isShim name
    unfold Memo.identify at hnew
    split at hnew
    · cases hnew
      exact Eq.symm ‹_›
    · have hs : isShim name = false := by simpa using ‹¬ isShim name = true›
      cases hr : r.resolve d name origin with
      | error e =>
        rw [hr] at hnew
        cases hnew
      | ok path =>
        rw [hr] at hnew
        cases hnew
        exact hs.symm

private theorem labelled_of_reachable {σ : Type} {h : Host σ} (hr : h.Reachable) : Labelled h.memo := by
  obtain ⟨h₀, run, hu, rfl⟩ := hr
  have hempty : Labelled h₀.memo := by
    intro request i hi
    rw [hu.memo] at hi
    cases hi
  exact after_keeps (I := fun _ h => Labelled h.memo) admitsAll_true (fun step => labelled_learned step.learned)
    (fun _ => id) (admitted_true run) (n := 0) hu.sound hempty

/-! ### Hosts in lockstep -/

/-- What is known of a record without looking at what engines see. -/
def outline (r : Record) : Version × String := (r.version, r.rawContent)

/-- Two hosts differ at most in what engines see and remember. -/
structure Alike {σ : Type} (h h' : Host σ) : Prop where
  setup : h'.setup = h.setup
  memo : h'.memo = h.memo
  records : ∀ key, (h'.store.get? key).map outline = (h.store.get? key).map outline

variable {place : Place} {d d' : Disk} {h h' : Host SyntaxEngine} {α β : Type}

/-- Hosts that are alike, with a resolver that finds the same on both disks. -/
structure Lockstep (d d' : Disk) (h h' : Host SyntaxEngine) : Prop extends Alike h h' where
  blind : h.tools.resolver.resolve d' = h.tools.resolver.resolve d
  engine : h.tools.engine = SyntaxEngine.engine
  sound : h.memo.Sound
  labelled : Labelled h.memo

namespace Lockstep

private theorem tools (hl : Lockstep d d' h h') : h'.tools = h.tools := congrArg (·.1) hl.setup

private theorem exclusions (hl : Lockstep d d' h h') : h'.exclusions = h.exclusions := congrArg (·.2.2.2.2.1) hl.setup

private theorem sound' (hl : Lockstep d d' h h') : h'.memo.Sound := hl.memo ▸ hl.sound

/-- Hosts stay in lockstep as long as their memos and their records do. -/
private theorem onward {h₁ h₁' : Host SyntaxEngine} (hl : Lockstep d d' h h') (ho : Onward d h h₁)
    (ho' : Onward d' h' h₁') (hmemo : h₁'.memo = h₁.memo)
    (hrecords : ∀ key, (h₁'.store.get? key).map outline = (h₁.store.get? key).map outline) :
    Lockstep d d' h₁ h₁' where
  setup := ho'.setup.trans (hl.setup.trans ho.setup.symm)
  memo := hmemo
  records := hrecords
  blind := by
    rw [ho.tools]
    exact hl.blind
  engine := by
    rw [ho.tools]
    exact hl.engine
  sound := ho.sound hl.sound
  labelled := labelled_learned ho.memo hl.labelled

private theorem rawContent (hl : Lockstep d d' h h') (key : String) :
    (h'.store.get? key).map (·.rawContent) = (h.store.get? key).map (·.rawContent) := by
  have hrecords := congrArg (Option.map Prod.snd) (hl.records key)
  rwa [Option.map_map, Option.map_map] at hrecords

private theorem version (hl : Lockstep d d' h h') (key : String) :
    (h'.store.get? key).map (·.version) = (h.store.get? key).map (·.version) := by
  have hrecords := congrArg (Option.map Prod.fst) (hl.records key)
  rwa [Option.map_map, Option.map_map] at hrecords

private theorem needsUpdate (hl : Lockstep d d' h h') (key text : String) :
    h'.store.needsUpdate key text = h.store.needsUpdate key text := by
  have hraw := hl.rawContent key
  unfold Store.needsUpdate
  cases hr : h.store.get? key <;> cases hr' : h'.store.get? key <;> rw [hr, hr'] at hraw <;> simp_all

private theorem nextVersion (hl : Lockstep d d' h h') (key : String) :
    h'.store.nextVersion key = h.store.nextVersion key := by
  have hversion := hl.version key
  unfold Store.nextVersion
  cases hr : h.store.get? key <;> cases hr' : h'.store.get? key <;> rw [hr, hr'] at hversion <;> simp_all

end Lockstep

/-- From hosts in lockstep, an action gives the same answer on both disks, and the hosts are in lockstep again. -/
def RunsAlike (d d' : Disk) (x : Action SyntaxEngine α) : Prop :=
  ∀ h h', Lockstep d d' h h' → (x d' h').1 = (x d h).1 ∧ Lockstep d d' (x d h).2 (x d' h').2

namespace RunsAlike

private theorem pure (a : α) : RunsAlike d d' (Pure.pure a : Action SyntaxEngine α) := fun _ _ hl => ⟨rfl, hl⟩

private theorem attempt {x : Action SyntaxEngine α} (hx : RunsAlike d d' x) : RunsAlike d d' x.attempt := by
  intro h h' hl
  obtain ⟨hanswer, hl₁⟩ := hx h h' hl
  exact ⟨congrArg Except.ok hanswer, hl₁⟩

/-- What follows may rely on how its argument was come by. -/
private theorem bind_of_ok {x : Action SyntaxEngine α} {f : α → Action SyntaxEngine β}
    (hx : (x d' h').1 = (x d h).1 ∧ Lockstep d d' (x d h).2 (x d' h').2)
    (hf : ∀ {a h₁ h₁'}, x d h = (.ok a, h₁) → Lockstep d d' h₁ h₁' →
      (f a d' h₁').1 = (f a d h₁).1 ∧ Lockstep d d' (f a d h₁).2 (f a d' h₁').2) :
    ((x >>= f) d' h').1 = ((x >>= f) d h).1 ∧ Lockstep d d' ((x >>= f) d h).2 ((x >>= f) d' h').2 := by
  obtain ⟨hanswer, hl₁⟩ := hx
  rcases hrun : x d h with ⟨e | a, h₁⟩ <;> rcases hrun' : x d' h' with ⟨e' | a', h₁'⟩ <;>
    rw [hrun, hrun'] at hanswer hl₁ <;> cases hanswer
  · rw [Action.bind_run_of_error hrun, Action.bind_run_of_error hrun']
    exact ⟨rfl, hl₁⟩
  · rw [Action.bind_run_of_ok hrun, Action.bind_run_of_ok hrun']
    exact hf hrun hl₁

private theorem bind {x : Action SyntaxEngine α} {f : α → Action SyntaxEngine β} (hx : RunsAlike d d' x)
    (hf : ∀ a, RunsAlike d d' (f a)) : RunsAlike d d' (x >>= f) :=
  fun h h' hl => bind_of_ok (hx h h' hl) fun _ hl₁ => hf _ _ _ hl₁

end RunsAlike

/-! ### Looking up -/

private theorem identify_runsAlike (path : String) (origin : Option String) :
    RunsAlike d d' (identify path origin : Action SyntaxEngine _) := by
  intro h h' hl
  have hdirectory : h'.directory = h.directory := congrArg (·.2.1) hl.setup
  have hresolve : ∀ o, h'.memo.resolve h'.tools.resolver d' path o = h.memo.resolve h.tools.resolver d path o := by
    intro o
    rw [hl.memo, hl.tools]
    unfold Memo.resolve Memo.identify
    rw [hl.blind]
  refine ⟨?_, hl.onward (identify_quiet path origin d h).toOnward (identify_quiet path origin d' h').toOnward ?_
    hl.records⟩
  · rw [identify_run, identify_run, hdirectory, hresolve]
  · rw [identify_run, identify_run, hdirectory, hresolve]

private theorem importsIn_runsAlike (source origin : String) :
    RunsAlike d d' (importsIn source origin : Action SyntaxEngine _) := by
  have hall : ∀ names, RunsAlike d d' (identifyAll origin names : Action SyntaxEngine _) := by
    intro names
    induction names with
    | nil => exact .pure []
    | cons name rest ih =>
      refine .bind (identify_runsAlike name (some origin)).attempt fun answer => ?_
      cases answer with
      | error e => exact ih
      | ok i => exact ih.bind fun imports => .pure _
  intro h h' hl
  unfold importsIn
  rw [Action.bind_host_run, Action.bind_host_run, hl.tools]
  exact hall _ h h' hl

private theorem observeIdentity_runsAlike (hd : d.Retold place d') {i : Identity}
    (hi : d.locate (fileOf i) ≠ .ok place) : RunsAlike d d' (observeIdentity i none : Action SyntaxEngine _) := by
  intro h h' hl
  have hseen : seenText h'.store d' i none = seenText h.store d i none := by
    have hraw := hl.rawContent i.normalized
    unfold seenText
    rw [hd.load hi]
    cases hr : h.store.get? i.normalized <;> cases hr' : h'.store.get? i.normalized <;> rw [hr, hr'] at hraw <;>
      simp_all
  rw [observeIdentity_run, observeIdentity_run, hseen]
  refine ⟨?_, hl⟩
  cases seenText h.store d i none with
  | error e => rfl
  | ok raw =>
    show Except.ok (Observation.mk _ _ _) = Except.ok (Observation.mk _ _ _)
    rw [hl.needsUpdate]

/-! ### Tracking -/

/-- A compiled script with some text can be merged with its declarations as they are on a disk. -/
def CanMerge (r : Merge.Reassembler) (d : Disk) (compiled raw declaration : String) : Prop :=
  ∃ text content, d.load declaration = .ok text ∧
    r (statementsIn (sourcePath compiled) raw) (statementsIn (shimPath declaration) text) = .ok content

/-- What a script is does not depend on a text that differs on two disks. -/
structure Unaffected (r : Merge.Reassembler) (place : Place) (d d' : Disk) (i : Identity) : Prop where
  /-- Its own text is elsewhere. -/
  elsewhere : d.locate (fileOf i) ≠ .ok place
  /-- If the text is that of its declarations, they can be merged on both disks. -/
  merges : ∀ declaration raw, i.isCompiled = true → declarationsBeside d i.resolved = some declaration →
    d.locate declaration = .ok place → d.load i.resolved = .ok raw →
      CanMerge r d i.resolved raw declaration ∧ CanMerge r d' i.resolved raw declaration

/-- A merge looks up nothing but the shim path. -/
private theorem memo_mergedContent {o : Observation} {declaration : String} {d : Disk} {h : Host SyntaxEngine}
    (hc : o.identity.isCompiled = true) (hb : declarationsBeside d o.identity.resolved = some declaration)
    (hm : h.memo.Sound) : (mergedContent o d h).2.memo = (identify (shimPath declaration) none d h).2.memo := by
  rw [mergedContent_run hc hb hm]
  cases seenText h.store d (.shim (shimPath declaration)) none <;> rfl

/-- Declarations that are tracked or elsewhere are seen alike. -/
private theorem Lockstep.seenText_shim (hl : Lockstep d d' h h') (hd : d.Retold place d')
    {resolved declaration : String} (hb : declarationsBeside d resolved = some declaration)
    (hs : h.store.get? (shimPath declaration) ≠ none ∨ d.locate declaration ≠ .ok place) :
    seenText h'.store d' (.shim (shimPath declaration)) none =
      seenText h.store d (.shim (shimPath declaration)) none := by
  have hraw := hl.rawContent (shimPath declaration)
  cases hr : h.store.get? (shimPath declaration) with
  | some r =>
    rw [hr] at hraw
    obtain ⟨r', hr', hsame⟩ := Option.map_eq_some_iff.1 hraw
    rw [seenText_of_stored (i := .shim (shimPath declaration)) hr,
      seenText_of_stored (i := .shim (shimPath declaration)) hr', hsame]
  | none =>
    rw [hr, Option.map_none, Option.map_eq_none_iff] at hraw
    have helsewhere := hs.resolve_left fun hne => hne hr
    rw [seenText_of_untracked (i := .shim (shimPath declaration)) hr,
      seenText_of_untracked (i := .shim (shimPath declaration)) hraw, fileOf_shimPath hb, hd.load helsewhere]

/-- If a script can be merged with its declarations, and no script is tracked in their place, then the merge does not
fail. -/
theorem mergedContent_of_canMerge {o : Observation} {declaration : String} {d : Disk} {h : Host SyntaxEngine}
    (ho : o.identity.WellFormed) (hm : h.memo.Sound) (he : h.tools.engine = SyntaxEngine.engine)
    (hc : o.identity.isCompiled = true) (hb : declarationsBeside d o.identity.resolved = some declaration)
    (hnone : h.store.get? (shimPath declaration) = none)
    (hmerge : CanMerge h.tools.reassembler d o.identity.resolved o.raw declaration) :
    ∃ content, (mergedContent o d h).1 = .ok content := by
  obtain ⟨text, content, htext, hcontent⟩ := hmerge
  have hfile : fileOf (.shim (shimPath declaration)) = declaration := fileOf_shimPath hb
  have hseen : seenText h.store d (.shim (shimPath declaration)) none = .ok text := by
    rw [seenText_of_untracked (i := .shim (shimPath declaration)) hnone, hfile, htext]
    rfl
  refine ⟨content, (mergedContent_eq_ok ho hm he ⟨hc, hb, hseen⟩).2 ?_⟩
  rwa [Observation.path, (ho.of_isCompiled hc).1]

private theorem mergedContent_runsAlike (hd : d.Retold place d') {o : Observation} (ho : o.identity.WellFormed)
    (hl : Lockstep d d' h h') (hu : Unaffected h.tools.reassembler place d d' o.identity)
    (hraw : d.load (fileOf o.identity) = .ok o.raw) :
    ((mergedContent o d' h').1.map fun _ => ()) = ((mergedContent o d h).1.map fun _ => ()) ∧
      Lockstep d d' (mergedContent o d h).2 (mergedContent o d' h').2 := by
  have hbeside : declarationsBeside d' o.identity.resolved = declarationsBeside d o.identity.resolved := by
    rw [declarationsBeside, declarationsBeside, Disk.firstExisting, Disk.firstExisting, hd.isFile]
  by_cases hplain : o.identity.isCompiled = true → declarationsBeside d o.identity.resolved = none
  · have hplain' : o.identity.isCompiled = true → declarationsBeside d' o.identity.resolved = none :=
      fun hc => hbeside.trans (hplain hc)
    rw [mergedContent_of_plain hplain, mergedContent_of_plain hplain']
    exact ⟨rfl, hl⟩
  · obtain ⟨hc, hsome⟩ := Classical.not_imp.1 hplain
    obtain ⟨declaration, hb⟩ := Option.ne_none_iff_exists'.1 hsome
    have hb' := hbeside.trans hb
    have hq := mergedContent_quiet (.of_wellFormed ho d) hl.sound
    have hq' := mergedContent_quiet (.of_wellFormed ho d') hl.sound'
    refine ⟨?_, hl.onward hq.toOnward hq'.toOnward ?_ fun key => ?_⟩
    · by_cases hs : h.store.get? (shimPath declaration) ≠ none ∨ d.locate declaration ≠ .ok place
      · have hseen := hl.seenText_shim hd hb hs
        cases htext : seenText h.store d (.shim (shimPath declaration)) none with
        | error e =>
          rw [htext] at hseen
          rw [mergedContent_run hc hb hl.sound, mergedContent_run hc hb' hl.sound', htext, hseen]
        | ok text =>
          rw [htext] at hseen
          rw [mergedContent_answer ho hl.sound hl.engine ⟨hc, hb, htext⟩,
            mergedContent_answer ho hl.sound' (hl.tools ▸ hl.engine) ⟨hc, hb', hseen⟩, hl.tools]
      · -- the declarations have different texts, and both can be merged
        obtain ⟨hnone, hthere⟩ := not_or.1 hs
        have hnone := not_not.1 hnone
        have hnone' : h'.store.get? (shimPath declaration) = none := by
          have hrecord := hl.records (shimPath declaration)
          rwa [hnone, Option.map_none, Option.map_eq_none_iff] at hrecord
        have hload : d.load o.identity.resolved = .ok o.raw := by
          rw [(ho.of_isCompiled hc).1] at hraw
          exact hraw
        obtain ⟨hmerge, hmerge'⟩ := hu.merges declaration o.raw hc hb (not_not.1 hthere) hload
        obtain ⟨content, hcontent⟩ := mergedContent_of_canMerge ho hl.sound hl.engine hc hb hnone hmerge
        obtain ⟨content', hcontent'⟩ := mergedContent_of_canMerge ho hl.sound' (hl.tools ▸ hl.engine) hc hb' hnone'
          (hl.tools ▸ hmerge')
        rw [hcontent, hcontent']
        rfl
    · rw [memo_mergedContent hc hb hl.sound, memo_mergedContent hc hb' hl.sound']
      exact (identify_runsAlike (shimPath declaration) none h h' hl).2.memo
    · rw [hq.store, hq'.store, hl.records]

private theorem commit_runsAlike (hd : d.Retold place d') {o : Observation} (ho : o.identity.WellFormed)
    (hl : Lockstep d d' h h') (hu : Unaffected h.tools.reassembler place d d' o.identity)
    (hraw : o.needsUpdate = true → d.load (fileOf o.identity) = .ok o.raw) :
    (commit o d' h').1 = (commit o d h).1 ∧ Lockstep d d' (commit o d h).2 (commit o d' h').2 := by
  unfold commit
  cases hn : o.needsUpdate with
  | false => exact ⟨rfl, hl⟩
  | true =>
    rw [Bool.not_true, if_neg (by decide)]
    obtain ⟨hanswer, hl₁⟩ := mergedContent_runsAlike hd ho hl hu (hraw hn)
    rcases hc : mergedContent o d h with ⟨e | content, h₁⟩ <;>
      rcases hc' : mergedContent o d' h' with ⟨e' | content', h₁'⟩ <;> rw [hc, hc'] at hanswer hl₁ <;> cases hanswer
    · rw [Action.bind_run_of_error hc, Action.bind_run_of_error hc']
      exact ⟨rfl, hl₁⟩
    · rw [Action.bind_run_of_ok hc, Action.bind_run_of_ok hc']
      refine ⟨rfl, hl₁.onward ⟨rfl, .refl ..⟩ ⟨rfl, .refl ..⟩ hl₁.memo fun key => ?_⟩
      -- the same text is stored with the same version, whatever engines are to see
      show ((h₁'.store.commit o.path o.raw content').get? key).map outline =
        ((h₁.store.commit o.path o.raw content).get? key).map outline
      rw [Store.get?_commit, Store.get?_commit, hl₁.nextVersion]
      split
      · rfl
      · exact hl₁.records key

private theorem observed_runsAlike (hd : d.Retold place d') {i : Identity} (hi : i.WellFormed)
    (hu : Unaffected h.tools.reassembler place d d' i) {o : Observation} {h₁ : Host SyntaxEngine}
    (ho : observeIdentity i none d h = (.ok o, h₁)) {h₁' : Host SyntaxEngine} (hl₁ : Lockstep d d' h₁ h₁') :
    (commit o d' h₁').1 = (commit o d h₁).1 ∧ Lockstep d d' (commit o d h₁).2 (commit o d' h₁').2 := by
  obtain ⟨rfl, hseen, rfl, hneeds⟩ := observeIdentity_eq_ok.1 ho
  refine commit_runsAlike hd hi hl₁ hu fun hnews => ?_
  rw [hnews] at hneeds
  -- only the text of a script that is not tracked can be news
  cases hr : h₁.store.get? o.identity.normalized with
  | none =>
    rw [seenText_of_untracked hr] at hseen
    cases hload : d.load (fileOf o.identity) <;> rw [hload] at hseen <;> cases hseen
    rfl
  | some r =>
    rw [seenText_of_stored hr] at hseen
    simp [Store.needsUpdate, hr, Except.ok.inj hseen] at hneeds

private theorem trackImport_runsAlike (hd : d.Retold place d') {i : Identity} (hi : i.WellFormed)
    (hl : Lockstep d d' h h') (hu : Unaffected h.tools.reassembler place d d' i) :
    (trackImport i d' h').1 = (trackImport i d h).1 ∧ Lockstep d d' (trackImport i d h).2 (trackImport i d' h').2 := by
  unfold trackImport
  have hobserve := (observeIdentity_runsAlike hd hu.elsewhere).attempt h h' hl
  refine RunsAlike.bind_of_ok hobserve fun {answer h₁ h₁'} ho hl₁ => ?_
  cases answer with
  | error e => exact ⟨rfl, hl₁⟩
  | ok o =>
    have ho' : observeIdentity i none d h = (.ok o, h₁) := by
      rw [Action.attempt_run] at ho
      obtain ⟨hanswer, hlast⟩ := Prod.mk.inj ho
      exact Prod.ext (Except.ok.inj hanswer) hlast
    obtain ⟨hanswer, hl₂⟩ := observed_runsAlike hd hi hu ho' hl₁
    refine RunsAlike.bind_of_ok ⟨congrArg Except.ok hanswer, hl₂⟩ fun {stored h₂ h₂'} _ hl₃ => ?_
    split <;> exact ⟨rfl, hl₃⟩

/-! ### Walks -/

/-- The script to which an edge leads. -/
def scriptOf (e : Edge) : Identity := ⟨e.resolved, e.normalized, isShim e.raw⟩

/-- What has been identified is the script of its edge. -/
private theorem scriptOf_edgeTo {origin : String} {names : List String} {d : Disk} {h : Host SyntaxEngine}
    (hl : Labelled h.memo) {x : String × Identity} (hx : x ∈ identified origin names d h) :
    scriptOf (edgeTo x.1 x.2) = x.2 := by
  obtain ⟨name, -, hx⟩ := List.mem_filterMap.1 hx
  obtain ⟨i, hi, rfl⟩ := Option.map_eq_some_iff.1 hx
  have hfound := found_of_identify (Action.run_of_answer (toOption_eq_some_iff.1 hi))
  have hlabel := labelled_learned (identify_quiet name (some origin) d h).memo hl _ _ hfound
  show (⟨i.resolved, i.normalized, isShim name⟩ : Identity) = i
  rw [← show i.isTemporary = isShim name from hlabel]

private theorem followImports_runsAlike (hd : d.Retold place d') (importer : String)
    {imports : List (String × Identity)} (hwf : ∀ x ∈ imports, x.2.WellFormed) (w : Walk) (hl : Lockstep d d' h h')
    (hu : ∀ x ∈ imports, h.exclusions.excludes x.2.normalized = false →
      Unaffected h.tools.reassembler place d d' x.2) :
    (followImports importer imports w d' h').1 = (followImports importer imports w d h).1 ∧
      Lockstep d d' (followImports importer imports w d h).2 (followImports importer imports w d' h').2 := by
  induction imports generalizing w h h' with
  | nil => exact ⟨rfl, hl⟩
  | cons x rest ih =>
    obtain ⟨raw, i⟩ := x
    obtain ⟨hi, hrest⟩ := List.forall_mem_cons.1 hwf
    obtain ⟨hui, hurest⟩ := List.forall_mem_cons.1 hu
    unfold followImports
    rw [Action.bind_host_run, Action.bind_host_run, hl.exclusions]
    cases hex : h.exclusions.excludes i.normalized with
    | true => exact ih hrest w hl hurest
    | false =>
      rw [if_neg Bool.false_ne_true]
      dsimp only
      by_cases hvisited : w.visited.contains i.normalized = true
      · rw [if_pos hvisited]
        exact ih hrest ⟨w.graph.addImport importer (edgeTo raw i), w.visited, w.queue⟩ hl hurest
      · rw [if_neg hvisited]
        refine RunsAlike.bind_of_ok (trackImport_runsAlike hd hi hl (hui hex)) fun {text h₁ h₁'} htrack hl₁ => ?_
        -- the setup is as before
        have honward : Onward d h h₁ := by
          obtain ⟨h₂, hrun, honward, -⟩ := trackImport_run (d := d) (m := ⟨i, raw, i, h⟩) hi hl.sound
          rw [htrack] at hrun
          rwa [(Prod.mk.inj hrun).2]
        have hulater : ∀ x ∈ rest, h₁.exclusions.excludes x.2.normalized = false →
            Unaffected h₁.tools.reassembler place d d' x.2 := by
          rw [honward.exclusions, honward.tools]
          exact hurest
        cases text with
        | none => exact ih hrest _ hl₁ hulater
        | some text => exact ih hrest _ hl₁ hulater

private theorem walk_eq_error {σ : Type} {d : Disk} {limit : Nat} {w : Walk} {h : Host σ} (hm : h.memo.Sound)
    {e : HostError} (he : (walk limit w d h).1 = .error e) : e = .unfinished := by
  induction limit, w using walk_induction generalizing h with
  | done limit graph visited =>
    rw [walk_nil] at he
    cases he
  | givenUp graph visited x queue =>
    cases he
    rfl
  | visit limit graph visited script text queue ih =>
    obtain ⟨h₁, ms, w', h₂, hleg⟩ := exists_leg (d := d) script text ⟨graph, visited, queue⟩ hm
    rw [hleg.next limit] at he
    exact ih w' (hleg.sound hm) he

private theorem walk_runsAlike (hd : d.Retold place d') {limit : Nat} {w : Walk} (hl : Lockstep d d' h h')
    {graph : Graph} (hgraph : (walk limit w d h).1 = .ok graph)
    (hu : ∀ e ∈ graph.edges, Unaffected h.tools.reassembler place d d' (scriptOf e.2)) :
    (walk limit w d' h').1 = (walk limit w d h).1 ∧ Lockstep d d' (walk limit w d h).2 (walk limit w d' h').2 := by
  induction limit, w using walk_induction generalizing h h' with
  | done limit g visited =>
    rw [walk_nil]
    exact ⟨rfl, hl⟩
  | givenUp g visited x queue => exact ⟨rfl, hl⟩
  | visit limit g visited script text queue ih =>
    obtain ⟨h₁, ms, w', h₂, hleg⟩ := exists_leg (d := d) script text ⟨g, visited, queue⟩ hl.sound
    have hwalk : (walk limit w' d h₂).1 = .ok graph := by
      rw [← hgraph, hleg.next limit]
    obtain ⟨himports, hq, -, hfollow, hround⟩ := hleg
    have hm₁ := hq.sound hl.sound
    have honward := hround.trail.reached.onward
    -- every import that is not excluded has an edge in the graph
    have hmet : ∀ x ∈ identified script.resolved (importNames h.tools.resolver text) d h₁,
        h₁.exclusions.excludes x.2.normalized = false → Unaffected h₁.tools.reassembler place d d' x.2 := by
      intro x hx hincluded
      obtain ⟨visits, meetings, ht⟩ := walk_tour (honward.sound hm₁) (Action.run_of_answer hwalk)
      have himported : (script, x.1, x.2) ∈ ms.map fun m => (m.importer, m.name, m.script) := by
        rw [hround.imported]
        exact List.mem_map.2 ⟨x, List.mem_filter.2 ⟨hx, by rw [hincluded]; rfl⟩, rfl⟩
      obtain ⟨m, hm, hmx⟩ := List.mem_map.1 himported
      have hedge : (script.normalized, edgeTo x.1 x.2) ∈ graph.edges := by
        rw [ht.edges, hround.recorded, Graph.edges_record]
        refine List.mem_append_left _ (List.mem_append_right _ (List.mem_map.2 ⟨m, hm, ?_⟩))
        obtain ⟨himporter, hmx⟩ := Prod.mk.inj hmx
        obtain ⟨hname, hscript⟩ := Prod.mk.inj hmx
        rw [← himporter, ← hname, ← hscript]
        rfl
      have hunaffected := hu _ hedge
      rwa [scriptOf_edgeTo (labelled_learned hq.memo hl.labelled) hx, ← hq.tools] at hunaffected
    have hl₁ := importsIn_runsAlike text script.resolved h h' hl
    unfold walk
    refine RunsAlike.bind_of_ok hl₁ fun {imports h₁ h₁'} himports' hl₁ => ?_
    rw [himports] at himports'
    obtain ⟨hanswer, rfl⟩ := Prod.mk.inj himports'
    obtain rfl := Except.ok.inj hanswer
    refine RunsAlike.bind_of_ok (followImports_runsAlike hd script.normalized (wellFormed_of_mem_identified hm₁) _ hl₁
      hmet) fun {w₂ h₂ h₂'} hfollow' hl₂ => ?_
    rw [hfollow] at hfollow'
    cases hfollow'
    refine ih _ hl₂ hwalk fun e he => ?_
    rw [honward.tools, hq.tools]
    exact hu e he

/-! ### Closures -/

private theorem Lockstep.start (hr : h.Reachable) (he : h.tools.engine = SyntaxEngine.engine)
    (hblind : h.tools.resolver.resolve d' = h.tools.resolver.resolve d) : Lockstep d d' h h where
  setup := rfl
  memo := rfl
  records _ := rfl
  blind := hblind
  engine := he
  sound := hr.sound
  labelled := labelled_of_reachable hr

private theorem walkImports_runsAlike (hd : d.Retold place d') (o : Observation) (hl : Lockstep d d' h h')
    (hends : (walkImports o d h).1 ≠ .error .unfinished)
    (hu : ∀ graph, (walkImports o d h).1 = .ok graph → ∀ e ∈ graph.edges,
      Unaffected h.tools.reassembler place d d' (scriptOf e.2)) :
    (walkImports o d' h').1 = (walkImports o d h).1 ∧ Lockstep d d' (walkImports o d h).2 (walkImports o d' h').2 := by
  have hlimit : h'.walkLimit = h.walkLimit := congrArg (·.2.2.2.2.2) hl.setup
  unfold walkImports at hends hu ⊢
  rw [Action.bind_host_run] at hends
  rw [Action.bind_host_run, Action.bind_host_run, hlimit]
  cases hwalk : (walk h.walkLimit (.start .empty o) d h).1 with
  | error e =>
    rw [hwalk, walk_eq_error hl.sound hwalk] at hends
    exact absurd rfl hends
  | ok graph => exact hwalk ▸ walk_runsAlike hd hl hwalk (hu graph hwalk)

variable {path : String} {origin : Option String}

/-- A closure does not depend on the text of a declaration file: it finds the same scripts, and tracks the same ones
with the same versions and the same texts. -/
theorem expandClosure_ignores_declarations (hr : h.Reachable) (he : h.tools.engine = SyntaxEngine.engine)
    (hresolver : h.tools.resolver.resolve = resolveOnDisk) (hd : d.Retold place d') {declaration : String}
    (hdecl : hasTail declarationExtension declaration = true) (hplace : d.locate declaration = .ok place)
    (hends : (expandClosure path origin d h).1 ≠ .error .unfinished)
    (hroot : ∀ i, (identify path origin d h).1 = .ok i → Unaffected h.tools.reassembler place d d' i)
    (hedges : ∀ graph, (expandClosure path origin d h).1 = .ok graph → ∀ e ∈ graph.edges,
      Unaffected h.tools.reassembler place d d' (scriptOf e.2)) :
    (expandClosure path origin d' h).1 = (expandClosure path origin d h).1 ∧
      ∀ key, ((expandClosure path origin d' h).2.store.get? key).map outline =
        ((expandClosure path origin d h).2.store.get? key).map outline := by
  have hl : Lockstep d d' h h := .start hr he (by rw [hresolver, resolveOnDisk_of_retold hd hdecl hplace])
  suffices hall : (expandClosure path origin d' h).1 = (expandClosure path origin d h).1 ∧
      Lockstep d d' (expandClosure path origin d h).2 (expandClosure path origin d' h).2 from ⟨hall.1, hall.2.records⟩
  have hobserve : (observe path origin none d' h).1 = (observe path origin none d h).1 ∧
      Lockstep d d' (observe path origin none d h).2 (observe path origin none d' h).2 :=
    RunsAlike.bind_of_ok (identify_runsAlike path origin h h hl) fun {i h₁ h₁'} hi hl₁ =>
      observeIdentity_runsAlike hd (hroot i (congrArg Prod.fst hi)).elsewhere h₁ h₁' hl₁
  unfold expandClosure at hends hedges ⊢
  refine RunsAlike.bind_of_ok hobserve fun {o h₁ h₁'} ho hl₁ => ?_
  have hq := observe_quiet path origin none d h
  rw [ho] at hq
  rw [Action.bind_run_of_ok ho] at hends hedges
  have hwf := wellFormed_of_observe hr.sound ho
  obtain ⟨i, h₀, hi, ho⟩ := Action.bind_eq_ok.1 ho
  obtain ⟨rfl, -⟩ := observeIdentity_eq_ok.1 ho
  have hcommit := observed_runsAlike hd (wellFormed_of_identify hr.sound hi)
    (hq.tools ▸ hroot i (congrArg Prod.fst hi)) ho hl₁
  refine RunsAlike.bind_of_ok hcommit fun {stored h₂ h₂'} hstored hl₂ => ?_
  have honward := commit_onward (.of_wellFormed hwf d) hl₁.sound
  rw [hstored] at honward
  rw [Action.bind_run_of_ok hstored] at hends hedges
  refine walkImports_runsAlike hd o hl₂ hends fun graph hgraph e he => ?_
  rw [honward.tools, hq.tools]
  exact hedges graph hgraph e he

private theorem merge_interface : ∀ name ∈ ["A", "B"],
    Merge.typePrelude (statementsIn (sourcePath "/r/a.js") "1")
      (statementsIn (shimPath "/r/a.d.ts") ("interface " ++ name ++ " {}")) =
        .ok ("interface " ++ name ++ " {}\n1\n") := by
  decide +kernel

/-- An imported script is tracked alike with different declarations, although engines do not see the same. -/
theorem expandClosure_ignores_declarations_of_import : ∃ (d d' : Disk) (h : Host SyntaxEngine),
    ((expandClosure "/r/x.ts" none d h).2.store.get? "/r/a.ts").map (·.content) = some "interface A {}\n1\n" ∧
    ((expandClosure "/r/x.ts" none d' h).2.store.get? "/r/a.ts").map (·.content) = some "interface B {}\n1\n" ∧
    (expandClosure "/r/x.ts" none d' h).1 = (expandClosure "/r/x.ts" none d h).1 ∧
    ∀ key, ((expandClosure "/r/x.ts" none d' h).2.store.get? key).map outline =
      ((expandClosure "/r/x.ts" none d h).2.store.get? key).map outline := by
  let before := (Disk.empty.write "/r/x.ts" (.text "import './a.js'")).write "/r/a.js" (.text "1")
  let d := before.write "/r/a.d.ts" (.text "interface A {}")
  let d' := before.write "/r/a.d.ts" (.text "interface B {}")
  let h := fresh ⟨nodeResolver, Merge.typePrelude, SyntaxEngine.engine⟩ SyntaxEngine.fresh "/r"
  let root : Identity := .ofResolved "/r/x.ts"
  let edge : String × Edge := ("/r/x.ts", ⟨"./a.js", "/r/a.js", "/r/a.ts"⟩)
  have hd : d.Retold ["a.d.ts", "r"] d' :=
    Disk.retold_write (by decide) (by decide) (by decide +kernel) (by decide +kernel) _ _
  have hplace : d.locate "/r/a.d.ts" = .ok ["a.d.ts", "r"] := by decide +kernel
  have hroot : (identify "/r/x.ts" none d h).1 = .ok root ∧ root.isCompiled = false ∧
      d.locate (fileOf root) ≠ .ok ["a.d.ts", "r"] := by
    decide +kernel
  have hgraph : (expandClosure "/r/x.ts" none d h).1 = .ok (Graph.empty.addImport edge.1 edge.2) := by
    decide +kernel
  have hedge : d.locate (fileOf (scriptOf edge.2)) ≠ .ok ["a.d.ts", "r"] ∧ d.load "/r/a.js" = .ok "1" ∧
      declarationsBeside d "/r/a.js" = some "/r/a.d.ts" := by
    decide +kernel
  have htexts : d.load "/r/a.d.ts" = .ok "interface A {}" ∧ d'.load "/r/a.d.ts" = .ok "interface B {}" := by
    decide +kernel
  have hseen : ((expandClosure "/r/x.ts" none d h).2.store.get? "/r/a.ts").map (·.content) =
      some "interface A {}\n1\n" := by
    decide +kernel
  have hseen' : ((expandClosure "/r/x.ts" none d' h).2.store.get? "/r/a.ts").map (·.content) =
      some "interface B {}\n1\n" := by
    decide +kernel
  have hu : h.Unused := unused_fresh ..
  have ht : h.tools = ⟨nodeResolver, Merge.typePrelude, SyntaxEngine.engine⟩ := rfl
  clear_value d d' h
  have he : h.tools.engine = SyntaxEngine.engine := by rw [ht]
  have hresolver : h.tools.resolver.resolve = resolveOnDisk := by rw [ht, nodeResolver]
  have hmerges : h.tools.reassembler = Merge.typePrelude := by rw [ht]
  have hends : (expandClosure "/r/x.ts" none d h).1 ≠ .error .unfinished := by
    rw [hgraph]
    exact nofun
  have hdecl : hasTail declarationExtension "/r/a.d.ts" = true := by decide
  refine ⟨d, d', h, hseen, hseen', expandClosure_ignores_declarations hu.reachable he hresolver hd hdecl hplace hends
    (fun i hi => ?_) fun graph hg e hmem => ?_⟩
  · rw [hroot.1] at hi
    cases hi
    exact ⟨hroot.2.2, fun _ _ hc => absurd hc (by rw [hroot.2.1]; decide)⟩
  · rw [hgraph] at hg
    cases hg
    rw [Graph.edges_addImport] at hmem
    rw [List.mem_singleton.1 hmem, hmerges]
    refine ⟨hedge.1, fun declaration raw _ hb _ hraw => ?_⟩
    have hb : declarationsBeside d "/r/a.js" = some declaration := hb
    have hraw : d.load "/r/a.js" = .ok raw := hraw
    rw [hedge.2.2] at hb
    rw [hedge.2.1] at hraw
    cases hb
    cases hraw
    exact ⟨⟨_, _, htexts.1, merge_interface "A" (by simp)⟩, _, _, htexts.2, merge_interface "B" (by simp)⟩

/-- The first script may be the declaration file itself, although no import leads there. -/
theorem expandClosure_not_ignores_declarations : ¬ ∀ (d d' : Disk) (place : Place) (h : Host SyntaxEngine)
    (path compiled declaration : String) (graph : Graph), h.Unused →
    h.tools = ⟨nodeResolver, Merge.typePrelude, SyntaxEngine.engine⟩ → d.Retold place d' →
    declarationsBeside d compiled = some declaration → d.locate declaration = .ok place →
    (∀ raw, d.load compiled = .ok raw →
      CanMerge Merge.typePrelude d compiled raw declaration ∧ CanMerge Merge.typePrelude d' compiled raw declaration) →
    (expandClosure path none d h).1 = .ok graph → (∀ e ∈ graph.edges, d.locate (fileOf (scriptOf e.2)) ≠ .ok place) →
    ∀ key, ((expandClosure path none d' h).2.store.get? key).map outline =
      ((expandClosure path none d h).2.store.get? key).map outline := by
  let before := Disk.empty.write "/r/a.js" (.text "1")
  let d := before.write "/r/a.d.ts" (.text "interface A {}")
  let d' := before.write "/r/a.d.ts" (.text "interface B {}")
  let h := fresh ⟨nodeResolver, Merge.typePrelude, SyntaxEngine.engine⟩ SyntaxEngine.fresh "/r"
  have hd : d.Retold ["a.d.ts", "r"] d' :=
    Disk.retold_write (by decide) (by decide) (by decide +kernel) (by decide +kernel) _ _
  have hplace : d.locate "/r/a.d.ts" = .ok ["a.d.ts", "r"] := by decide +kernel
  have hbeside : declarationsBeside d "/r/a.js" = some "/r/a.d.ts" := by decide +kernel
  have htexts : d.load "/r/a.js" = .ok "1" ∧ d.load "/r/a.d.ts" = .ok "interface A {}" ∧
      d'.load "/r/a.d.ts" = .ok "interface B {}" := by
    decide +kernel
  have hgraph : (expandClosure "/r/a.d.ts" none d h).1 = .ok (Graph.empty.addFile "/r/a.ts") := by
    decide +kernel
  have houtline : ((expandClosure "/r/a.d.ts" none d h).2.store.get? "/r/a.ts").map outline =
      some (1, "interface A {}") := by
    decide +kernel
  have houtline' : ((expandClosure "/r/a.d.ts" none d' h).2.store.get? "/r/a.ts").map outline =
      some (1, "interface B {}") := by
    decide +kernel
  have hu : h.Unused := unused_fresh ..
  have ht : h.tools = ⟨nodeResolver, Merge.typePrelude, SyntaxEngine.engine⟩ := rfl
  clear_value d d' h
  intro hall
  have hmerges : ∀ raw, d.load "/r/a.js" = .ok raw → CanMerge Merge.typePrelude d "/r/a.js" raw "/r/a.d.ts" ∧
      CanMerge Merge.typePrelude d' "/r/a.js" raw "/r/a.d.ts" := by
    intro raw hraw
    rw [htexts.1] at hraw
    cases hraw
    exact ⟨⟨_, _, htexts.2.1, merge_interface "A" (by simp)⟩, _, _, htexts.2.2, merge_interface "B" (by simp)⟩
  have hsame := hall d d' _ h "/r/a.d.ts" "/r/a.js" "/r/a.d.ts" _ hu ht hd hbeside hplace hmerges hgraph
    (fun e he => by rw [Graph.edges_addFile] at he; cases he) "/r/a.ts"
  rw [houtline, houtline'] at hsame
  exact absurd hsame (by decide)

end ScriptHost.Host
