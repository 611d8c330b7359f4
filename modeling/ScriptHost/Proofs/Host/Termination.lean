import ScriptHost.Proofs.Host.Closure
import ScriptHost.Proofs.Resolution.Lookup

/-!
# Where walks end

A walk ends if every file that it may meet is known by one path only.  Then each script that it tracks takes one of the
files on the disk away from those that it can still track (`untracked_discovered`), so that it visits at most one script
more than there are files (`walk_ends`).
-/

namespace ScriptHost.Host

open ScriptHost.Imports ScriptHost.Path ScriptHost.Resolution
open ScriptHost.Disk (pathOf)

variable {σ : Type} {d : Disk} {r : Resolver}

/-! ### What is remembered -/

/-- The identity of a file that was found under a canonical path. -/
def FoundDirectly (i : Identity) : Prop := ∃ path, Canonical path ∧ i = .ofResolved path

/-- What is remembered of names other than shim paths was found under canonical paths. -/
def Settled (m : Memo) : Prop := ∀ request i, m.found.get? request = some i → isShim request.1 = false → FoundDirectly i

private theorem settled_empty : Settled .empty := by
  intro request i hi
  cases hi

/-- Names that are seen from a directory lead to files in one way only. -/
structure DirectNames (dir : String) (names : List String) : Prop where
  canonical : Canonical dir
  direct : ∀ name ∈ names, Direct dir name

/-- A resolver finds files in one way only, and so do the imports in the files of a disk. -/
structure OneWay (r : Resolver) (d : Disk) : Prop where
  finds : ∀ {name origin path}, Canonical (originDirectory d origin) → Direct (originDirectory d origin) name →
    r.resolve d name origin = .ok path → Canonical path
  imports : ∀ x ∈ d.texts, ∀ name ∈ importNames r x.2, Direct (pathOf x.1.tail) name

private theorem oneWay_nodeResolver (hmanifests : ManifestsGrounded d)
    (himports : ∀ x ∈ d.texts, ∀ name ∈ importNames nodeResolver x.2, Direct (pathOf x.1.tail) name) :
    OneWay nodeResolver d :=
  ⟨canonical_of_nodeResolver hmanifests, himports⟩

section

variable {h : Host σ} {name origin : String}

private theorem foundDirectly_of_identify (hd : OneWay r d) (hr : h.tools.resolver = r) (hs : Settled h.memo)
    (hdir : Canonical (originDirectory d origin)) (hname : Direct (originDirectory d origin) name) {i : Identity}
    (hi : (identify name (some origin) d h).1 = .ok i) : FoundDirectly i := by
  rw [identify_run, Option.getD_some, Memo.resolve_answer, hr] at hi
  cases hf : h.memo.found.get? (Memo.key name origin) with
  | some j =>
    rw [hf] at hi
    cases hi
    exact hs _ i hf hname.1
  | none =>
    rw [hf, Option.map_none, Option.getD_none, Memo.identify, hname.1, if_neg (by decide)] at hi
    cases hl : r.resolve d name origin with
    | error e =>
      rw [hl] at hi
      cases hi
    | ok path =>
      rw [hl] at hi
      cases hi
      exact ⟨path, hd.finds hdir hname hl, rfl⟩

private theorem settled_identify (hd : OneWay r d) (hr : h.tools.resolver = r) (hs : Settled h.memo)
    (hdir : Canonical (originDirectory d origin)) (hname : Direct (originDirectory d origin) name) :
    Settled (identify name (some origin) d h).2.memo := by
  intro request i hi hshim
  rw [get?_identify] at hi
  split at hi
  · exact foundDirectly_of_identify hd hr hs hdir hname (toOption_eq_some_iff.1 hi)
  · exact hs request i hi hshim

end

/-- Two memos remember the same of all names other than shim paths. -/
def SameNames (m m' : Memo) : Prop :=
  ∀ request, isShim request.1 = false → m'.found.get? request = m.found.get? request

private theorem SameNames.settled {m m' : Memo} (hsame : SameNames m m') (hs : Settled m) : Settled m' := by
  intro request i hi hshim
  rw [hsame request hshim] at hi
  exact hs request i hi hshim

private theorem sameNames_identify_shim {name : String} (hname : isShim name = true) (origin : Option String) (d : Disk)
    (h : Host σ) : SameNames h.memo (identify name origin d h).2.memo := by
  intro request hshim
  rw [get?_identify, if_neg]
  rintro rfl
  rw [show (Memo.key name (origin.getD h.directory)).1 = name from rfl, hname] at hshim
  cases hshim

section

variable {m : Memo}

/-- A merge looks up nothing but a shim path. -/
private theorem mergedContent_keeps_names (o : Observation) :
    (mergedContent o : Action σ String).Keeps d fun h => h.memo.Sound ∧ SameNames m h.memo := by
  intro h hI
  obtain ⟨hm, hsame⟩ := hI
  by_cases hc : o.identity.isCompiled = true
  · cases hd : declarationsBeside d o.identity.resolved with
    | none =>
      rw [mergedContent_of_plain fun _ => hd]
      exact ⟨hm, hsame⟩
    | some declaration =>
      have hlearned := (identify_quiet (shimPath declaration) none d h).sound hm
      have hnames : SameNames m (identify (shimPath declaration) none d h).2.memo := fun request hshim =>
        (sameNames_identify_shim (isShim_shimPath declaration) none d h request hshim).trans (hsame request hshim)
      rw [mergedContent_run hc hd hm]
      cases seenText h.store d (.shim (shimPath declaration)) none with
      | error e => exact ⟨hlearned, hnames⟩
      | ok text => exact ⟨hlearned, hnames⟩
  · rw [mergedContent_of_plain fun hc' => absurd hc' hc]
    exact ⟨hm, hsame⟩

private theorem commit_keeps_names (o : Observation) :
    (commit o : Action σ Bool).Keeps d fun h => h.memo.Sound ∧ SameNames m h.memo := by
  unfold commit
  split
  · exact .pure false
  · exact (mergedContent_keeps_names o).bind fun content => .bind (fun h hI => hI) fun _ => .pure true

theorem trackImport_keeps_names (i : Identity) :
    (trackImport i : Action σ (Option String)).Keeps d fun h => h.memo.Sound ∧ SameNames m h.memo := by
  unfold trackImport
  refine .bind (.attempt fun h hI => ?_) fun seen => ?_
  · rw [observeIdentity_run]
    exact hI
  · cases seen with
    | error e => exact .pure none
    | ok o =>
      refine .bind (.attempt (commit_keeps_names o)) fun stored => ?_
      split <;> exact .pure _

private theorem followImports_keeps_names (importer : String) (imports : List (String × Identity)) (w : Walk) :
    (followImports importer imports w : Action σ Walk).Keeps d fun h => h.memo.Sound ∧ SameNames m h.memo := by
  induction imports generalizing w with
  | nil => exact .pure w
  | cons x rest ih =>
    unfold followImports
    refine .bind_host fun h hI => ?_
    split
    · exact ih w h hI
    · dsimp only
      split
      · exact ih _ h hI
      · refine Action.Keeps.bind (trackImport_keeps_names x.2) (fun text => ?_) h hI
        cases text <;> exact ih _

end

private theorem identifyAll_keeps_settled (hd : OneWay r d) {origin : String} {names : List String}
    (hnames : DirectNames (originDirectory d origin) names) :
    (identifyAll origin names : Action σ _).Keeps d fun h => h.tools.resolver = r ∧ Settled h.memo :=
  identifyAll_keeps fun name hname _ hI =>
    ⟨hI.1, settled_identify hd hI.1 hI.2 hnames.canonical (hnames.direct name hname)⟩

private theorem settled_importsIn (hd : OneWay r d) {h h₁ : Host σ} (hr : h.tools.resolver = r) (hs : Settled h.memo)
    {source origin : String} (hnames : DirectNames (originDirectory d origin) (importNames r source))
    {answer : Except HostError (List (String × Identity))} (hrun : importsIn source origin d h = (answer, h₁)) :
    h₁.tools.resolver = r ∧ Settled h₁.memo := by
  subst hr
  unfold importsIn at hrun
  rw [Action.bind_host_run] at hrun
  have hkeeps := identifyAll_keeps_settled hd hnames h ⟨rfl, hs⟩
  have hlast := congrArg Prod.snd hrun
  generalize (identifyAll origin (importNames h.tools.resolver source) d h).2 = h₂ at hkeeps hlast
  rwa [← show h₂ = h₁ from hlast]

/-! ### What is tracked -/

/-- A record that a script has got holds the text of the file whose path it was found under. -/
def Loaded (d : Disk) (x : Identity × Record) : Prop :=
  ∃ place, Named place ∧ d.load (pathOf place) = .ok x.2.rawContent ∧ x.1 = .ofResolved (pathOf place)

private theorem loaded_of_discovered {known : List String} {ms : List (Meeting σ)}
    (hms : ∀ m ∈ ms, FoundDirectly m.script) {x : Identity × Record} (hx : x ∈ discovered d known ms) : Loaded d x := by
  obtain ⟨m, hm, hscript, hr⟩ := exists_meeting_of_discovered hx
  obtain ⟨path, ⟨place, hplace, rfl⟩, hfound⟩ := hms m hm
  obtain ⟨-, text, content, htext, -, hrecord⟩ := Meeting.record?_eq_some_iff.1 hr
  rw [hfound] at htext
  refine ⟨place, hplace, ?_, hscript.symm.trans hfound⟩
  rw [hrecord]
  exact htext

/-- The imports in a file that has been loaded are seen from its directory. -/
private theorem directNames_of_loaded (hd : OneWay r d) {x : Identity × Record} (hx : Loaded d x) :
    DirectNames (originDirectory d x.1.resolved) (importNames r x.2.rawContent) := by
  obtain ⟨place, hplace, hload, hid⟩ := hx
  have hentry := Disk.entry?_of_load hplace hload
  rw [hid]
  cases place with
  | nil => cases hentry
  | cons name place =>
    rw [show (Identity.ofResolved (pathOf (name :: place))).resolved = pathOf (name :: place) from rfl,
      originDirectory_of_isFile hplace.parts (Disk.isFile_of_load hload)]
    have hdirect := hd.imports _ (Disk.mem_texts hentry)
    rw [List.tail_cons] at hdirect
    exact ⟨⟨place, (List.forall_mem_cons.1 hplace).2, rfl⟩, hdirect⟩

/-- The files that could still be tracked when some keys are known. -/
def untracked (d : Disk) (known : List String) : List (Place × String) :=
  d.texts.filter fun x => !known.contains (sourcePath (pathOf x.1))

private theorem untracked_cons (known : List String) (key : String) :
    untracked d (key :: known) = (untracked d known).filter fun x => sourcePath (pathOf x.1) != key := by
  unfold untracked
  rw [List.filter_filter]
  refine List.filter_congr fun x _ => ?_
  rw [List.contains_cons, Bool.not_or, bne]

/-- Whatever is discovered takes a file away from those that could still be tracked. -/
theorem untracked_discovered {known : List String} {ms : List (Meeting σ)}
    (hloaded : ∀ x ∈ discovered d known ms, Loaded d x) :
    (discovered d known ms).length + (untracked d (knownAfter known ms)).length ≤ (untracked d known).length := by
  induction ms generalizing known with
  | nil => simp [discovered, knownAfter]
  | cons m rest ih =>
    cases hc : known.contains m.key with
    | true =>
      rw [discovered_cons_of_known hc] at hloaded ⊢
      rw [knownAfter_cons_of_known hc]
      exact ih hloaded
    | false =>
      rw [discovered_cons_of_new hc] at hloaded ⊢
      rw [knownAfter_cons_of_new hc]
      have hrest := ih fun x hx => hloaded x (List.mem_append_right _ hx)
      rw [untracked_cons] at hrest
      cases hr : m.record? d with
      | none =>
        have hle := List.length_filter_le (fun x => sourcePath (pathOf x.1) != m.key) (untracked d known)
        simp only [Option.map_none, Option.toList_none, List.nil_append]
        omega
      | some r =>
        -- the file of the script is one that could be tracked before
        rw [hr] at hloaded
        obtain ⟨place, hplace, hload, hid⟩ := hloaded (m.script, r) (List.mem_append_left _ (by simp))
        have hkey : sourcePath (pathOf place) = m.key := (congrArg Identity.normalized hid).symm
        have hmem : (place, r.rawContent) ∈ untracked d known :=
          List.mem_filter.2 ⟨Disk.mem_texts (Disk.entry?_of_load hplace hload), by rw [hkey, hc]; rfl⟩
        have hlt : ((untracked d known).filter fun x => sourcePath (pathOf x.1) != m.key).length <
            (untracked d known).length :=
          List.length_filter_lt_length_iff_exists.2 ⟨_, hmem, by simp [hkey]⟩
        simp only [Option.map_some, Option.toList_some, List.singleton_append, List.length_cons]
        omega

/-! ### Walks -/

/-- When the imports of a script are followed, nothing but shims is looked up. -/
theorem Leg.names {script : Identity} {text : String} {w w' : Walk} {h h₁ h₂ : Host σ} {ms : List (Meeting σ)}
    (hleg : Leg d script text w h h₁ ms w' h₂) (hm : h₁.memo.Sound) : SameNames h₁.memo h₂.memo := by
  have hkept := followImports_keeps_names (d := d) script.normalized
    (Host.identified script.resolved (importNames h.tools.resolver text) d h₁) w h₁ ⟨hm, fun _ _ => rfl⟩
  rw [hleg.followed] at hkept
  exact hkept.2

/-- A walk that can only meet what is known by one path. -/
structure Orderly (r : Resolver) (d : Disk) (w : Walk) (h : Host σ) : Prop where
  resolver : h.tools.resolver = r
  sound : h.memo.Sound
  settled : Settled h.memo
  names : ∀ x ∈ w.queue, DirectNames (originDirectory d x.1.resolved) (importNames r x.2)

/-- A visit keeps a walk orderly, and what it discovers has been loaded from files. -/
private theorem Orderly.visit (hd : OneWay r d) {graph : Graph} {visited : List String} {script : Identity}
    {text : String}
    {queue : List (Identity × String)} {h : Host σ} (ho : Orderly r d ⟨graph, visited, (script, text) :: queue⟩ h) :
    ∃ h₁ ms w' h₂, Leg d script text ⟨graph, visited, queue⟩ h h₁ ms w' h₂ ∧ Orderly r d w' h₂ ∧
      ∀ x ∈ discovered d visited ms, Loaded d x := by
  obtain ⟨hr, hm, hs, hnames⟩ := ho
  obtain ⟨hnames, hqueue⟩ := List.forall_mem_cons.1 hnames
  obtain ⟨h₁, ms, w', h₂, hleg⟩ := exists_leg (d := d) script text ⟨graph, visited, queue⟩ hm
  have hround := hleg.round
  have honward := hround.trail.reached.onward
  obtain ⟨hr₁, hs₁⟩ := settled_importsIn hd hr hs hnames hleg.looked
  have hfound : ∀ m ∈ ms, FoundDirectly m.script := by
    intro m hm
    obtain ⟨name, hname, hi⟩ := hleg.identified hm
    exact foundDirectly_of_identify hd hr₁ hs₁ hnames.canonical (hnames.direct _ (hr ▸ hname)) hi
  have hloaded : ∀ x ∈ discovered d visited ms, Loaded d x := fun x => loaded_of_discovered hfound
  refine ⟨h₁, ms, w', h₂, hleg, ⟨?_, hleg.sound hm, (hleg.names (hleg.quiet.sound hm)).settled hs₁, ?_⟩, hloaded⟩
  · rw [honward.tools, hr₁]
  · intro x hx
    rw [hround.queue] at hx
    rcases List.mem_append.1 hx with hx | hx
    · exact hqueue x hx
    · obtain ⟨y, hy, rfl⟩ := List.mem_map.1 hx
      exact directNames_of_loaded hd (hloaded y hy)

/-- A record is that of a file: it has the text of the file and the key of its only path. -/
def OfFile (d : Disk) (key : String) (record : Record) : Prop :=
  ∃ place, d.entry? place = some (.file (.text record.rawContent)) ∧ key = sourcePath (pathOf place)

private theorem ofFile_of_recordAfter {known : List String} {s : Store} {ms : List (Meeting σ)}
    (hloaded : ∀ x ∈ discovered d known ms, Loaded d x) {key : String} {record : Record}
    (hrecord : recordAfter d known s ms key = some record) : s.get? key = some record ∨ OfFile d key record := by
  rcases Option.or_eq_some_iff.1 hrecord with hold | ⟨-, hnew⟩
  · exact .inl hold
  · obtain ⟨x, hx, rfl⟩ := Option.map_eq_some_iff.1 hnew
    obtain ⟨place, hplace, hload, hid⟩ := hloaded x (List.mem_of_find?_eq_some hx)
    refine .inr ⟨place, Disk.entry?_of_load hplace hload, ?_⟩
    have hkey : x.1.normalized = key := by simpa using List.find?_some hx
    rw [← hkey, hid]
    rfl

/-- A walk ends when there is nothing left to visit and no file left to track. -/
theorem Orderly.walk_ends (hd : OneWay r d) {n : Nat} {w : Walk} {h : Host σ} (ho : Orderly r d w h)
    (hn : w.queue.length + (untracked d w.visited).length ≤ n) :
    ∃ graph h', (∀ limit, n ≤ limit → walk limit w d h = (.ok graph, h')) ∧
      ∀ key record, h'.store.get? key = some record → h.store.get? key = some record ∨ OfFile d key record := by
  induction n, w using walk_induction generalizing h with
  | done n graph visited =>
    refine ⟨graph, h, fun limit _ => ?_, fun key record => .inl⟩
    rw [walk_nil]
    rfl
  | givenUp graph visited x queue =>
    rw [List.length_cons] at hn
    omega
  | visit n graph visited script text queue ih =>
    obtain ⟨h₁, ms, w', h₂, hleg, ho', hloaded⟩ := ho.visit hd
    have hround := hleg.round
    have hmeasure : w'.queue.length + (untracked d w'.visited).length ≤ n := by
      have htaken := untracked_discovered hloaded
      rw [hround.queue, hround.visited, List.length_append, List.length_map]
      simp only [List.length_cons] at hn ⊢
      omega
    obtain ⟨graph', h', hwalk, hrecords⟩ := ih w' ho' hmeasure
    refine ⟨graph', h', fun limit hlimit => ?_, fun key record hkey => ?_⟩
    · obtain ⟨limit, rfl⟩ : ∃ k, limit = k + 1 := ⟨limit - 1, by omega⟩
      exact (hleg.next limit).trans (hwalk limit (by omega))
    · rcases hrecords key record hkey with hkey | hfile
      · rw [hround.trail.reached.record] at hkey
        rw [← hleg.quiet.store]
        exact ofFile_of_recordAfter hloaded hkey
      · exact .inr hfile

/-- A walk over imports ends after at most one visit more than there are files with texts, and it tracks at most one
script for each of these files, with its text and under its key.  This needs that every file is met under one path only.
It is so if imports and manifests do not lead above the root, no import is a shim path, and no dots stand in the names
of packages: in a path to a package dots are not removed, so there is a path for each way in which it can be spelled. -/
theorem walk_terminates (hmanifests : ManifestsGrounded d)
    (himports : ∀ x ∈ d.texts, ∀ name ∈ importNames nodeResolver x.2, Direct (pathOf x.1.tail) name)
    {h : Host σ} (hr : h.tools.resolver = nodeResolver) (hm : h.memo.Sound) (hs : Settled h.memo) {root : Observation}
    (hroot : DirectNames (originDirectory d root.identity.resolved) (importNames nodeResolver root.raw)) :
    ∃ graph h', (∀ limit, d.texts.length < limit → walk limit (.start .empty root) d h = (.ok graph, h')) ∧
      (∀ key record, h.store.get? key = some record → h'.store.get? key = some record) ∧
      ∀ key record, h'.store.get? key = some record → h.store.get? key = some record ∨ OfFile d key record := by
  have ho : Orderly nodeResolver d (.start .empty root) h :=
    ⟨hr, hm, hs, fun x hx => List.mem_singleton.1 hx ▸ hroot⟩
  have hmeasure : [(root.identity, root.raw)].length + (untracked d [root.path]).length ≤ d.texts.length + 1 := by
    have := List.length_filter_le (fun x => !List.contains [root.path] (sourcePath (pathOf x.1))) d.texts
    unfold untracked
    rw [List.length_singleton]
    omega
  obtain ⟨graph, h', hwalk, hrecords⟩ := ho.walk_ends (oneWay_nodeResolver hmanifests himports) hmeasure
  refine ⟨graph, h', fun limit hlimit => hwalk limit (by omega), fun key record hkey => ?_, hrecords⟩
  exact record_of_walk hm (hwalk _ (Nat.le_refl _)) hkey

/-- Scripts that import each other and a package are visited and then no others. -/
theorem walk_terminates_on_cycle : ∃ (d : Disk) (h : Host Analysis.SyntaxEngine) (root : Observation),
    d.texts.length = 3 ∧ root.path = "/r/a.ts" ∧ h.store.size = 0 ∧
      ∃ graph h', (∀ limit, d.texts.length < limit → walk limit (.start .empty root) d h = (.ok graph, h')) ∧
        (∀ key record, h.store.get? key = some record → h'.store.get? key = some record) ∧
        ∀ key record, h'.store.get? key = some record → h.store.get? key = some record ∨ OfFile d key record := by
  let d := ((Disk.empty.write "/r/a.ts" (.text "import './b'")).write "/r/b.ts"
    (.text "import './a'\nimport 'p'")).write "/r/node_modules/p.ts" (.text "1")
  let h := fresh ⟨nodeResolver, Merge.typePrelude, Analysis.SyntaxEngine.engine⟩ .fresh "/r"
  let root : Observation := ⟨.ofResolved "/r/a.ts", "import './b'", true⟩
  have hmanifests : ManifestsGrounded d := by decide +kernel
  have himports : ∀ x ∈ d.texts, ∀ name ∈ importNames nodeResolver x.2, Direct (pathOf x.1.tail) name := by
    decide +kernel
  have hnames : Named ["r"] := by
    intro part hpart
    rw [List.mem_singleton.1 hpart]
    exact ⟨by decide, by decide⟩
  have hroot : DirectNames (originDirectory d root.identity.resolved) (importNames nodeResolver root.raw) :=
    ⟨⟨["r"], hnames, by decide +kernel⟩, by decide +kernel⟩
  have hthree : d.texts.length = 3 := by decide +kernel
  have hpath : root.path = "/r/a.ts" := by decide +kernel
  have hsize : h.store.size = 0 := rfl
  have hr : h.tools.resolver = nodeResolver := rfl
  have hm : h.memo.Sound := Memo.sound_empty
  have hs : Settled h.memo := settled_empty
  clear_value d h root
  exact ⟨d, h, root, hthree, hpath, hsize, walk_terminates hmanifests himports hr hm hs hroot⟩

end ScriptHost.Host
