import ScriptHost.Host.Closure
import ScriptHost.Proofs.Host.Action
import ScriptHost.Proofs.Resolution.Memo

/-!
# Looking things up

Much of what a host does leaves no trace but in its memo and in its engine.  `Quiet d h h'` says that nothing else has
happened between the states `h` and `h'`: the setup and the records are the same, and the memo has learned from the
disk `d`.  `Onward d h h'` says as much, except that records may have changed.  Identifying and observing scripts are
quiet, and so is merging one with its declarations (`mergedContent_quiet`), although the records of both are put aside
for the time of the merge.
-/

namespace ScriptHost.Host

open ScriptHost.Analysis ScriptHost.Path ScriptHost.Resolution

variable {σ : Type}

theorem toOption_eq_some_iff {ε α : Type} {x : Except ε α} {a : α} : x.toOption = some a ↔ x = .ok a := by
  cases x <;> simp [Except.toOption]

theorem toOption_eq_none_iff {ε α : Type} {x : Except ε α} : x.toOption = none ↔ ∃ e, x = .error e := by
  cases x with
  | error e => exact ⟨fun _ => ⟨e, rfl⟩, fun _ => rfl⟩
  | ok a => exact ⟨nofun, nofun⟩

theorem toOption_mapError {ε δ α : Type} (f : ε → δ) (x : Except ε α) : (x.mapError f).toOption = x.toOption := by
  cases x <;> rfl

/-- The parts of a host that nothing but options changes. -/
def setup (h : Host σ) : Tools σ × String × String × Settings × Exclusions × Nat :=
  (h.tools, h.directory, h.libraries, h.settings, h.exclusions, h.walkLimit)

/-- From `h` to `h'`, things have been looked up on a disk, and records may have changed. -/
structure Onward (d : Disk) (h h' : Host σ) : Prop where
  setup : h'.setup = h.setup
  memo : Memo.Learned h.tools.resolver d h.memo h'.memo

namespace Onward

variable {d : Disk} {h h₁ h₂ : Host σ}

theorem refl (d : Disk) (h : Host σ) : Onward d h h := ⟨rfl, .refl ..⟩

theorem tools (ho : Onward d h h₁) : h₁.tools = h.tools := congrArg (·.1) ho.setup

theorem exclusions (ho : Onward d h h₁) : h₁.exclusions = h.exclusions := congrArg (·.2.2.2.2.1) ho.setup

theorem trans (ho : Onward d h h₁) (ho' : Onward d h₁ h₂) : Onward d h h₂ := by
  refine ⟨ho'.setup.trans ho.setup, ?_⟩
  have hm := ho'.memo
  rw [ho.tools] at hm
  exact ho.memo.trans hm

theorem sound (ho : Onward d h h₁) (hm : h.memo.Sound) : h₁.memo.Sound := ho.memo.sound hm

end Onward

/-- From `h` to `h'`, things have been looked up on a disk and nothing else has happened. -/
structure Quiet (d : Disk) (h h' : Host σ) : Prop extends Onward d h h' where
  store : ∀ path, h'.store.get? path = h.store.get? path

namespace Quiet

variable {d : Disk} {h h₁ h₂ : Host σ}

theorem refl (d : Disk) (h : Host σ) : Quiet d h h := ⟨.refl d h, fun _ => rfl⟩

theorem trans (hq : Quiet d h h₁) (hq' : Quiet d h₁ h₂) : Quiet d h h₂ :=
  ⟨hq.toOnward.trans hq'.toOnward, fun path => (hq'.store path).trans (hq.store path)⟩

/-- An action is quiet if it is quiet from every host on. -/
theorem keeps {α : Type} {x : Action σ α} (hx : ∀ h, Quiet d h (x d h).2) (h : Host σ) : x.Keeps d (Quiet d h) :=
  fun h₁ hq => hq.trans (hx h₁)

theorem engineState (d : Disk) (h : Host σ) (s : σ) : Quiet d h { h with engineState := s } :=
  ⟨⟨rfl, .refl ..⟩, fun _ => rfl⟩

end Quiet

/-! ### Identifying -/

theorem identify_run (path : String) (origin : Option String) (d : Disk) (h : Host σ) :
    identify path origin d h =
      ((h.memo.resolve h.tools.resolver d path (origin.getD h.directory)).1.mapError .resolution,
        { h with memo := (h.memo.resolve h.tools.resolver d path (origin.getD h.directory)).2 }) := rfl

theorem identify_quiet (path : String) (origin : Option String) (d : Disk) (h : Host σ) :
    Quiet d h (identify path origin d h).2 :=
  ⟨⟨rfl, Memo.learned_resolve ..⟩, fun _ => rfl⟩

theorem identify_of_found {path : String} {origin : Option String} {d : Disk} {h : Host σ} {i : Identity}
    (hf : h.memo.found.get? (Memo.key path (origin.getD h.directory)) = some i) :
    identify path origin d h = (.ok i, h) := by
  rw [identify_run, Memo.resolve_of_found hf]
  rfl

theorem get?_identify (path : String) (origin : Option String) (d : Disk) (h : Host σ)
    (request : Resolution.Request) :
    (identify path origin d h).2.memo.found.get? request =
      if request = Memo.key path (origin.getD h.directory) then (identify path origin d h).1.toOption
      else h.memo.found.get? request := by
  rw [identify_run, Memo.get?_resolve]
  cases (h.memo.resolve h.tools.resolver d path (origin.getD h.directory)).1 <;> rfl

theorem found_of_identify {path : String} {origin : Option String} {d : Disk} {h h' : Host σ} {i : Identity}
    (hi : identify path origin d h = (.ok i, h')) :
    h'.memo.found.get? (Memo.key path (origin.getD h.directory)) = some i := by
  have hfound := get?_identify path origin d h (Memo.key path (origin.getD h.directory))
  rwa [hi, if_pos rfl] at hfound

theorem wellFormed_of_identify {path : String} {origin : Option String} {d : Disk} {h h' : Host σ} {i : Identity}
    (hm : h.memo.Sound) (hi : identify path origin d h = (.ok i, h')) : i.WellFormed := by
  have hq := identify_quiet path origin d h
  rw [hi] at hq
  exact (hq.sound hm).wellFormed (found_of_identify hi)

/-- What a path stands for does not change when something else is identified as seen from the same origin. -/
theorem identify_after (path other : String) (origin : Option String) (d : Disk) (h : Host σ) :
    (identify path origin d (identify other origin d h).2).1 = (identify path origin d h).1 := by
  simp only [identify_run]
  rw [Memo.resolve_answer_after]

theorem identify_of_isShim {path : String} (hs : isShim path = true) (origin : Option String) (d : Disk) {h : Host σ}
    (hm : h.memo.Sound) : (identify path origin d h).1 = .ok (.shim path) := by
  rw [identify_run, Memo.resolve_answer]
  cases hf : h.memo.found.get? (Memo.key path (origin.getD h.directory)) with
  | none =>
    simp only [Option.map_none, Option.getD_none, Memo.identify_of_isShim hs]
    rfl
  | some i =>
    rw [hm.shim hf hs]
    rfl

/-! ### Observing -/

/-- The text of a script: the one that is given, else the one that is stored, else the one on the disk. -/
def seenText (store : Store) (d : Disk) (i : Identity) (given : Option String) : Except HostError String :=
  match given, store.get? i.normalized with
  | some text, _ => .ok text
  | none, some record => .ok record.rawContent
  | none, none => (d.load (fileOf i)).mapError .load

theorem seenText_of_stored {store : Store} {i : Identity} {r : Record} (hr : store.get? i.normalized = some r)
    (d : Disk) : seenText store d i none = .ok r.rawContent := by
  simp [seenText, hr]

theorem seenText_of_untracked {store : Store} {i : Identity} (hr : store.get? i.normalized = none) (d : Disk) :
    seenText store d i none = (d.load (fileOf i)).mapError .load := by
  simp [seenText, hr]

private theorem textOf_run (i : Identity) (given : Option String) (d : Disk) (h : Host σ) :
    textOf i given d h = (seenText h.store d i given, h) := by
  unfold textOf seenText
  rw [Action.bind_host_run]
  cases given with
  | some text => rfl
  | none =>
    cases h.store.get? i.normalized with
    | some record => rfl
    | none =>
      show Action.lift .load (d.load (fileOf i)) d h = _
      cases d.load (fileOf i) <;> rfl

theorem observeIdentity_run (i : Identity) (given : Option String) (d : Disk) (h : Host σ) :
    observeIdentity i given d h =
      ((seenText h.store d i given).map fun raw => ⟨i, raw, h.store.needsUpdate i.normalized raw⟩, h) := by
  unfold observeIdentity
  cases hs : seenText h.store d i given with
  | error e => rw [Action.bind_run_of_error ((textOf_run i given d h).trans (by rw [hs]))]; rfl
  | ok raw => rw [Action.bind_run_of_ok ((textOf_run i given d h).trans (by rw [hs]))]; rfl

theorem observeIdentity_quiet (i : Identity) (given : Option String) (d : Disk) (h : Host σ) :
    Quiet d h (observeIdentity i given d h).2 := by
  rw [observeIdentity_run]
  exact .refl d h

theorem observe_quiet (path : String) (origin given : Option String) (d : Disk) (h : Host σ) :
    Quiet d h (observe path origin given d h).2 :=
  Action.Keeps.bind (Quiet.keeps (identify_quiet path origin d) h)
    (fun i => Quiet.keeps (observeIdentity_quiet i given d) h) h (.refl d h)

/-- What is observed of an identity is that identity, with the text that is seen. -/
theorem observeIdentity_eq_ok {i : Identity} {given : Option String} {d : Disk} {h h' : Host σ} {o : Observation} :
    observeIdentity i given d h = (.ok o, h') ↔
      h' = h ∧ seenText h.store d i given = .ok o.raw ∧ o.identity = i ∧
        o.needsUpdate = h.store.needsUpdate i.normalized o.raw := by
  rw [observeIdentity_run]
  constructor
  · intro heq
    obtain ⟨ho, rfl⟩ := Prod.mk.inj heq
    cases hs : seenText h.store d i given with
    | error e => rw [hs] at ho; cases ho
    | ok raw =>
      rw [hs] at ho
      cases ho
      exact ⟨rfl, rfl, rfl, rfl⟩
  · rintro ⟨rfl, hs, rfl, hn⟩
    rw [hs]
    obtain ⟨i, raw, needsUpdate⟩ := o
    simp only at hn
    subst hn
    rfl

theorem wellFormed_of_observe {path : String} {origin given : Option String} {d : Disk} {h h₁ : Host σ}
    {o : Observation} (hm : h.memo.Sound) (ho : observe path origin given d h = (.ok o, h₁)) : o.identity.WellFormed := by
  obtain ⟨i, h₂, hi, ho⟩ := Action.bind_eq_ok.1 ho
  rw [(observeIdentity_eq_ok.1 ho).2.2.1]
  exact wellFormed_of_identify hm hi

/-! ### Names -/

/-- At most one name has been looked up, as seen from the directory of the host. -/
def Looked (d : Disk) (h h₁ : Host σ) : Prop := h₁ = h ∨ ∃ name, h₁ = (identify name none d h).2

namespace Looked

variable {d : Disk} {h h₁ : Host σ}

theorem store (hl : Looked d h h₁) : h₁.store = h.store := by
  rcases hl with rfl | ⟨name, rfl⟩ <;> rfl

theorem quiet (hl : Looked d h h₁) : Quiet d h h₁ := by
  rcases hl with rfl | ⟨name, rfl⟩
  · exact .refl d h₁
  · exact identify_quiet name none d h

theorem eq_memo (hl : Looked d h h₁) : h₁ = { h with memo := h₁.memo } := by
  rcases hl with rfl | ⟨name, rfl⟩ <;> rfl

theorem identify_answer (hl : Looked d h h₁) (path : String) :
    (identify path none d h₁).1 = (identify path none d h).1 := by
  rcases hl with rfl | ⟨name, rfl⟩
  · rfl
  · exact identify_after path name none d h

end Looked

/-- The key of a script that is named. -/
def knownKey (name : String) (d : Disk) (h : Host σ) : String :=
  if h.store.contains name || isShim name || (isEngineName name && isAbsolute name) then name
  else ((identify name none d h).1.toOption.map (·.normalized)).getD name

/-- A name is either known as it is, or what it stands for is looked up. -/
theorem knownName_run (name : String) (d : Disk) (h : Host σ) :
    ∃ h', knownName name d h = (.ok (knownKey name d h), h') ∧ Looked d h h' := by
  unfold knownName knownKey
  rw [Action.bind_host_run]
  split
  · exact ⟨h, rfl, .inl rfl⟩
  · refine ⟨(identify name none d h).2, ?_, .inr ⟨name, rfl⟩⟩
    rcases hi : (identify name none : Action σ _) d h with ⟨e | i, h₁⟩
    · rw [Action.bind_attempt_run hi]
      rfl
    · rw [Action.bind_attempt_run hi]
      rfl

theorem knownKey_of_engineName {name : String} (hn : isEngineName name = true) (ha : isAbsolute name = true) (d : Disk)
    (h : Host σ) : knownKey name d h = name := by
  rw [knownKey, if_pos (by rw [hn, ha]; simp)]

/-- The path of a script that is no source is known by what it stands for. -/
theorem knownKey_of_identified {name : String} {d : Disk} {h : Host σ} {i : Identity}
    (hn : isEngineName name = false) (hc : h.store.contains name = false) (hi : (identify name none d h).1 = .ok i) :
    knownKey name d h = i.normalized := by
  have hs : isShim name = false := by
    refine Bool.eq_false_iff.2 fun hs => ?_
    rw [isEngineName_of_hasTail (hasTail_of_isShim hs)] at hn
    cases hn
  rw [knownKey, if_neg (by simp [hn, hc, hs]), hi]
  rfl

/-- By what a name is known does not change when another one is looked up. -/
theorem Looked.knownKey {d : Disk} {h h₁ : Host σ} (hl : Looked d h h₁) (name : String) :
    Host.knownKey name d h₁ = Host.knownKey name d h := by
  unfold Host.knownKey
  rw [hl.store, hl.identify_answer]

/-! ### Merging -/

/-- The store that an engine is shown while two scripts are merged. -/
def lentStore (store : Store) (compiled compiledRaw shim declarations : String) : Store :=
  (((store.erase compiled).erase shim).insert compiled (mergeRecord compiledRaw)).insert shim
    (mergeRecord declarations)

/-- What an engine reads of two scripts, one after the other. -/
def readBoth (engine : Engine σ) (view : ScriptView) (first second : String) (s : σ) :
    (Option SourceUnit × Option SourceUnit) × σ :=
  let (u, s) := engine.sourceFile view first s
  let (v, s) := engine.sourceFile view second s
  ((u, v), s)

/-- Makes an engine forget two scripts, one after the other. -/
def releaseBoth (engine : Engine σ) (first second : String) (s : σ) : σ :=
  engine.release second (engine.release first s)

/-- The store after what was put aside of two scripts is back. -/
def returnedStore (store : Store) (compiled compiledRaw shim declarations : String) : Store :=
  let first : Store := .put ((lentStore store compiled compiledRaw shim declarations).erase compiled) compiled
    (store.get? compiled)
  .put (first.erase shim) shim ((store.erase compiled).get? shim)

theorem readPair_run (compiled compiledRaw shim declarations : String) (d : Disk) (h : Host σ) :
    readPair compiled compiledRaw shim declarations d h =
      let read := readBoth h.tools.engine (viewOf (lentStore h.store compiled compiledRaw shim declarations))
        compiled shim (releaseBoth h.tools.engine compiled shim h.engineState)
      (.ok read.1,
        { h with
          store := returnedStore h.store compiled compiledRaw shim declarations
          engineState := releaseBoth h.tools.engine compiled shim read.2 }) := rfl

/-- Everything is back in its place, unless both scripts have the same one. -/
theorem get?_returnedStore (store : Store) (compiled compiledRaw shim declarations path : String) :
    (returnedStore store compiled compiledRaw shim declarations).get? path =
      if path = shim ∧ shim = compiled then none else store.get? path := by
  unfold returnedStore lentStore
  simp only [Store.get?_put, Table.get?_erase, Table.get?_insert]
  by_cases hs : path = shim
  · subst hs
    by_cases hc : path = compiled <;> simp [hc]
  · by_cases hc : path = compiled
    · subst hc
      simp [hs]
    · simp [hs, hc]

private theorem readPair_quiet {compiled shim : String} (hne : shim ≠ compiled) (compiledRaw declarations : String)
    (d : Disk) (h : Host σ) : Quiet d h (readPair compiled compiledRaw shim declarations d h).2 := by
  rw [readPair_run]
  refine ⟨⟨rfl, .refl ..⟩, fun path => ?_⟩
  show (returnedStore h.store compiled compiledRaw shim declarations).get? path = h.store.get? path
  rw [get?_returnedStore, if_neg (fun hp => hne hp.2)]

private theorem requireUnit_quiet (unit : Option SourceUnit) (path : String) (d : Disk) (h : Host σ) :
    Quiet d h (requireUnit unit path d h).2 := by
  cases unit <;> exact .refl d h

theorem lift_quiet {ε α : Type} (cause : ε → HostError) (r : Except ε α) (d : Disk) (h : Host σ) :
    Quiet d h ((Action.lift cause r : Action σ α) d h).2 := by
  cases r <;> exact .refl d h

/-- Declarations have the path of their script with another extension. -/
theorem eq_of_declarationsBeside {d : Disk} {resolved declaration : String}
    (hd : declarationsBeside d resolved = some declaration) :
    declaration = clearExtension resolved ++ declarationExtension := by
  unfold declarationsBeside Disk.firstExisting at hd
  have hmem := List.mem_of_find?_eq_some hd
  simpa using hmem

/-- A script is known by another path than the shim of the declarations that it is to be merged with, if there are
any. -/
def Observation.Apart (d : Disk) (o : Observation) : Prop :=
  o.identity.isCompiled = true → ∀ declaration, declarationsBeside d o.identity.resolved = some declaration →
    shimPath declaration ≠ o.path

/-- Whatever has been identified is known by another path than the shim of its declarations. -/
theorem Observation.Apart.of_wellFormed {o : Observation} (ho : o.identity.WellFormed) (d : Disk) : o.Apart d := by
  intro hc declaration hd
  rw [eq_of_declarationsBeside hd]
  exact ho.shimPath_ne hc

/-- Merging a script with its declarations leaves every record as it was, whether it fails or not. -/
theorem mergedContent_quiet {o : Observation} (ho : o.Apart d) {h : Host σ} (hm : h.memo.Sound) :
    Quiet d h (mergedContent o d h).2 := by
  unfold mergedContent
  by_cases hc : o.identity.isCompiled = true
  · rw [hc, Bool.not_true, if_neg (by decide), Action.bind_disk_run]
    cases hd : declarationsBeside d o.identity.resolved with
    | none => exact .refl d h
    | some declaration =>
      refine Action.Keeps.bind_of_ok (Quiet.keeps (identify_quiet _ _ d) h) (fun h₁ shim h₂ hq₁ hi hq₂ => ?_) h
        (.refl d h)
      -- the shim is known by another path than the script, so that the two records do not get in each other's way
      have hshim : shim = .shim (shimPath declaration) := by
        have := identify_of_isShim (isShim_shimPath declaration) none d (hq₁.sound hm)
        rw [hi] at this
        cases this
        rfl
      have hne : shim.normalized ≠ o.path := by
        rw [hshim]
        exact ho hc declaration hd
      refine Action.Keeps.bind (Quiet.keeps (observeIdentity_quiet shim none d) h) (fun declarations => ?_) h₂ hq₂
      refine Action.Keeps.bind (Quiet.keeps (readPair_quiet hne _ _ d) h) (fun units => ?_)
      refine Action.Keeps.bind (Quiet.keeps (requireUnit_quiet _ _ d) h) (fun compiledUnit => ?_)
      refine Action.Keeps.bind (Quiet.keeps (requireUnit_quiet _ _ d) h) (fun shimUnit => ?_)
      exact Action.Keeps.bind_host fun h₃ hq₃ => Quiet.keeps (lift_quiet _ _ d) h h₃ hq₃
  · rw [if_pos (by simpa using hc)]
    exact .refl d h

/-! ### Imports -/

/-- The scripts that names stand for as seen from an origin, as far as they can be identified. -/
def identified (origin : String) (names : List String) (d : Disk) (h : Host σ) : List (String × Identity) :=
  names.filterMap fun name => (identify name (some origin) d h).1.toOption.map (name, ·)

theorem wellFormed_of_mem_identified {origin : String} {names : List String} {d : Disk} {h : Host σ}
    (hm : h.memo.Sound) : ∀ x ∈ identified origin names d h, x.2.WellFormed := by
  intro x hx
  obtain ⟨name, -, hx⟩ := List.mem_filterMap.1 hx
  rw [Option.map_eq_some_iff] at hx
  obtain ⟨i, hi, rfl⟩ := hx
  exact wellFormed_of_identify hm (Action.run_of_answer (toOption_eq_some_iff.1 hi))

/-- Looking names up one after the other keeps what looking up one of them keeps. -/
theorem identifyAll_keeps {I : Host σ → Prop} {origin : String} {names : List String} {d : Disk}
    (hI : ∀ name ∈ names, (identify name (some origin) : Action σ _).Keeps d I) :
    (identifyAll origin names : Action σ _).Keeps d I := by
  induction names with
  | nil => exact .pure []
  | cons name rest ih =>
    obtain ⟨hname, hrest⟩ := List.forall_mem_cons.1 hI
    unfold identifyAll
    refine .bind (.attempt hname) fun answer => ?_
    cases answer with
    | error e => exact ih hrest
    | ok i => exact (ih hrest).bind fun imports => .pure _

private theorem identifyAll_keeps_answer (name origin : String) (names : List String) (d : Disk)
    (answer : Except HostError Identity) :
    (identifyAll origin names : Action σ _).Keeps d fun h => (identify name (some origin) d h).1 = answer :=
  identifyAll_keeps fun raw _ h hh => by rw [identify_after, hh]

/-- The imports of a script are what its names stand for after they have been looked up. -/
private theorem identifyAll_run (origin : String) (names : List String) (d : Disk) (h : Host σ) :
    ∃ h', identifyAll origin names d h = (.ok (identified origin names d h'), h') ∧ Quiet d h h' ∧
      h'.engineState = h.engineState := by
  induction names generalizing h with
  | nil => exact ⟨h, rfl, .refl d h, rfl⟩
  | cons raw rest ih =>
    have hq := identify_quiet raw (some origin) d h
    have hsame := identify_after raw raw (some origin) d h
    have hengine : (identify raw (some origin) d h).2.engineState = h.engineState := rfl
    rcases hi : (identify raw (some origin) : Action σ _) d h with ⟨r, h₁⟩
    rw [hi] at hq hsame hengine
    obtain ⟨h', hrest, hq', hengine'⟩ := ih h₁
    -- what is identified after `raw` does not change the answer for it
    have hlast : (identify raw (some origin) d h').1 = r := by
      have := identifyAll_keeps_answer raw origin rest d r h₁ hsame
      rwa [hrest] at this
    refine ⟨h', ?_, hq.trans hq', hengine'.trans hengine⟩
    unfold identifyAll identified
    rw [Action.bind_attempt_run hi, List.filterMap_cons, hlast]
    cases r with
    | error e => exact hrest
    | ok i =>
      show ((identifyAll origin rest >>= fun imports => pure ((raw, i) :: imports)) : Action σ _) d h₁ = _
      rw [Action.bind_run_of_ok hrest]
      rfl

theorem found_of_identifyAll {name origin : String} {names : List String} (hname : name ∈ names) {d : Disk} {h : Host σ}
    {i : Identity} (hi : (identify name (some origin) d (identifyAll origin names d h).2).1 = .ok i) :
    (identifyAll origin names d h).2.memo.found.get? (Memo.key name origin) = some i := by
  induction names generalizing h with
  | nil => cases hname
  | cons raw rest ih =>
    have hsame := identify_after raw raw (some origin) d h
    rcases hraw : (identify raw (some origin) : Action σ _) d h with ⟨answer, h₁⟩
    rw [hraw] at hsame
    have hlast : (identifyAll origin (raw :: rest) d h).2 = (identifyAll origin rest d h₁).2 := by
      rw [identifyAll, Action.bind_attempt_run hraw]
      obtain ⟨h', hrest, -, -⟩ := identifyAll_run origin rest d h₁
      cases answer with
      | error e => rfl
      | ok j =>
        show (((identifyAll origin rest >>= fun imports => pure ((raw, j) :: imports)) : Action σ _) d h₁).2 = _
        rw [Action.bind_run_of_ok hrest, hrest]
        rfl
    rw [hlast] at hi ⊢
    by_cases hmem : name ∈ rest
    · exact ih hmem hi
    · obtain rfl : name = raw := (List.mem_cons.1 hname).resolve_right hmem
      obtain ⟨h', hrest, hq, -⟩ := identifyAll_run origin rest d h₁
      have hkept := identifyAll_keeps_answer name origin rest d answer h₁ hsame
      rw [hkept] at hi
      rw [hi] at hraw
      rw [hrest]
      exact hq.memo.kept (found_of_identify hraw)

theorem importsIn_run (source origin : String) (d : Disk) (h : Host σ) :
    ∃ h', importsIn source origin d h =
      (.ok (identified origin (importNames h.tools.resolver source) d h'), h') ∧ Quiet d h h' ∧
        h'.engineState = h.engineState :=
  identifyAll_run origin _ d h

end ScriptHost.Host
