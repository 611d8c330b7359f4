import ScriptHost.Proofs.Host.Adding
import ScriptHost.Proofs.Host.Merge
import ScriptHost.Proofs.Host.Termination
import ScriptHost.Proofs.Resolution.Transparency

/-!
# What patterns keep out of a closure

A closure goes over scripts in some order, but what it tracks can be said without the order if no script is in the way
of another one (`Unmistakable`): everything that can be tracked of what the first script leads to (`Met`).  Then fewer
scripts are tracked if more paths are excluded (`expandClosure_antitone`).  Scripts that share a key are in each other's
way: if one of them is not met any more, the other is tracked in its place, and so is what that imports
(`expandClosure_not_antitone`).
-/

namespace ScriptHost.Host

open ScriptHost.Analysis ScriptHost.Imports ScriptHost.Path ScriptHost.Resolution

/-! ### Scripts that are met -/

section

variable {σ : Type}

/-- The imports of a script with some text, as they are found if nothing is remembered. -/
def importsAfresh (d : Disk) (h : Host σ) (a : Identity) (text : String) : List (String × Identity) :=
  (importNames h.tools.resolver text).filterMap fun name =>
    (Memo.afresh h.tools.resolver d (name, a.resolved)).toOption.map (name, ·)

/-- The scripts that a script brings in if it can be tracked: its imports that are not excluded. -/
def broughtIn (ex : Exclusions) (d : Disk) (h : Host σ) (a : Identity) : List Identity :=
  (firstRecord? d h a).toList.flatMap fun r =>
    ((importsAfresh d h a r.rawContent).map (·.2)).filter fun i => !ex.excludes i.normalized

/-- A script that a closure can meet: the one at its path, or one that is brought in from there. -/
def Met (ex : Exclusions) (d : Disk) (h : Host σ) (path : String) (origin : Option String) (i : Identity) : Prop :=
  ∃ root, (identify path origin d h).1 = .ok root ∧
    Relation.ReflTransGen (fun a b => b ∈ broughtIn ex d h a) root i

/-- What is looked up for a closure: its path, and the names that scripts import. -/
inductive Requested (ex : Exclusions) (d : Disk) (h : Host σ) (path : String) (origin : Option String) :
    Memo.Query → Prop where
  | first : Requested ex d h path origin (path, origin.getD h.directory)
  | imported {a : Identity} {r : Record} {name : String} (ha : Met ex d h path origin a)
    (hr : firstRecord? d h a = some r) (hname : name ∈ importNames h.tools.resolver r.rawContent) :
    Requested ex d h path origin (name, a.resolved)

/-- No script that can be met is in the way of another one. -/
structure Unmistakable (ex : Exclusions) (d : Disk) (h : Host σ) (path : String) (origin : Option String) :
    Prop where
  /-- No two scripts share a key. -/
  keys : ∀ {a b}, Met ex d h path origin a → Met ex d h path origin b → a.normalized = b.normalized → a = b
  /-- Nothing but declarations has the key by which they are known while their script is merged. -/
  declarations : ∀ {a b declaration}, Met ex d h path origin a → Met ex d h path origin b → a.isCompiled = true →
    declarationsBeside d a.resolved = some declaration → b.normalized = shimPath declaration → b.isTemporary = true
  /-- Requests that count as one are found alike. -/
  requests : ∀ {q q'}, Requested ex d h path origin q → Requested ex d h path origin q' →
    Memo.FoundAlike h.tools.resolver d q q'

variable {ex ex' : Exclusions} {d : Disk} {h : Host σ} {path : String} {origin : Option String}

private theorem mem_broughtIn_iff {a b : Identity} : b ∈ broughtIn ex d h a ↔
    ∃ r, firstRecord? d h a = some r ∧ (∃ name, (name, b) ∈ importsAfresh d h a r.rawContent) ∧
      ex.excludes b.normalized = false := by
  simp [broughtIn]

private theorem mem_importsAfresh_iff {a b : Identity} {text name : String} : (name, b) ∈ importsAfresh d h a text ↔
    name ∈ importNames h.tools.resolver text ∧ Memo.afresh h.tools.resolver d (name, a.resolved) = .ok b := by
  simp [importsAfresh, toOption_eq_some_iff]

private theorem Met.broughtIn {a b : Identity} (ha : Met ex d h path origin a) (hab : b ∈ broughtIn ex d h a) :
    Met ex d h path origin b := by
  obtain ⟨root, hroot, hlead⟩ := ha
  exact ⟨root, hroot, hlead.tail hab⟩

/-- What holds of the first script, and of what is brought in by scripts of which it holds, holds of all that can be
met. -/
private theorem Met.keeps {P : Identity → Prop} {root i : Identity} (hi : Met ex d h path origin i)
    (hroot : (identify path origin d h).1 = .ok root) (hfirst : P root)
    (hstep : ∀ {a b}, Met ex d h path origin a → P a → b ∈ Host.broughtIn ex d h a → P b) : P i := by
  obtain ⟨root', hroot', hlead⟩ := hi
  rw [hroot] at hroot'
  cases hroot'
  induction hlead with
  | refl => exact hfirst
  | tail hlead hlast ih => exact hstep ⟨root, hroot, hlead⟩ ih hlast

private theorem Met.wellFormed (hm : h.memo.Sound) {i : Identity} (hi : Met ex d h path origin i) : i.WellFormed := by
  obtain ⟨root, hroot, hlead⟩ := hi
  cases hlead with
  | refl => exact wellFormed_of_identify hm (Action.run_of_answer hroot)
  | tail _ hlast =>
    obtain ⟨r, -, ⟨name, hfound⟩, -⟩ := mem_broughtIn_iff.1 hlast
    have hfound := (mem_importsAfresh_iff.1 hfound).2
    rw [Memo.afresh_eq_identify] at hfound
    exact Memo.identify_wellFormed hfound

private theorem Met.mono (hex : ∀ key, ex.excludes key = true → ex'.excludes key = true) {i : Identity}
    (hi : Met ex' d h path origin i) : Met ex d h path origin i := by
  obtain ⟨root, hroot, hlead⟩ := hi
  refine ⟨root, hroot,
    Relation.ReflTransGen.mono (r := fun a b => b ∈ Host.broughtIn ex' d h a) (fun a b hab => ?_) _ _ hlead⟩
  obtain ⟨r, hr, hfound, hincluded⟩ := mem_broughtIn_iff.1 hab
  refine mem_broughtIn_iff.2 ⟨r, hr, hfound, ?_⟩
  exact Bool.eq_false_iff.2 fun hexcluded => Bool.eq_false_iff.1 hincluded (hex _ hexcluded)

private theorem Unmistakable.mono (hu : Unmistakable ex d h path origin)
    (hex : ∀ key, ex.excludes key = true → ex'.excludes key = true) : Unmistakable ex' d h path origin := by
  have hrequested : ∀ {q}, Requested ex' d h path origin q → Requested ex d h path origin q := by
    intro q hq
    cases hq with
    | first => exact .first
    | imported ha hr hname => exact .imported (ha.mono hex) hr hname
  exact ⟨fun ha hb => hu.keys (ha.mono hex) (hb.mono hex), fun ha hb => hu.declarations (ha.mono hex) (hb.mono hex),
    fun hq hq' => hu.requests (hrequested hq) (hrequested hq')⟩

end

/-! ### What a walk knows -/

/-- Of the scripts that can be met, those whose keys are known are tracked, and nothing else is. -/
structure Regular (ex : Exclusions) (d : Disk) (h₀ : Host SyntaxEngine) (path : String) (origin : Option String)
    (known : List String) (h : Host SyntaxEngine) : Prop where
  sound : h.memo.Sound
  setup : h.setup = { h₀ with exclusions := ex }.setup
  remembered : ∀ {q}, Requested ex d h₀ path origin q → Memo.Current h₀.tools.resolver d h.memo [q]
  tracked : ∀ {i}, Met ex d h₀ path origin i →
    h.store.get? i.normalized = if i.normalized ∈ known then firstRecord? d h₀ i else none
  met : ∀ {key r}, h.store.get? key = some r → ∃ i, Met ex d h₀ path origin i ∧ i.normalized = key

namespace Regular

variable {ex : Exclusions} {d : Disk} {h₀ h h' : Host SyntaxEngine} {path : String} {origin : Option String}
  {known : List String} {i : Identity}

private theorem tools (hg : Regular ex d h₀ path origin known h) : h.tools = h₀.tools := congrArg (·.1) hg.setup

private theorem resolver (hg : Regular ex d h₀ path origin known h) : h.tools.resolver = h₀.tools.resolver :=
  congrArg Tools.resolver hg.tools

private theorem exclusions (hg : Regular ex d h₀ path origin known h) : h.exclusions = ex := congrArg
    (·.2.2.2.2.1) hg.setup

private theorem walkLimit (hg : Regular ex d h₀ path origin known h) : h.walkLimit = h₀.walkLimit :=
  congrArg (·.2.2.2.2.2) hg.setup

private theorem start (hu : h₀.Unused) : Regular ex d h₀ path origin [] { h₀ with exclusions := ex } where
  sound := hu.sound
  setup := rfl
  remembered _ q _ i hi := by
    dsimp only at hi
    rw [hu.memo] at hi
    cases hi
  tracked _ := by
    dsimp only
    rw [hu.store]
    rfl
  met hr := by
    dsimp only at hr
    rw [hu.store] at hr
    cases hr

private theorem exists_of_tracked (hg : Regular ex d h₀ path origin known h) {key : String} {r : Record}
    (hr : h.store.get? key = some r) :
    ∃ i, Met ex d h₀ path origin i ∧ i.normalized = key ∧ i.normalized ∈ known ∧ firstRecord? d h₀ i = some r := by
  obtain ⟨i, hi, rfl⟩ := hg.met hr
  rw [hg.tracked hi] at hr
  split at hr
  · exact ⟨i, hi, rfl, ‹_›, hr⟩
  · cases hr

private theorem identify (hg : Regular ex d h₀ path origin known h) (hu : Unmistakable ex d h₀ path origin)
    {name o : String} (hq : Requested ex d h₀ path origin (name, o)) :
    (Host.identify name (some o) d h).1 = (Memo.afresh h₀.tools.resolver d (name, o)).mapError .resolution ∧
      Regular ex d h₀ path origin known (Host.identify name (some o) d h).2 := by
  have hquiet := identify_quiet name (some o) d h
  have hafresh : (h.memo.resolve h₀.tools.resolver d name o).1 = Memo.afresh h₀.tools.resolver d (name, o) :=
    (Memo.resolve_eq_afresh_iff h.memo (name, o)).2 (hg.remembered hq)
  constructor
  · rw [identify_run, Option.getD_some, hg.resolver, hafresh]
  · refine ⟨hquiet.sound hg.sound, hg.setup, fun {q} hrequested => ?_, hg.tracked, hg.met⟩
    show Memo.Current _ d (h.memo.resolve h.tools.resolver d name o).2 [q]
    rw [hg.resolver]
    refine (Memo.current_resolve_iff (q := (name, o)) hafresh [q]).2 ⟨hg.remembered hrequested, fun q' hq' => ?_⟩
    rw [List.mem_singleton.1 hq']
    exact hu.requests hq hrequested

/-- The imports of a script that is met are found as if nothing were remembered. -/
private theorem importsIn (hg : Regular ex d h₀ path origin known h) (hu : Unmistakable ex d h₀ path origin)
    (hi : Met ex d h₀ path origin i) {r : Record} (hr : firstRecord? d h₀ i = some r) :
    ∃ h', Host.importsIn r.rawContent i.resolved d h = (.ok (importsAfresh d h₀ i r.rawContent), h') ∧
      Regular ex d h₀ path origin known h' := by
  obtain ⟨h', hrun, -⟩ := importsIn_run r.rawContent i.resolved d h
  have hrequested : ∀ name ∈ importNames h₀.tools.resolver r.rawContent,
      Requested ex d h₀ path origin (name, i.resolved) :=
    fun name hname => .imported hi hr hname
  have hg' : Regular ex d h₀ path origin known h' := by
    have hlast : Regular ex d h₀ path origin known
        (identifyAll i.resolved (importNames h₀.tools.resolver r.rawContent) d h).2 :=
      identifyAll_keeps (fun name hname _ hg => (hg.identify hu (hrequested name hname)).2) h hg
    rw [← hg.resolver] at hlast
    rwa [show (identifyAll i.resolved (importNames h.tools.resolver r.rawContent) d h).2 = h' from
      congrArg Prod.snd hrun] at hlast
  have hfound : ∀ name ∈ importNames h₀.tools.resolver r.rawContent,
      (Host.identify name (some i.resolved) d h').1.toOption.map (name, ·) =
        (Memo.afresh h₀.tools.resolver d (name, i.resolved)).toOption.map (name, ·) := by
    intro name hname
    rw [(hg'.identify hu (hrequested name hname)).1, toOption_mapError]
  refine ⟨h', ?_, hg'⟩
  rw [hrun, hg.resolver, identified, List.filterMap_congr hfound]
  rfl

/-- A script that is met gets the record that it would get if nothing were tracked. -/
private theorem firstRecord?_eq (hg : Regular ex d h₀ path origin known h) (hu : Unmistakable ex d h₀ path origin)
    (h₀u : h₀.Unused) (he : h₀.tools.engine = SyntaxEngine.engine) (hi : Met ex d h₀ path origin i) :
    firstRecord? d h i = firstRecord? d h₀ i := by
  have hseen : ∀ {declaration}, i.isCompiled = true → declarationsBeside d i.resolved = some declaration →
      seenText h.store d (.shim (shimPath declaration)) none =
        seenText h₀.store d (.shim (shimPath declaration)) none := by
    intro declaration hc hd
    have hnone : h₀.store.get? (Identity.shim (shimPath declaration)).normalized = none := by rw [h₀u.store]; rfl
    rw [seenText_of_untracked hnone]
    cases hr : h.store.get? (Identity.shim (shimPath declaration)).normalized with
    | none => exact seenText_of_untracked hr d
    | some r =>
      -- what is tracked there are the declarations themselves
      obtain ⟨j, hj, hkey, -, hrecord⟩ := hg.exists_of_tracked hr
      have htemporary := hu.declarations hi hj hc hd hkey
      have hshim : j = .shim (shimPath declaration) := by
        cases hj.wellFormed h₀u.sound with
        | shim hs => exact congrArg Identity.shim hkey
        | ofResolved file => cases htemporary
      rw [firstRecord?, hshim, Option.bind_eq_some_iff] at hrecord
      obtain ⟨text, htext, hrecord⟩ := hrecord
      obtain ⟨content, -, rfl⟩ := Option.map_eq_some_iff.1 hrecord
      rw [seenText_of_stored hr, toOption_eq_some_iff.1 htext]
      rfl
  unfold firstRecord?
  refine congrArg _ (funext fun text => ?_)
  rw [mergedContent_answer_congr (o := ⟨i, text, true⟩) (hi.wellFormed h₀u.sound) h₀u.sound hg.sound hg.tools he hseen]

private theorem remembered_of_sameNames (hg : Regular ex d h₀ path origin known h) (hm : h'.memo.Sound)
    (hsame : SameNames h.memo h'.memo) {q : Memo.Query} (hq : Requested ex d h₀ path origin q) :
    Memo.Current h₀.tools.resolver d h'.memo [q] := by
  intro q' hq' j hj
  rw [List.mem_singleton.1 hq'] at hj ⊢
  cases hs : isShim q.1 with
  | false =>
    rw [hsame (Memo.key q.1 q.2) hs] at hj
    exact hg.remembered hq q (List.mem_singleton_self q) j hj
  | true =>
    rw [Memo.afresh_eq_identify, Memo.identify_of_isShim hs, hm.shim hj hs]
    rfl

/-- A script that is met for the first time is tracked if it can be. -/
private theorem trackImport (hg : Regular ex d h₀ path origin known h) (hu : Unmistakable ex d h₀ path origin)
    (h₀u : h₀.Unused) (he : h₀.tools.engine = SyntaxEngine.engine) (hi : Met ex d h₀ path origin i)
    (hnew : i.normalized ∉ known) :
    ∃ h', Host.trackImport i d h = (.ok ((firstRecord? d h₀ i).map (·.rawContent)), h') ∧
      Regular ex d h₀ path origin (i.normalized :: known) h' := by
  have huntracked : h.store.get? i.normalized = none := by rw [hg.tracked hi, if_neg hnew]
  have hrecord : Meeting.record? d ⟨i, "", i, h⟩ = firstRecord? d h₀ i := by
    rw [← hg.firstRecord?_eq hu h₀u he hi, Meeting.record?, if_neg (by simp [Table.contains, Meeting.key, huntracked])]
    rfl
  obtain ⟨h', hrun, honward, hstore⟩ :=
    trackImport_run (d := d) (m := ⟨i, "", i, h⟩) (hi.wellFormed h₀u.sound) hg.sound
  have hnames := trackImport_keeps_names (m := h.memo) (d := d) i h ⟨hg.sound, fun _ _ => rfl⟩
  dsimp only at hrun
  rw [hrun] at hnames
  rw [hrecord] at hrun hstore
  have hkey : Meeting.key ⟨i, "", i, h⟩ = i.normalized := rfl
  rw [hkey] at hstore
  refine ⟨h', hrun, honward.sound hg.sound, honward.setup.trans hg.setup, hg.remembered_of_sameNames hnames.1 hnames.2,
    fun {j} hj => ?_, fun {key r} hr => ?_⟩
  · rw [hstore]
    by_cases hsame : j.normalized = i.normalized
    · obtain rfl := hu.keys hj hi hsame
      simp [huntracked]
    · rw [if_neg hsame, hg.tracked hj]
      simp only [List.mem_cons, hsame, false_or]
  · rw [hstore] at hr
    split at hr
    · rename_i hsame
      exact ⟨i, hi, hsame.symm⟩
    · exact hg.met hr

end Regular

/-! ### Walks -/

/-- The keys that are left. -/
def left (keys known : List String) : List String := keys.filter fun key => !known.contains key

private theorem length_left_cons_le (keys known : List String) (key : String) :
    (left keys (key :: known)).length ≤ (left keys known).length := by
  unfold left
  rw [← List.countP_eq_length_filter, ← List.countP_eq_length_filter]
  exact List.countP_mono_left fun k _ hk => by simp_all

private theorem length_left_cons_lt {keys known : List String} {key : String} (hkey : key ∈ keys) (hnew : key ∉ known) :
    (left keys (key :: known)).length < (left keys known).length := by
  have hsplit : left keys (key :: known) = (left keys known).filter fun k => k != key := by
    unfold left
    rw [List.filter_filter]
    refine List.filter_congr fun k _ => ?_
    rw [List.contains_cons, Bool.not_or, bne]
  rw [hsplit]
  exact List.length_filter_lt_length_iff_exists.2 ⟨key, List.mem_filter.2 ⟨hkey, by simpa using hnew⟩, by simp⟩

section

variable {ex : Exclusions} {d : Disk} {h₀ h : Host SyntaxEngine} {path : String} {origin : Option String}
  {known keys : List String} {queue : List (Identity × String)} {i : Identity}

/-- The keys of all scripts that can be met and tracked are among some keys. -/
def Covers (ex : Exclusions) (d : Disk) (h₀ : Host SyntaxEngine) (path : String) (origin : Option String)
    (keys : List String) : Prop :=
  ∀ {i}, Met ex d h₀ path origin i → (firstRecord? d h₀ i).isSome = true → i.normalized ∈ keys

/-- What scripts import is known, but for those that wait. -/
structure Fair (ex : Exclusions) (d : Disk) (h₀ : Host SyntaxEngine) (path : String) (origin : Option String)
    (known : List String) (queue : List (Identity × String)) (h : Host SyntaxEngine) : Prop extends
    Regular ex d h₀ path origin known h where
  waiting : ∀ x ∈ queue, Met ex d h₀ path origin x.1 ∧ (firstRecord? d h₀ x.1).map (·.rawContent) = some x.2
  followed : ∀ {a b}, Met ex d h₀ path origin a → a.normalized ∈ known → b ∈ broughtIn ex d h₀ a →
    a ∈ queue.map Prod.fst ∨ b.normalized ∈ known

/-- A script that is met for the first time waits if it can be tracked. -/
private theorem Fair.trackImport (hf : Fair ex d h₀ path origin known queue h) (hu : Unmistakable ex d h₀ path origin)
    (h₀u : h₀.Unused) (he : h₀.tools.engine = SyntaxEngine.engine) (hi : Met ex d h₀ path origin i)
    (hnew : i.normalized ∉ known) :
    ∃ h', Host.trackImport i d h = (.ok ((firstRecord? d h₀ i).map (·.rawContent)), h') ∧
      Fair ex d h₀ path origin (i.normalized :: known)
        (queue ++ ((firstRecord? d h₀ i).map fun r => (i, r.rawContent)).toList) h' := by
  obtain ⟨h', hrun, hg⟩ := hf.toRegular.trackImport hu h₀u he hi hnew
  refine ⟨h', hrun, hg, fun x hx => ?_, fun {a b} ha hknown hab => ?_⟩
  · rcases List.mem_append.1 hx with hx | hx
    · exact hf.waiting x hx
    · rw [Option.mem_toList, Option.map_eq_some_iff] at hx
      obtain ⟨r, hr, rfl⟩ := hx
      exact ⟨hi, by rw [hr]; rfl⟩
  · rw [List.map_append, List.mem_append]
    rcases List.mem_cons.1 hknown with hkey | hknown
    · -- it is the script that is met, and it waits
      obtain rfl := hu.keys ha hi hkey
      obtain ⟨r, hr, -⟩ := mem_broughtIn_iff.1 hab
      exact .inl (.inr (by simp [hr]))
    · exact (hf.followed ha hknown hab).imp .inl (List.mem_cons_of_mem _)

/-- What following imports does to a walk, where `first` is their importer. -/
structure Followed (ex : Exclusions) (d : Disk) (h₀ : Host SyntaxEngine) (path : String) (origin : Option String)
    (first : Identity × String) (imports : List (String × Identity)) (w w' : Walk) (h' : Host SyntaxEngine) :
    Prop where
  fair : Fair ex d h₀ path origin w'.visited (first :: w'.queue) h'
  kept : ∀ key ∈ w.visited, key ∈ w'.visited
  known : ∀ x ∈ imports, ex.excludes x.2.normalized = false → x.2.normalized ∈ w'.visited
  shorter : ∀ {keys}, Covers ex d h₀ path origin keys →
    w'.queue.length + (left keys w'.visited).length ≤ w.queue.length + (left keys w.visited).length

private theorem Fair.followImports (hu : Unmistakable ex d h₀ path origin) (h₀u : h₀.Unused)
    (he : h₀.tools.engine = SyntaxEngine.engine) (importer : String) (first : Identity × String)
    {imports : List (String × Identity)}
    (hmet : ∀ x ∈ imports, ex.excludes x.2.normalized = false → Met ex d h₀ path origin x.2) {w : Walk}
    (hf : Fair ex d h₀ path origin w.visited (first :: w.queue) h) :
    ∃ w' h', Host.followImports importer imports w d h = (.ok w', h') ∧
      Followed ex d h₀ path origin first imports w w' h' := by
  induction imports generalizing w h with
  | nil => exact ⟨w, h, rfl, hf, fun _ => id, by simp, fun _ => le_rfl⟩
  | cons x rest ih =>
    obtain ⟨raw, i⟩ := x
    obtain ⟨hi, hrest⟩ := List.forall_mem_cons.1 hmet
    have hex : h.exclusions = ex := hf.exclusions
    cases hexcluded : ex.excludes i.normalized with
    | true =>
      rw [followImports_of_excluded (hex ▸ hexcluded)]
      obtain ⟨w', h', hrun, hw⟩ := ih hrest hf
      refine ⟨w', h', hrun, hw.fair, hw.kept, List.forall_mem_cons.2 ⟨fun hin => ?_, hw.known⟩, hw.shorter⟩
      rw [hexcluded] at hin
      cases hin
    | false =>
      cases hvis : w.visited.contains i.normalized with
      | true =>
        rw [followImports_of_met (hex ▸ hexcluded) hvis]
        obtain ⟨w', h', hrun, hw⟩ := ih (w := ⟨w.graph.addImport importer (edgeTo raw i), w.visited, w.queue⟩) hrest hf
        have hold : i.normalized ∈ w.visited := by simpa using hvis
        exact ⟨w', h', hrun, hw.fair, hw.kept, List.forall_mem_cons.2 ⟨fun _ => hw.kept _ hold, hw.known⟩, hw.shorter⟩
      | false =>
        have hnew : i.normalized ∉ w.visited := by simpa using hvis
        obtain ⟨h₁, htrack, hf₁⟩ := hf.trackImport hu h₀u he (hi hexcluded) hnew
        cases hr : firstRecord? d h₀ i with
        | none =>
          rw [hr] at htrack
          rw [followImports_of_passed (hex ▸ hexcluded) hvis htrack]
          rw [hr, Option.map_none, Option.toList_none, List.append_nil] at hf₁
          obtain ⟨w', h', hrun, hw⟩ := ih (w := ⟨_, i.normalized :: w.visited, w.queue⟩) hrest hf₁
          refine ⟨w', h', hrun, hw.fair, fun key hkey => hw.kept key (List.mem_cons_of_mem _ hkey),
            List.forall_mem_cons.2 ⟨fun _ => hw.kept _ List.mem_cons_self, hw.known⟩, fun {keys} hkeys => ?_⟩
          exact (hw.shorter hkeys).trans (Nat.add_le_add_left (length_left_cons_le ..) _)
        | some r =>
          rw [hr] at htrack hf₁
          rw [followImports_of_tracked (hex ▸ hexcluded) hvis htrack]
          obtain ⟨w', h', hrun, hw⟩ :=
            ih (w := ⟨_, i.normalized :: w.visited, w.queue ++ [(i, r.rawContent)]⟩) hrest hf₁
          refine ⟨w', h', hrun, hw.fair, fun key hkey => hw.kept key (List.mem_cons_of_mem _ hkey),
            List.forall_mem_cons.2 ⟨fun _ => hw.kept _ List.mem_cons_self, hw.known⟩, fun {keys} hkeys => ?_⟩
          -- one script more waits, and one key less is left
          have hlt := length_left_cons_lt (hkeys (hi hexcluded) (by rw [hr]; rfl)) hnew
          refine (hw.shorter hkeys).trans ?_
          simp only [List.length_append, List.length_singleton] at hlt ⊢
          omega

/-- Where a walk from `w` leads to. -/
structure Finished (ex : Exclusions) (d : Disk) (h₀ : Host SyntaxEngine) (path : String) (origin : Option String)
    (limit : Nat) (w : Walk) (x : Except HostError Graph × Host SyntaxEngine) : Prop where
  fair : ∃ known queue, Fair ex d h₀ path origin known queue x.2 ∧ (∀ key ∈ w.visited, key ∈ known) ∧
    (x.1 ≠ .error .unfinished → queue = [])
  ends : ∀ {keys}, Covers ex d h₀ path origin keys → w.queue.length + (left keys w.visited).length ≤ limit →
    x.1 ≠ .error .unfinished

private theorem Fair.walk (hu : Unmistakable ex d h₀ path origin) (h₀u : h₀.Unused)
    (he : h₀.tools.engine = SyntaxEngine.engine) (limit : Nat) {w : Walk}
    (hf : Fair ex d h₀ path origin w.visited w.queue h) :
    Finished ex d h₀ path origin limit w (Host.walk limit w d h) := by
  induction limit, w using walk_induction generalizing h with
  | done limit graph visited =>
    rw [walk_nil]
    exact ⟨⟨visited, [], hf, fun _ => id, fun _ => rfl⟩, fun _ _ => nofun⟩
  | givenUp graph visited x queue =>
    refine ⟨⟨visited, x :: queue, hf, fun _ => id, fun hends => absurd rfl hends⟩, fun _ hle => ?_⟩
    rw [List.length_cons] at hle
    omega
  | visit limit graph visited script text queue ih =>
    obtain ⟨hscript, htext⟩ := hf.waiting _ List.mem_cons_self
    obtain ⟨r, hr, rfl⟩ := Option.map_eq_some_iff.1 htext
    obtain ⟨h₁, himports, hg₁⟩ := hf.toRegular.importsIn hu hscript hr
    have hf₁ : Fair ex d h₀ path origin visited ((script, r.rawContent) :: queue) h₁ :=
      ⟨hg₁, hf.waiting, hf.followed⟩
    -- the imports of the script are what it brings in, but for those that are excluded
    have hbrings : ∀ x ∈ importsAfresh d h₀ script r.rawContent, ex.excludes x.2.normalized = false →
        x.2 ∈ broughtIn ex d h₀ script :=
      fun x hx hincluded => mem_broughtIn_iff.2 ⟨r, hr, ⟨x.1, hx⟩, hincluded⟩
    obtain ⟨w', h', hfollow, hw⟩ := Fair.followImports hu h₀u he script.normalized (script, r.rawContent)
      (fun x hx hincluded => hscript.broughtIn (hbrings x hx hincluded)) (w := ⟨graph, visited, queue⟩) hf₁
    have hf' : Fair ex d h₀ path origin w'.visited w'.queue h' := by
      refine ⟨hw.fair.toRegular, fun x hx => hw.fair.waiting x (List.mem_cons_of_mem _ hx),
        fun {a b} ha hknown hab => ?_⟩
      rcases hw.fair.followed ha hknown hab with hwaits | hknown
      · rcases List.mem_cons.1 hwaits with rfl | hwaits
        · obtain ⟨r', hr', ⟨name, hfound⟩, hincluded⟩ := mem_broughtIn_iff.1 hab
          rw [hr] at hr'
          cases hr'
          exact .inr (hw.known (name, b) hfound hincluded)
        · exact .inl hwaits
      · exact .inr hknown
    obtain ⟨⟨known, rest, hfair, hkept, hends⟩, hshort⟩ := ih w' hf'
    rw [Host.walk, Action.bind_run_of_ok himports, Action.bind_run_of_ok hfollow]
    refine ⟨⟨known, rest, hfair, fun key hkey => hkept key (hw.kept key hkey), hends⟩, fun hkeys hle => ?_⟩
    refine hshort hkeys ((hw.shorter hkeys).trans ?_)
    simp only [List.length_cons] at hle ⊢
    omega

end

/-- A walk that is not given up tracks nothing but scripts that it visits. -/
private theorem walk_tracks_visited {σ : Type} {d : Disk} {limit : Nat} {w : Walk} {h : Host σ} (hm : h.memo.Sound)
    (hw : (walk limit w d h).1 ≠ .error .unfinished) :
    ∃ keys : List String, keys.length ≤ limit ∧ (∀ x ∈ w.queue, x.1.normalized ∈ keys) ∧
      ∀ {key r}, (walk limit w d h).2.store.get? key = some r → h.store.get? key = some r ∨ key ∈ keys := by
  induction limit, w using walk_induction generalizing h with
  | done limit g visited =>
    rw [walk_nil]
    exact ⟨[], by simp, by simp, .inl⟩
  | givenUp g visited x queue => exact absurd rfl hw
  | visit limit g visited script text queue ih =>
    obtain ⟨h₁, ms, w', h₂, hleg⟩ := exists_leg (d := d) script text ⟨g, visited, queue⟩ hm
    rw [hleg.next limit] at hw ⊢
    obtain ⟨keys, hlength, hqueue, htracked⟩ := ih w' (hleg.sound hm) hw
    rw [hleg.round.queue] at hqueue
    refine ⟨script.normalized :: keys, by simpa using hlength, ?_, fun {key r} hr => ?_⟩
    · exact List.forall_mem_cons.2 ⟨List.mem_cons_self, fun x hx =>
        List.mem_cons_of_mem _ (hqueue x (List.mem_append_left _ hx))⟩
    · rcases htracked hr with hr | hkey
      · rw [hleg.round.trail.reached.record, recordAfter, hleg.quiet.store, Option.or_eq_some_iff] at hr
        rcases hr with hold | ⟨-, hnew⟩
        · exact .inl hold
        · obtain ⟨x, hx, rfl⟩ := Option.map_eq_some_iff.1 hnew
          have hxkey : x.1.normalized = key := by simpa using List.find?_some hx
          have hwaits := hqueue _ (List.mem_append_right _ (List.mem_map_of_mem (List.mem_of_find?_eq_some hx)))
          exact .inr (List.mem_cons_of_mem _ (hxkey ▸ hwaits))
      · exact .inr (List.mem_cons_of_mem _ hkey)

/-! ### Closures -/

section

variable {d : Disk} {path : String} {origin : Option String}

private theorem mergedContent_ne_unfinished {σ : Type} {h : Host σ} (hm : h.memo.Sound) (o : Observation) :
    (mergedContent o d h).1 ≠ .error .unfinished := by
  by_cases hplain : o.identity.isCompiled = true → declarationsBeside d o.identity.resolved = none
  · rw [mergedContent_of_plain hplain]
    exact nofun
  · obtain ⟨hc, hbeside⟩ := Classical.not_imp.1 hplain
    obtain ⟨declaration, hd⟩ := Option.ne_none_iff_exists'.1 hbeside
    rw [mergedContent_of_declarations hc hd hm, mergeAnswer]
    cases hs : seenText h.store d (.shim (shimPath declaration)) none with
    | error e =>
      unfold seenText at hs
      split at hs
      · cases hs
      · cases hs
      · cases hload : d.load (fileOf (.shim (shimPath declaration))) <;> rw [hload] at hs <;> cases hs
        exact nofun
    | ok text =>
      show combined _ _ _ _ ≠ _
      unfold combined
      split
      · exact nofun
      · exact nofun
      · rename_i u v hunits
        cases h.tools.reassembler u.statements v.statements <;> exact nofun

private theorem commit_news {σ : Type} {h : Host σ} (hm : h.memo.Sound) (o : Observation) (ho : o.needsUpdate = true) :
    (∃ h', commit o d h = (.ok true, h')) ∨ ∃ e h', commit o d h = (.error e, h') ∧ e ≠ .unfinished := by
  have hmerge := mergedContent_ne_unfinished (d := d) hm o
  unfold commit
  rw [ho, Bool.not_true, if_neg (by decide)]
  rcases hc : mergedContent o d h with ⟨e | content, h₁⟩
  · rw [hc] at hmerge
    exact .inr ⟨e, h₁, Action.bind_run_of_error hc, fun he => hmerge (by rw [he])⟩
  · rw [Action.bind_run_of_ok hc]
    exact .inl ⟨_, rfl⟩

/-- A closure goes on from its first script if that can be tracked, and fails if not. -/
private theorem expandClosure_run {σ : Type} {h h₁ : Host σ} {root : Identity} (hm : h₁.memo.Sound)
    (hi : identify path origin d h = (.ok root, h₁)) (hnew : h₁.store.get? root.normalized = none) :
    (∃ text h₂, trackImport root d h₁ = (.ok (some text), h₂) ∧
      expandClosure path origin d h = walk h₂.walkLimit (.start .empty ⟨root, text, true⟩) d h₂) ∨
    ∃ e h₂, trackImport root d h₁ = (.ok none, h₂) ∧ expandClosure path origin d h = (.error e, h₂) ∧
      e ≠ .unfinished := by
  have hobserve := observeIdentity_run root none d h₁
  rw [seenText_of_untracked hnew] at hobserve
  unfold trackImport expandClosure
  cases hload : d.load (fileOf root) with
  | error e =>
    rw [hload] at hobserve
    refine .inr ⟨.load e, h₁, ?_, ?_, nofun⟩
    · rw [Action.bind_attempt_run hobserve]
      rfl
    · exact Action.bind_run_of_error (by rw [observe, Action.bind_run_of_ok hi, hobserve]; rfl)
  | ok text =>
    have hneeds : h₁.store.needsUpdate root.normalized text = true := by simp [Store.needsUpdate, hnew]
    have hseen : observeIdentity root none d h₁ = (.ok ⟨root, text, true⟩, h₁) := by
      rw [hobserve, hload, ← hneeds]
      rfl
    rw [Action.bind_attempt_run hseen,
      Action.bind_run_of_ok (by rw [observe, Action.bind_run_of_ok hi, hseen])]
    rcases commit_news hm ⟨root, text, true⟩ rfl with ⟨h₂, hc⟩ | ⟨e, h₂, hc, he⟩
    · refine .inl ⟨text, h₂, ?_, Action.bind_run_of_ok hc⟩
      show ((commit ⟨root, text, true⟩).attempt >>= _) d h₁ = _
      rw [Action.bind_attempt_run hc]
      rfl
    · refine .inr ⟨e, h₂, ?_, Action.bind_run_of_error hc, he⟩
      show ((commit ⟨root, text, true⟩).attempt >>= _) d h₁ = _
      rw [Action.bind_attempt_run hc]
      rfl

variable {ex ex' : Exclusions} {h₀ : Host SyntaxEngine}

/-- What a closure leads to. -/
structure Closed (ex : Exclusions) (d : Disk) (h₀ : Host SyntaxEngine) (path : String) (origin : Option String)
    (x : Except HostError Graph × Host SyntaxEngine) : Prop where
  /-- Nothing but scripts that can be met is tracked, and all of them if the walk is not given up. -/
  regular : ∃ known, Regular ex d h₀ path origin known x.2 ∧
    (x.1 ≠ .error .unfinished → Covers ex d h₀ path origin known)
  /-- The walk is not given up if and only if there are not too many. -/
  ends : x.1 ≠ .error .unfinished ↔ ∃ keys : List String, keys.length ≤ h₀.walkLimit ∧ Covers ex d h₀ path origin keys

/-- If nothing can be tracked, all that could be has been tracked. -/
private theorem Closed.of_nothing {known : List String} {e : HostError} {h : Host SyntaxEngine}
    (hg : Regular ex d h₀ path origin known h) (he : e ≠ .unfinished)
    (hnone : ∀ {i}, Met ex d h₀ path origin i → firstRecord? d h₀ i = none) :
    Closed ex d h₀ path origin (.error e, h) := by
  have hcovers : ∀ keys, Covers ex d h₀ path origin keys := by
    intro keys i hi hsome
    rw [hnone hi] at hsome
    cases hsome
  refine ⟨⟨known, hg, fun _ => hcovers known⟩, fun _ => ⟨[], Nat.zero_le _, hcovers []⟩, fun _ hunfinished => ?_⟩
  cases hunfinished
  exact he rfl

/-- If the first script can be tracked, a walk from it leads to all that can be met. -/
private theorem Closed.of_walk (hu : Unmistakable ex d h₀ path origin) (h₀u : h₀.Unused)
    (he : h₀.tools.engine = SyntaxEngine.engine) {root : Identity} (hroot : (identify path origin d h₀).1 = .ok root)
    {r : Record} (hr : firstRecord? d h₀ root = some r) {h : Host SyntaxEngine}
    (hf : Fair ex d h₀ path origin [root.normalized] [(root, r.rawContent)] h) :
    Closed ex d h₀ path origin (walk h.walkLimit (.start .empty ⟨root, r.rawContent, true⟩) d h) := by
  have hmet : Met ex d h₀ path origin root := ⟨root, hroot, .refl⟩
  obtain ⟨⟨known, queue, hfair, hkept, hends⟩, hshort⟩ :=
    Fair.walk hu h₀u he h.walkLimit (w := .start .empty ⟨root, r.rawContent, true⟩) hf
  generalize hw : (Walk.start .empty ⟨root, r.rawContent, true⟩ : Walk) = w at *
  have hlimit : h.walkLimit = h₀.walkLimit := hf.walkLimit
  have hknown : (walk h.walkLimit w d h).1 ≠ .error .unfinished →
      ∀ {i}, Met ex d h₀ path origin i → i.normalized ∈ known := by
    intro hdone i hi
    rw [hends hdone] at hfair
    -- what is known brings in what is known
    exact hi.keeps hroot (hkept _ (hw ▸ List.mem_cons_self)) fun ha hknown hlast =>
      (hfair.followed ha hknown hlast).resolve_left (by simp)
  refine ⟨⟨known, hfair.toRegular, fun hdone i hi _ => hknown hdone hi⟩, fun hdone => ?_, ?_⟩
  · obtain ⟨keys, hlength, hqueue, htracked⟩ := walk_tracks_visited hf.sound hdone
    refine ⟨keys, hlimit ▸ hlength, fun {i} hi hsome => ?_⟩
    obtain ⟨record, hrecord⟩ := Option.isSome_iff_exists.1 hsome
    have hlast := hfair.tracked hi
    rw [if_pos (hknown hdone hi), hrecord] at hlast
    rcases htracked hlast with hold | hkey
    · -- before the walk, nothing but the first script has been tracked
      obtain ⟨j, -, hj, hjknown, -⟩ := hf.exists_of_tracked hold
      rw [List.mem_singleton.1 hjknown] at hj
      exact hj ▸ hqueue (root, r.rawContent) (hw ▸ List.mem_singleton_self _)
    · exact hkey
  · rintro ⟨keys, hlength, hcovers⟩
    refine hshort hcovers ?_
    have hlt : (left keys [root.normalized]).length < (left keys []).length :=
      length_left_cons_lt (hcovers hmet (by rw [hr]; rfl)) (by simp)
    have hall : (left keys []).length = keys.length := by simp [left]
    subst hw
    show 1 + (left keys [root.normalized]).length ≤ h.walkLimit
    omega

private theorem expandClosure_closed (hu : Unmistakable ex d h₀ path origin) (h₀u : h₀.Unused)
    (he : h₀.tools.engine = SyntaxEngine.engine) :
    Closed ex d h₀ path origin (expandClosure path origin d { h₀ with exclusions := ex }) := by
  obtain ⟨hfound, hg⟩ := (Regular.start h₀u).identify hu .first
  change Regular ex d h₀ path origin [] (identify path origin d { h₀ with exclusions := ex }).2 at hg
  have hsame : (identify path origin d { h₀ with exclusions := ex }).1 = (identify path origin d h₀).1 := rfl
  rcases hi : identify path origin d { h₀ with exclusions := ex } with ⟨e | root, h₁⟩ <;> rw [hi] at hg hsame
  · -- nothing can be met if there is no first script
    have herror : expandClosure path origin d { h₀ with exclusions := ex } = (.error e, h₁) :=
      Action.bind_run_of_error (Action.bind_run_of_error hi)
    have hresolution : e ≠ .unfinished := by
      have hafresh := hsame.trans hfound
      cases ha : Memo.afresh h₀.tools.resolver d (path, origin.getD h₀.directory) <;> rw [ha] at hafresh <;>
        cases hafresh
      exact nofun
    rw [herror]
    refine .of_nothing hg hresolution fun {i} hmet => ?_
    obtain ⟨root, hok, -⟩ := hmet
    rw [← hsame] at hok
    cases hok
  · have hmet : Met ex d h₀ path origin root := ⟨root, hsame.symm, .refl⟩
    have hf : Fair ex d h₀ path origin [] [] h₁ := ⟨hg, by simp, by simp⟩
    have hnew : h₁.store.get? root.normalized = none := by rw [hg.tracked hmet, if_neg (by simp)]
    obtain ⟨h₂, htrack, hf₂⟩ := hf.trackImport hu h₀u he hmet (by simp)
    rcases expandClosure_run hg.sound hi hnew with ⟨text, h₂', htrack', hrun⟩ | ⟨e, h₂', htrack', hrun, herror⟩ <;>
      rw [htrack] at htrack'
    · obtain ⟨hanswer, rfl⟩ := Prod.mk.inj htrack'
      obtain ⟨r, hr, rfl⟩ := Option.map_eq_some_iff.1 (Except.ok.inj hanswer)
      rw [hr] at hf₂
      rw [hrun]
      exact .of_walk hu h₀u he hsame.symm hr hf₂
    · obtain ⟨hanswer, rfl⟩ := Prod.mk.inj htrack'
      have hnone : firstRecord? d h₀ root = none := by
        cases hr : firstRecord? d h₀ root with
        | none => rfl
        | some r =>
          rw [hr] at hanswer
          cases hanswer
      rw [hrun]
      refine .of_nothing hf₂.toRegular herror fun {i} hi =>
        Met.keeps (P := fun i => firstRecord? d h₀ i = none) hi hsame.symm hnone fun {a b} _ ha hb => ?_
      -- a script that cannot be tracked brings nothing in
      obtain ⟨r, hr, -⟩ := mem_broughtIn_iff.1 hb
      rw [ha] at hr
      cases hr

/-- If more is excluded, nothing more is tracked, and what is tracked has the same records; and if the walk is not given
up with less excluded, it is not given up with more.  This is said of scripts that are not in each other's way. -/
theorem expandClosure_antitone (h₀u : h₀.Unused) (he : h₀.tools.engine = SyntaxEngine.engine)
    (hex : ∀ key, ex.excludes key = true → ex'.excludes key = true) (hu : Unmistakable ex d h₀ path origin)
    (hends : (expandClosure path origin d { h₀ with exclusions := ex }).1 ≠ .error .unfinished) :
    (expandClosure path origin d { h₀ with exclusions := ex' }).1 ≠ .error .unfinished ∧
    ∀ key r, (expandClosure path origin d { h₀ with exclusions := ex' }).2.store.get? key = some r →
      (expandClosure path origin d { h₀ with exclusions := ex }).2.store.get? key = some r := by
  have hless := expandClosure_closed hu h₀u he
  have hmore := expandClosure_closed (hu.mono hex) h₀u he
  constructor
  · obtain ⟨keys, hlength, hcovers⟩ := hless.ends.1 hends
    exact hmore.ends.2 ⟨keys, hlength, fun hi => hcovers (hi.mono hex)⟩
  · intro key r hr
    obtain ⟨known', hmore, -⟩ := hmore.regular
    obtain ⟨known, hless, hcovers⟩ := hless.regular
    obtain ⟨i, hi, rfl, -, hrecord⟩ := hmore.exists_of_tracked hr
    have hknown := hcovers hends (hi.mono hex) (by rw [hrecord]; rfl)
    rw [hless.tracked (hi.mono hex), if_pos hknown, hrecord]

end

/-- The pattern of the paths that have some part. -/
def containing (part : String) : Exclusions :=
  Exclusions.empty.addProgram (Pattern.Expr.seqs (part.toList.map fun c => .item (· == c))).program

/-- If a script is excluded that lies between two others, only the first one of them is tracked. -/
theorem expandClosure_antitone_of_chain : ∃ (d : Disk) (h : Host SyntaxEngine),
    (expandClosure "/r/a.ts" none d { h with exclusions := .empty }).2.store.contains "/r/c.ts" = true ∧
    (expandClosure "/r/a.ts" none d { h with exclusions := containing "/b." }).2.store.contains "/r/a.ts" = true ∧
    ∀ key r, (expandClosure "/r/a.ts" none d { h with exclusions := containing "/b." }).2.store.get? key = some r →
      (expandClosure "/r/a.ts" none d { h with exclusions := .empty }).2.store.get? key = some r := by
  let d := ((Disk.empty.write "/r/a.ts" (.text "import './b'")).write "/r/b.ts" (.text "import './c'")).write "/r/c.ts"
    (.text "1")
  let h := fresh ⟨nodeResolver, Merge.typePrelude, SyntaxEngine.engine⟩ SyntaxEngine.fresh "/r"
  let scripts : List Identity := [.ofResolved "/r/a.ts", .ofResolved "/r/b.ts", .ofResolved "/r/c.ts"]
  let queries : List Memo.Query := [("/r/a.ts", "/r"), ("./b", "/r/a.ts"), ("./c", "/r/b.ts")]
  have hroot : (identify "/r/a.ts" none d h).1 = .ok (.ofResolved "/r/a.ts") := by decide +kernel
  have hclosed : ∀ a ∈ scripts, ∀ b ∈ broughtIn .empty d h a, b ∈ scripts := by decide +kernel
  have hnames : ∀ a ∈ scripts, ∀ r ∈ (firstRecord? d h a).toList,
      ∀ name ∈ importNames h.tools.resolver r.rawContent, (name, a.resolved) ∈ queries := by
    decide +kernel
  have hall : (expandClosure "/r/a.ts" none d { h with exclusions := .empty }).1.toOption.isSome = true ∧
      (expandClosure "/r/a.ts" none d { h with exclusions := .empty }).2.store.contains "/r/c.ts" = true := by
    decide +kernel
  have hfirst : (expandClosure "/r/a.ts" none d { h with exclusions := containing "/b." }).2.store.contains "/r/a.ts" =
      true := by
    decide +kernel
  have hdirectory : h.directory = "/r" := rfl
  have h₀u : h.Unused := unused_fresh ..
  have he : h.tools.engine = SyntaxEngine.engine := rfl
  clear_value d h
  have hmem : ∀ {i}, Met .empty d h "/r/a.ts" none i → i ∈ scripts := fun hi =>
    hi.keeps hroot (by decide) fun _ hmem hlast => hclosed _ hmem _ hlast
  have hqueries : ∀ {q}, Requested .empty d h "/r/a.ts" none q → q ∈ queries := by
    intro q hq
    cases hq with
    | first =>
      rw [hdirectory]
      exact List.mem_cons_self
    | imported ha hr hname => exact hnames _ (hmem ha) _ (Option.mem_toList.2 hr) _ hname
  have hu : Unmistakable .empty d h "/r/a.ts" none := by
    refine ⟨fun ha hb => ?_, fun {a b declaration} ha _ hc => ?_, fun {q q'} hq hq' hkey i hi => ?_⟩
    · have hkeys : ∀ a ∈ scripts, ∀ b ∈ scripts, a.normalized = b.normalized → a = b := by decide +kernel
      exact hkeys _ (hmem ha) _ (hmem hb)
    · have hplain : ∀ a ∈ scripts, a.isCompiled = false := by decide +kernel
      rw [hplain a (hmem ha)] at hc
      cases hc
    · have hdistinct : ∀ q ∈ queries, ∀ q' ∈ queries, Memo.key q.1 q.2 = Memo.key q'.1 q'.2 → q = q' := by
        decide +kernel
      rwa [← hdistinct q (hqueries hq) q' (hqueries hq') hkey]
  have hends : (expandClosure "/r/a.ts" none d { h with exclusions := .empty }).1 ≠ .error .unfinished := by
    intro herror
    rw [herror] at hall
    cases hall.1
  exact ⟨d, h, hall.2, hfirst, (expandClosure_antitone h₀u he (fun key hkey => by cases hkey) hu hends).2⟩

/-- A script and what it was compiled to share a key.  If the import of the one is excluded that comes first, the other
is tracked in its place, and so is what that imports. -/
theorem expandClosure_not_antitone : ¬ ∀ (d : Disk) (h : Host SyntaxEngine), h.Unused →
    h.tools = ⟨nodeResolver, Merge.typePrelude, SyntaxEngine.engine⟩ → ∀ (path : String) (ex ex' : Exclusions),
    (∀ key, ex.excludes key = true → ex'.excludes key = true) → ∀ key,
      (expandClosure path none d { h with exclusions := ex' }).2.store.contains key = true →
      (expandClosure path none d { h with exclusions := ex }).2.store.contains key = true := by
  let d := (((((Disk.empty.write "/r/x.ts" (.text "import './m'\nimport './n'")).write "/r/m.ts"
    (.text "import './a.js'")).write "/r/n.ts" (.text "import './a.ts'")).write "/r/a.js" (.text "1")).write "/r/a.ts"
    (.text "import './b'")).write "/r/b.ts" (.text "2")
  let h := fresh ⟨nodeResolver, Merge.typePrelude, SyntaxEngine.engine⟩ SyntaxEngine.fresh "/r"
  have hmore : (expandClosure "/r/x.ts" none d { h with exclusions := containing "/m." }).2.store.contains "/r/b.ts" =
      true := by
    decide +kernel
  have hless : (expandClosure "/r/x.ts" none d { h with exclusions := .empty }).2.store.contains "/r/b.ts" =
      false := by
    decide +kernel
  have h₀u : h.Unused := unused_fresh ..
  have ht : h.tools = ⟨nodeResolver, Merge.typePrelude, SyntaxEngine.engine⟩ := rfl
  clear_value d h
  intro hall
  have hsubset := hall d h h₀u ht "/r/x.ts" .empty (containing "/m.") (fun key hkey => by cases hkey) "/r/b.ts" hmore
  exact Bool.false_ne_true (hless.symm.trans hsubset)

/-- A file that takes the place of declarations is in the way of the script that they are merged with. -/
example :
    let d := (((Disk.empty.write "/x.ts" (.text "import './a-temp'\nimport './a.js'")).write "/a-temp.ts"
      (.text "var")).write "/a.js" (.text "1")).write "/a.d.ts" (.text "2")
    let h := fresh ⟨nodeResolver, Merge.typePrelude, SyntaxEngine.engine⟩ SyntaxEngine.fresh "/"
    (expandClosure "/x.ts" none d h).2.store.contains "/a.ts" = false ∧
      (expandClosure "/x.ts" none d { h with exclusions := containing "-t" }).2.store.contains "/a.ts" = true := by
  decide +kernel

end ScriptHost.Host
