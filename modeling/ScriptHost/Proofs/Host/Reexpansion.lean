import ScriptHost.Proofs.Host.Lockstep
import ScriptHost.Proofs.Host.Termination
import ScriptHost.Proofs.Resolution.Origin

/-!
# Expanding a closure again

The names in a script stand for the same scripts when its closure is expanded again (`Leg.identified_again`), since
everything that a walk looks up is looked up as seen from a file.  So the same imports are met, and nothing changes
unless one of them is tracked that could not be tracked before.  There is one way for this: a compiled script could not
be merged with its declarations, and meanwhile another script has been tracked under the key by which these are read
(`Revived`, `expandClosure_again_iff`).
-/

namespace ScriptHost.Host

open ScriptHost.Analysis ScriptHost.Imports ScriptHost.Path ScriptHost.Resolution

variable {σ : Type} {d : Disk}

/-! ### What a walk looks up -/

/-- Since the time of the memo `m`, names have been looked up as seen from files. -/
structure Seeing (d : Disk) (m : Memo) (h : Host σ) : Prop where
  resolver : h.tools.resolver.resolve = resolveOnDisk
  sound : h.memo.Sound
  ended : h.memo.Ended
  traced : m.Traced d h.memo

section

variable {m : Memo}

private theorem ended_of_reachable {h : Host σ} (hr : h.Reachable)
    (hresolver : h.tools.resolver.resolve = resolveOnDisk) : h.memo.Ended := by
  obtain ⟨h₀, run, hu, rfl⟩ := hr
  rw [tools_after hu.sound] at hresolver
  have hstart : h₀.tools.resolver.resolve = resolveOnDisk ∧ h₀.memo.Ended := ⟨hresolver, hu.memo ▸ Memo.ended_empty⟩
  have hkept := after_keeps (I := fun _ h => h.tools.resolver.resolve = resolveOnDisk ∧ h.memo.Ended) admitsAll_true
    (fun step hI => ⟨by rw [step.tools, hI.1], step.learned.ended hI.1 hI.2⟩) (fun _ => id) (admitted_true run)
    (n := 0) hu.sound hstart
  exact hkept.2

private theorem ended_of_identified {h : Host σ} (hresolver : h.tools.resolver.resolve = resolveOnDisk)
    (hm : h.memo.Ended)
    {path : String} {origin : Option String} {i : Identity} (hi : (identify path origin d h).1 = .ok i) :
    Path.Ended i.resolved := by
  have hlearned := (identify_quiet path origin d h).memo.ended hresolver hm
  exact hlearned _ _ (found_of_identify (Action.run_of_answer hi))

private theorem identify_keeps_seeing {origin : String} (ho : Path.Ended origin) (name : String) :
    (identify name (some origin) : Action σ _).Keeps d (Seeing d m) := by
  intro h hs
  have hq := identify_quiet name (some origin) d h
  exact ⟨hs.resolver, hq.sound hs.sound, hq.memo.ended hs.resolver hs.ended, hs.traced.resolve hs.resolver ho name⟩

section

variable {script : Identity} {text : String} {w w' : Walk} {h h₁ h₂ : Host σ} {ms : List (Meeting σ)}

private theorem Seeing.looked (hs : Seeing d m h) (hleg : Leg d script text w h h₁ ms w' h₂)
    (hscript : Path.Ended script.resolved) : Seeing d m h₁ := by
  have hkept : Seeing d m (identifyAll script.resolved (importNames h.tools.resolver text) d h).2 :=
    identifyAll_keeps (fun name _ => identify_keeps_seeing hscript name) h hs
  have hrun := hleg.looked
  rw [importsIn, Action.bind_host_run] at hrun
  rwa [hrun] at hkept

/-- When imports are followed, nothing but shims is looked up. -/
private theorem Seeing.followed (hs : Seeing d m h₁) (hleg : Leg d script text w h h₁ ms w' h₂) : Seeing d m h₂ := by
  have honward := hleg.round.trail.reached.onward
  refine ⟨?_, honward.sound hs.sound, honward.memo.ended hs.resolver hs.ended, ?_⟩
  · rw [honward.tools, hs.resolver]
  · intro name parts i hshim hi
    rw [hleg.names hs.sound (name, parts) hshim] at hi
    exact hs.traced name parts i hshim hi

/-- The scripts that wait after a visit are files if those before it were. -/
private theorem Seeing.waiting (hs : Seeing d m h₁) (hleg : Leg d script text w h h₁ ms w' h₂)
    (hw : ∀ x ∈ w.queue, Path.Ended x.1.resolved) : ∀ x ∈ w'.queue, Path.Ended x.1.resolved := by
  intro x hx
  rw [hleg.round.queue] at hx
  rcases List.mem_append.1 hx with hx | hx
  · exact hw x hx
  · obtain ⟨y, hy, rfl⟩ := List.mem_map.1 hx
    obtain ⟨met, hmet, hscript, -⟩ := exists_meeting_of_discovered hy
    obtain ⟨name, -, hi⟩ := hleg.identified hmet
    exact ended_of_identified hs.resolver hs.ended (hscript ▸ hi)

end

private theorem walk_keeps_seeing (limit : Nat) {w : Walk} (hw : ∀ x ∈ w.queue, Path.Ended x.1.resolved) :
    (walk limit w : Action σ _).Keeps d (Seeing d m) := by
  intro h hs
  obtain ⟨queue, hkept⟩ := walk_keeps (d := d)
    (I := fun queue h => Seeing d m h ∧ ∀ x ∈ queue, Path.Ended x.1.resolved) (fun hI => hI.1.sound)
    (fun {script text w h h₁ ms w' h₂} hI hleg => by
      obtain ⟨hscript, hrest⟩ := List.forall_mem_cons.1 hI.2
      have hlooked := hI.1.looked hleg hscript
      exact ⟨hlooked.followed hleg, hlooked.waiting hleg hrest⟩) limit (w := w) ⟨hs, hw⟩
  exact hkept.1

end

/-- The names in a file stand for the same scripts as on a leg of a walk as long as names are looked up as seen from
files. -/
theorem Leg.identified_again {script : Identity} {text : String} {w w' : Walk} {h h₁ h₂ h' : Host σ}
    {ms : List (Meeting σ)} (hleg : Leg d script text w h h₁ ms w' h₂) (hscript : Path.Ended script.resolved)
    (hs : Seeing d h₁.memo h') (hl : Onward d h₁ h') :
    Host.identified script.resolved (importNames h.tools.resolver text) d h' =
      Host.identified script.resolved (importNames h.tools.resolver text) d h₁ := by
  have hasked : ∀ name ∈ importNames h.tools.resolver text, ∀ i,
      (h₁.memo.resolve h₁.tools.resolver d name script.resolved).1 = .ok i →
        h₁.memo.found.get? (Memo.key name script.resolved) = some i := by
    intro name hname i hi
    have hidentify : (identify name (some script.resolved) d h₁).1 = .ok i := by
      rw [identify_run, Option.getD_some, hi]
      rfl
    have hrun : (identifyAll script.resolved (importNames h.tools.resolver text) d h).2 = h₁ :=
      congrArg Prod.snd hleg.looked
    rw [← hrun] at hidentify ⊢
    exact found_of_identifyAll hname hidentify
  have hresolver : h₁.tools.resolver.resolve = resolveOnDisk := by rw [← hl.tools, hs.resolver]
  refine List.filterMap_congr fun name hname => ?_
  rw [identify_run, identify_run, hl.tools]
  simp only [Option.getD_some, hs.traced.answer hresolver hl.memo hscript (hasked name hname)]

/-- What a whole walk has looked up since its first leg, it has looked up as seen from files. -/
private theorem Leg.seeing_after {script : Identity} {text : String} {w w' : Walk} {h h₁ h₂ h' : Host σ}
    {ms : List (Meeting σ)} {limit : Nat} {answer : Except HostError Graph} (hleg : Leg d script text w h h₁ ms w' h₂)
    (hscript : Path.Ended script.resolved) (hw : ∀ x ∈ w.queue, Path.Ended x.1.resolved)
    (hresolver : h.tools.resolver.resolve = resolveOnDisk) (hm : h.memo.Sound) (hended : h.memo.Ended)
    (hwalk : walk limit w' d h₂ = (answer, h')) : Seeing d h₁.memo h' := by
  have hstart : Seeing d h.memo h := ⟨hresolver, hm, hended, .refl d _⟩
  have hlooked := hstart.looked hleg hscript
  have hfollowed : Seeing d h₁.memo h₂ :=
    Seeing.followed ⟨hlooked.resolver, hlooked.sound, hlooked.ended, .refl d _⟩ hleg
  have hkept := walk_keeps_seeing limit (hlooked.waiting hleg hw) h₂ hfollowed
  rwa [hwalk] at hkept

/-! ### Meeting the same imports again -/

/-- A script that is not tracked after a time and can be tracked now: it is compiled and cannot be merged with the
declarations beside it, but meanwhile a script has been tracked under the key by which these are read, and with its text
it can be merged. -/
def Revived (r : Merge.Reassembler) (d : Disk) (before after : Store) (i : Identity) : Prop :=
  ∃ text declaration shown content, after.get? i.normalized = none ∧ d.load (fileOf i) = .ok text ∧
    i.isCompiled = true ∧ declarationsBeside d i.resolved = some declaration ∧
    ¬ CanMerge r d i.resolved text declaration ∧ before.get? (shimPath declaration) = none ∧
    after.get? (shimPath declaration) = some shown ∧
    r (statementsIn i.normalized text) (statementsIn (shimPath declaration) shown.rawContent) = .ok content

private theorem Revived.mono {r : Merge.Reassembler} {before before' after after' : Store} {i : Identity}
    (hi : Revived r d before after i) (hbefore : ∀ key, before.get? key = none → before'.get? key = none)
    (hafter : ∀ key, after.get? key = after'.get? key) : Revived r d before' after' i := by
  obtain ⟨text, declaration, shown, content, huntracked, htext, hcompiled, hbeside, hfails, hnone, hshown, hmerged⟩ :=
    hi
  exact ⟨text, declaration, shown, content, (hafter _).symm.trans huntracked, htext, hcompiled, hbeside, hfails,
    hbefore _ hnone, (hafter _).symm.trans hshown, hmerged⟩

/-- If a merge fails, and succeeds when more is tracked, then a script has been tracked in the meantime under the key by
which the declarations are read. -/
private theorem exists_shown_since {o : Observation} (ho : o.identity.WellFormed) {h h' : Host SyntaxEngine}
    (hm : h.memo.Sound) (hm' : h'.memo.Sound) (htools : h'.tools = h.tools) (he : h.tools.engine = SyntaxEngine.engine)
    (hkept : ∀ key r, h.store.get? key = some r → h'.store.get? key = some r)
    (hfails : ∀ content, (mergedContent o d h).1 ≠ .ok content) {content : String}
    (hok : (mergedContent o d h').1 = .ok content) :
    ∃ declaration shown, o.identity.isCompiled = true ∧ declarationsBeside d o.identity.resolved = some declaration ∧
      h.store.get? (shimPath declaration) = none ∧ h'.store.get? (shimPath declaration) = some shown := by
  obtain ⟨declaration, hcompiled, hbeside, hseen⟩ : ∃ declaration, o.identity.isCompiled = true ∧
      declarationsBeside d o.identity.resolved = some declaration ∧
      seenText h'.store d (.shim (shimPath declaration)) none ≠
        seenText h.store d (.shim (shimPath declaration)) none := by
    by_contra hnot
    have hanswer := mergedContent_answer_congr ho hm hm' htools he fun {declaration} hcompiled hbeside => by
      by_contra hseen
      exact hnot ⟨declaration, hcompiled, hbeside, hseen⟩
    exact hfails content (hanswer ▸ hok)
  have hnone : h.store.get? (shimPath declaration) = none := by
    refine Option.eq_none_iff_forall_ne_some.2 fun r hr => hseen ?_
    rw [seenText_of_stored (i := .shim (shimPath declaration)) hr,
      seenText_of_stored (i := .shim (shimPath declaration)) (hkept _ r hr)]
  obtain ⟨shown, hshown⟩ : ∃ shown, h'.store.get? (shimPath declaration) = some shown := by
    refine Option.ne_none_iff_exists'.1 fun hnone' => hseen ?_
    rw [seenText_of_untracked (i := .shim (shimPath declaration)) hnone',
      seenText_of_untracked (i := .shim (shimPath declaration)) hnone]
  exact ⟨declaration, shown, hcompiled, hbeside, hnone, hshown⟩

/-- The same scripts are met twice, from `h₁` to `h₂` and, with all that has been tracked by then, from `g₁` to `g₂`. -/
structure MetTwice (d : Disk) (known : List String) (h₁ h₂ g₁ g₂ : Host SyntaxEngine)
    (ms ns : List (Meeting SyntaxEngine)) : Prop where
  first : Trail d known h₁ ms h₂
  second : Trail d known g₁ ns g₂
  same : ms.map (·.script) = ns.map (·.script)
  wellFormed : ∀ m ∈ ms, m.script.WellFormed
  engine : h₁.tools.engine = SyntaxEngine.engine
  tools : g₁.tools = h₁.tools
  sound : h₁.memo.Sound
  sound' : g₁.memo.Sound
  kept : ∀ {key r}, h₂.store.get? key = some r → g₁.store.get? key = some r

namespace MetTwice

variable {known : List String} {h₁ h₂ g₁ g₂ : Host SyntaxEngine} {ms ns before after : List (Meeting SyntaxEngine)}
  {n : Meeting SyntaxEngine}

/-- The first time, the same script was the first one with its key as well. -/
private theorem counterpart (ht : MetTwice d known h₁ h₂ g₁ g₂ ms ns) (hns : ns = before ++ n :: after)
    (hfirst : ∀ m ∈ before, m.key ≠ n.key) : ∃ before₁ m after₁, ms = before₁ ++ m :: after₁ ∧ m.script = n.script ∧
      ∀ m' ∈ before₁, m'.key ≠ n.key := by
  have hscripts := ht.same
  rw [hns, List.map_append, List.map_cons] at hscripts
  obtain ⟨before₁, rest, hms, hbefore, hrest⟩ := List.map_eq_append_iff.1 hscripts
  obtain ⟨m, after₁, rfl, hscript, -⟩ := List.map_eq_cons_iff.1 hrest
  refine ⟨before₁, m, after₁, hms, hscript, fun m' hm' hkey => ?_⟩
  have hmem : m'.script ∈ before.map (·.script) := hbefore ▸ List.mem_map_of_mem hm'
  obtain ⟨n', hn', heq⟩ := List.mem_map.1 hmem
  exact hfirst n' hn' ((congrArg Identity.normalized heq).trans hkey)

/-- If a script that can be loaded is not tracked the second time, it could not be merged the first time. -/
private theorem failed (ht : MetTwice d known h₁ h₂ g₁ g₂ ms ns) {m : Meeting SyntaxEngine}
    (hms : ms = before ++ m :: after)
    (hfirst : ∀ m' ∈ before, m'.key ≠ m.key) (hknown : m.key ∉ known) (huntracked : g₁.store.get? m.key = none)
    {text : String} (htext : d.load (fileOf m.script) = .ok text) (content : String) :
    (mergedContent ⟨m.script, text, true⟩ d m.host).1 ≠ .ok content := by
  intro hcontent
  have hnew : m.host.store.get? m.key = none := by
    refine Option.eq_none_iff_forall_ne_some.2 fun r hr => ?_
    rw [ht.kept (ht.first.keeps_record hms hr)] at huntracked
    cases huntracked
  have hrecord := Meeting.record?_eq_some_iff.2 ⟨hnew, text, content, htext, hcontent, rfl⟩
  have hfound := (find?_discovered_eq_some_iff hknown).2 ⟨before, m, after, hms, hfirst, rfl, hrecord⟩
  obtain ⟨r, hr⟩ : ∃ r, h₂.store.get? m.key = some r := by
    rw [ht.first.reached.record, recordAfter, hfound]
    cases h₁.store.get? m.key <;> exact ⟨_, rfl⟩
  rw [ht.kept hr] at huntracked
  cases huntracked

/-- A script that gets a record the second time only is revived. -/
private theorem revived (ht : MetTwice d known h₁ h₂ g₁ g₂ ms ns) (hns : ns = before ++ n :: after)
    (hknown : n.key ∉ known)
    (hfirst : ∀ m ∈ before, m.key ≠ n.key) (hsame : ∀ key, n.host.store.get? key = g₁.store.get? key) {r : Record}
    (hr : n.record? d = some r) : Revived h₁.tools.reassembler d h₁.store g₁.store n.script := by
  obtain ⟨huntracked, text, content, htext, hcontent, -⟩ := Meeting.record?_eq_some_iff.1 hr
  obtain ⟨before₁, m, after₁, hms, hscript, hfirst₁⟩ := ht.counterpart hns hfirst
  have hkey : m.key = n.key := congrArg Identity.normalized hscript
  rw [← hkey] at hknown hfirst₁ huntracked
  rw [← hscript] at htext hcontent ⊢
  have hfails := ht.failed hms hfirst₁ hknown (hsame _ ▸ huntracked) htext
  have hwf := ht.wellFormed m (by rw [hms]; simp)
  have hmhost := (ht.first.met hms).onward
  have hnhost := (ht.second.met hns).onward
  have hm := hmhost.sound ht.sound
  have hn := hnhost.sound ht.sound'
  have he : m.host.tools.engine = SyntaxEngine.engine := by rw [hmhost.tools, ht.engine]
  have htools : n.host.tools = m.host.tools := by rw [hnhost.tools, ht.tools, hmhost.tools]
  obtain ⟨declaration, shown, hcompiled, hbeside, hnone, hshown⟩ := exists_shown_since (o := ⟨m.script, text, true⟩) hwf
    hm hn htools he (fun key r hr => (hsame key).trans (ht.kept (ht.first.keeps_record hms hr))) hfails hcontent
  have hmerged := (mergedContent_eq_ok (o := ⟨m.script, text, true⟩) hwf hn (htools ▸ he)
    ⟨hcompiled, hbeside, seenText_of_stored (i := .shim (shimPath declaration)) hshown d⟩).1 hcontent
  rw [htools, hmhost.tools] at hmerged
  refine ⟨text, declaration, shown, content, hsame _ ▸ huntracked, htext, hcompiled, hbeside, fun hmerge => ?_, ?_,
    hsame _ ▸ hshown, hmerged⟩
  · rw [← hmhost.tools] at hmerge
    obtain ⟨content₁, hcontent₁⟩ := mergedContent_of_canMerge (o := ⟨m.script, text, true⟩) hwf hm he hcompiled hbeside
      hnone hmerge
    exact hfails content₁ hcontent₁
  · rw [(ht.first.met hms).record, recordAfter] at hnone
    exact (Option.or_eq_none_iff.1 hnone).1

private theorem exists_record (ht : MetTwice d known h₁ h₂ g₁ g₂ ms ns) (hns : ns = before ++ n :: after)
    (hsame : ∀ key, n.host.store.get? key = g₁.store.get? key) {s : Store}
    (hrevived : Revived h₁.tools.reassembler d s g₁.store n.script) : ∃ r, n.record? d = some r := by
  obtain ⟨text, declaration, shown, content, huntracked, htext, hcompiled, hbeside, -, -, hshown, hmerged⟩ := hrevived
  have hnhost := (ht.second.met hns).onward
  have hntools : n.host.tools = h₁.tools := hnhost.tools.trans ht.tools
  have hwf : n.script.WellFormed := by
    have hmem : n.script ∈ ms.map (·.script) := by
      rw [ht.same, hns]
      simp
    obtain ⟨m, hm, heq⟩ := List.mem_map.1 hmem
    exact heq ▸ ht.wellFormed m hm
  have hseen := seenText_of_stored (i := .shim (shimPath declaration)) ((hsame _).trans hshown) d
  have hcontent := (mergedContent_eq_ok (o := ⟨n.script, text, true⟩) hwf (hnhost.sound ht.sound')
    (hntools ▸ ht.engine) ⟨hcompiled, hbeside, hseen⟩).2 (hntools ▸ hmerged)
  exact ⟨_, Meeting.record?_eq_some_iff.2 ⟨(hsame _).trans huntracked, text, content, htext, hcontent, rfl⟩⟩

end MetTwice

/-- A walk ends and leaves the store as it was before its first visit if and only if nothing was discovered there. -/
private theorem walk_changes_nothing_iff {known : List String} {h h₁ : Host σ} {ms : List (Meeting σ)}
    (ht : Trail d known h ms h₁) (hm : h₁.memo.Sound) {w : Walk}
    (hqueue : w.queue = (discovered d known ms).map fun x => (x.1, x.2.rawContent)) (limit : Nat) :
    ((∃ graph, (walk limit w d h₁).1 = .ok graph) ∧
      ∀ key, (walk limit w d h₁).2.store.get? key = h.store.get? key) ↔ discovered d known ms = [] := by
  constructor
  · rintro ⟨-, hstore⟩
    cases hfound : discovered d known ms with
    | nil => rfl
    | cons x rest =>
      -- what is discovered was not tracked and stays tracked
      have hx : x ∈ discovered d known ms := hfound ▸ List.mem_cons_self
      obtain ⟨m, hmem, hscript, hr⟩ := exists_meeting_of_discovered hx
      obtain ⟨before, after, hms⟩ := List.append_of_mem hmem
      have hnone : h.store.get? x.1.normalized = none := by
        have huntracked := Meeting.untracked_of_record? hr
        rw [(ht.met hms).record, recordAfter, Meeting.key, hscript] at huntracked
        exact (Option.or_eq_none_iff.1 huntracked).1
      have hsome : h₁.store.get? x.1.normalized = some x.2 := by
        rw [ht.reached.record, recordAfter, hnone, hfound]
        simp
      have hkept : (walk limit w d h₁).2.store.get? x.1.normalized = some x.2 :=
        (walk_keeps_record x.1.normalized x.2 limit w h₁ ⟨hm, hsome⟩).2
      rw [hstore, hnone] at hkept
      cases hkept
  · intro hnone
    have hwalk : walk limit w d h₁ = (.ok w.graph, h₁) := by
      obtain ⟨graph, visited, queue⟩ := w
      rw [hnone] at hqueue
      cases hqueue
      rw [walk_nil]
      rfl
    rw [hwalk]
    refine ⟨⟨w.graph, rfl⟩, fun key => ?_⟩
    rw [ht.reached.record, recordAfter, hnone]
    exact Option.or_none

/-! ### Expanding once more -/

section

variable {path : String} {origin : Option String}

/-- The scripts that the first one of a closure imports, in the order in which they are met. -/
def importsMet (path : String) (origin : Option String) (d : Disk) (h : Host σ) : List Identity :=
  match observe path origin none d h with
  | (.error _, _) => []
  | (.ok root, h) =>
    ((identified root.identity.resolved (importNames h.tools.resolver root.raw) d h).map (·.2)).filter fun i =>
      !h.exclusions.excludes i.normalized

/-- The script at a path has been observed and stored before its imports are followed. -/
structure Opened (d : Disk) (path : String) (origin : Option String) (h start : Host σ) (root : Observation) :
    Prop where
  wellFormed : root.identity.WellFormed
  identified : (identify path origin d h).1 = .ok root.identity
  found : start.memo.found.get? (Memo.key path (origin.getD h.directory)) = some root.identity
  onward : Onward d h start
  stored : start.store.needsUpdate root.path root.raw = false
  kept : ∀ key, start.store.get? key = none → h.store.get? key = none

private theorem exists_opened {h h' : Host σ} (hm : h.memo.Sound) {graph : Graph}
    (hok : expandClosure path origin d h = (.ok graph, h')) :
    ∃ root start, Opened d path origin h start root ∧
      walk start.walkLimit (.start .empty root) d start = (.ok graph, h') := by
  obtain ⟨root, h₀, hroot, hrest⟩ := Action.bind_eq_ok.1 hok
  obtain ⟨stored, start, hcommit, hwalk⟩ := Action.bind_eq_ok.1 hrest
  obtain ⟨i, h₁, hi, ho⟩ := Action.bind_eq_ok.1 hroot
  obtain ⟨rfl, -, rfl, hnews⟩ := observeIdentity_eq_ok.1 ho
  have hq := identify_quiet path origin d h
  rw [hi] at hq
  change Quiet d h h₀ at hq
  have hm₀ := hq.sound hm
  have hwf := wellFormed_of_identify hm hi
  have honward := commit_onward (.of_wellFormed hwf d) hm₀
  have hrecord := get?_commit (.of_wellFormed hwf d) hm₀
  rw [hcommit] at honward hrecord
  refine ⟨root, start, ⟨hwf, congrArg Prod.fst hi, honward.memo.kept (found_of_identify hi), hq.toOnward.trans honward,
    stored_of_commit (.of_wellFormed hwf d) hm₀ hnews hcommit, fun key hnone => ?_⟩, hwalk⟩
  rw [← hq.store]
  rw [hrecord] at hnone
  split at hnone
  · exact (Option.or_eq_none_iff.1 hnone).2
  · exact hnone

/-- A script that is stored is observed as it was, and its imports are followed again. -/
private theorem Opened.again {h start h' : Host σ} {root : Observation} (ho : Opened d path origin h start root)
    (hl : Onward d start h') (hstored : h'.store.needsUpdate root.path root.raw = false) :
    observe path origin none d h' = (.ok ⟨root.identity, root.raw, false⟩, h') ∧
      expandClosure path origin d h' = walk h'.walkLimit (.start .empty root) d h' := by
  have hdirectory : h'.directory = h.directory := congrArg (·.2.1) (ho.onward.trans hl).setup
  have hidentify : identify path origin d h' = (.ok root.identity, h') := by
    refine identify_of_found ?_
    rw [hdirectory]
    exact hl.memo.kept ho.found
  have hobserve : observe path origin none d h' = (.ok ⟨root.identity, root.raw, false⟩, h') := by
    obtain ⟨r, hr, hraw⟩ := Option.map_eq_some_iff.1 (needsUpdate_eq_false_iff.1 hstored)
    unfold observe
    rw [Action.bind_run_of_ok hidentify, observeIdentity_run, seenText_of_stored hr, hraw, ← hstored]
    rfl
  refine ⟨hobserve, ?_⟩
  unfold expandClosure
  rw [Action.bind_run_of_ok hobserve, Action.bind_run_of_ok (commit_of_not_news rfl d h')]
  rfl

private theorem exists_first_leg {root : Observation} {start h' : Host σ} (hm : start.memo.Sound) {graph : Graph}
    (hwalk : walk start.walkLimit (.start .empty root) d start = (.ok graph, h')) :
    ∃ limit h₁ ms w h₂, start.walkLimit = limit + 1 ∧
      Leg d root.identity root.raw ⟨Graph.empty.addFile root.path, [root.path], []⟩ start h₁ ms w h₂ ∧
      walk limit w d h₂ = (.ok graph, h') := by
  obtain ⟨h₁, ms, w, h₂, hleg⟩ :=
    exists_leg (d := d) root.identity root.raw ⟨Graph.empty.addFile root.path, [root.path], []⟩ hm
  cases hlimit : start.walkLimit with
  | zero =>
    rw [hlimit] at hwalk
    cases hwalk
  | succ limit =>
    rw [hlimit] at hwalk
    exact ⟨limit, h₁, ms, w, h₂, rfl, hleg, (hleg.next limit).symm.trans hwalk⟩

/-- The closure of a script has been expanded from `h` to `h'`, where its imports were met from `h₁` to `h₂`; when it is
expanded once more, they are met again from `g₁` to `g₂`, and then the walk goes on. -/
structure ExpandedTwice (d : Disk) (path : String) (origin : Option String) (h h' h₁ h₂ g₁ g₂ : Host SyntaxEngine)
    (key : String) (ms ns : List (Meeting SyntaxEngine)) (w : Walk) (limit : Nat) : Prop extends
    MetTwice d [key] h₁ h₂ g₁ g₂ ms ns where
  start : h₁.tools = h.tools
  before : ∀ other, h₁.store.get? other = none → h.store.get? other = none
  after : ∀ other, g₁.store.get? other = h'.store.get? other
  tracked : h'.store.get? key ≠ none
  imports : importsMet path origin d h' = ns.map (·.script)
  again : expandClosure path origin d h' = walk limit w d g₂
  queue : w.queue = (discovered d [key] ns).map fun x => (x.1, x.2.rawContent)

private theorem ExpandedTwice.find?_eq_some_iff {h h' h₁ h₂ g₁ g₂ : Host SyntaxEngine} {key : String}
    {ms ns : List (Meeting SyntaxEngine)} {w : Walk} {limit : Nat}
    (ht : ExpandedTwice d path origin h h' h₁ h₂ g₁ g₂ key ms ns w limit) {i : Identity} :
    (importsMet path origin d h').find? (·.normalized == i.normalized) = some i ↔
      ∃ before n after, ns = before ++ n :: after ∧ (∀ m ∈ before, m.key ≠ n.key) ∧ n.script = i := by
  rw [ht.imports, List.find?_eq_some_iff_append]
  constructor
  · rintro ⟨-, before, after, hsplit, hbefore⟩
    obtain ⟨before, rest, rfl, rfl, hrest⟩ := List.map_eq_append_iff.1 hsplit
    obtain ⟨n, after, rfl, rfl, -⟩ := List.map_eq_cons_iff.1 hrest
    refine ⟨before, n, after, rfl, fun m hm => ?_, rfl⟩
    simpa [Meeting.key] using hbefore m.script (List.mem_map_of_mem hm)
  · rintro ⟨before, n, after, rfl, hbefore, rfl⟩
    refine ⟨by simp, before.map (·.script), after.map (·.script), by simp, fun j hj => ?_⟩
    obtain ⟨m, hm, rfl⟩ := List.mem_map.1 hj
    simpa [Meeting.key] using hbefore m hm

private theorem exists_expandedTwice {h h' : Host SyntaxEngine} (hr : h.Reachable)
    (he : h.tools.engine = SyntaxEngine.engine) (hresolver : h.tools.resolver.resolve = resolveOnDisk) {graph : Graph}
    (hok : expandClosure path origin d h = (.ok graph, h')) :
    ∃ h₁ h₂ g₁ g₂ key ms ns w limit, ExpandedTwice d path origin h h' h₁ h₂ g₁ g₂ key ms ns w limit := by
  obtain ⟨root, start, hopened, hwalk⟩ := exists_opened hr.sound hok
  have hm := hopened.onward.sound hr.sound
  have htools := hopened.onward.tools
  obtain ⟨limit, h₁, ms, w, h₂, hlimit, hleg, hrest⟩ := exists_first_leg hm hwalk
  have hfirst := hleg.round.trail
  have hm₁ := hleg.quiet.sound hm
  have hm₂ := hfirst.reached.onward.sound hm₁
  obtain ⟨visits, meetings, hi⟩ := walk_itinerary hm₂ hrest
  have hlater : Onward d h₁ h' := hfirst.reached.onward.trans hi.trail.reached.onward
  have hall : Onward d start h' := hleg.quiet.toOnward.trans hlater
  have hkept : ∀ {key r}, h₂.store.get? key = some r → h'.store.get? key = some r :=
    record_of_walk hm₂ hrest
  have hended : start.memo.Ended := hopened.onward.memo.ended hresolver (ended_of_reachable hr hresolver)
  have hroot : Path.Ended root.identity.resolved :=
    ended_of_identified hresolver (ended_of_reachable hr hresolver) hopened.identified
  have hseeing : Seeing d h₁.memo h' := hleg.seeing_after hroot (by simp) (by rw [htools, hresolver]) hm hended hrest
  -- the second time
  obtain ⟨r, hr, hraw⟩ := Option.map_eq_some_iff.1 (needsUpdate_eq_false_iff.1 hopened.stored)
  have hstored : h'.store.get? root.path = some r := record_of_walk hm hwalk hr
  obtain ⟨hobserve, hexpand⟩ := hopened.again hall (needsUpdate_eq_false_iff.2 (by rw [hstored, ← hraw]; rfl))
  obtain ⟨g₁, ns, w', g₂, hleg'⟩ :=
    exists_leg (d := d) root.identity root.raw ⟨Graph.empty.addFile root.path, [root.path], []⟩ hseeing.sound
  have hsame' := hleg.identified_again hroot (hseeing.looked hleg' hroot) (hlater.trans hleg'.quiet.toOnward)
  have hscripts : ns.map (·.script) = ms.map (·.script) := by
    rw [hleg'.round.scripts, hleg.round.scripts, hall.tools, hsame', hleg'.quiet.exclusions, hlater.exclusions]
  refine ⟨h₁, h₂, g₁, g₂, root.path, ms, ns, w', limit, ⟨hfirst, hleg'.round.trail, hscripts.symm, ?_, ?_, ?_, hm₁,
    hleg'.quiet.sound hseeing.sound, ?_⟩, ?_, ?_, hleg'.quiet.store, ?_, ?_, ?_, hleg'.round.queue⟩
  · intro m hmet
    obtain ⟨name, -, hi⟩ := hleg.identified hmet
    exact wellFormed_of_identify hm₁ (Action.run_of_answer hi)
  · rw [hleg.quiet.tools, htools, he]
  · rw [hleg'.quiet.tools, hlater.tools]
  · intro key r hkey
    rw [hleg'.quiet.store, hkept hkey]
  · rw [hleg.quiet.tools, htools]
  · intro key hnone
    rw [hleg.quiet.store] at hnone
    exact hopened.kept key hnone
  · rw [hstored]
    exact nofun
  · rw [importsMet, hobserve, hscripts, hleg.round.scripts]
    dsimp only
    rw [hall.tools, hlater.exclusions, hleg.identified_again hroot hseeing hlater]
  · have hlimit' : h'.walkLimit = limit + 1 := (congrArg (·.2.2.2.2.2) hall.setup).trans hlimit
    rw [hexpand, hlimit']
    exact hleg'.next limit

/-- A second expansion of a closure changes nothing if and only if no import is revived. -/
theorem expandClosure_again_iff {h h' : Host SyntaxEngine} (hr : h.Reachable)
    (he : h.tools.engine = SyntaxEngine.engine) (hresolver : h.tools.resolver.resolve = resolveOnDisk) {graph : Graph}
    (hok : expandClosure path origin d h = (.ok graph, h')) :
    ((∃ graph', (expandClosure path origin d h').1 = .ok graph') ∧
        ∀ key, (expandClosure path origin d h').2.store.get? key = h'.store.get? key) ↔
      ∀ i, (importsMet path origin d h').find? (·.normalized == i.normalized) = some i →
        ¬ Revived h.tools.reassembler d h.store h'.store i := by
  obtain ⟨h₁, h₂, g₁, g₂, key, ms, ns, w, limit, ht⟩ := exists_expandedTwice hr he hresolver hok
  have hexpanded := walk_changes_nothing_iff ht.second (ht.second.reached.onward.sound ht.sound') ht.queue limit
  rw [← ht.again] at hexpanded
  simp only [ht.after] at hexpanded
  rw [hexpanded]
  constructor
  · intro hnone i hfind hrevived
    obtain ⟨before, n, after, hns, hbefore, rfl⟩ := ht.find?_eq_some_iff.1 hfind
    have hknown : n.key ∉ [key] := by
      rw [List.mem_singleton]
      rintro rfl
      obtain ⟨-, -, -, -, huntracked, -⟩ := hrevived
      exact ht.tracked huntracked
    have hearlier : discovered d [key] before = [] := by
      rw [hns, discovered_append] at hnone
      exact (List.append_eq_nil_iff.1 hnone).1
    have hsame := ht.second.unchanged hns hearlier
    obtain ⟨r, hr⟩ := ht.exists_record hns hsame
      (ht.start ▸ hrevived.mono (fun _ => id) fun other => (ht.after other).symm)
    rw [ht.second.discovered_eq_nil_iff.1 hnone before n after hns hknown hbefore hsame] at hr
    cases hr
  · intro hnone
    rw [ht.second.discovered_eq_nil_iff]
    intro before n after hns hknown hbefore hsame
    refine Option.eq_none_iff_forall_ne_some.2 fun r hr => ?_
    have hrevived := ht.revived hns hknown hbefore hsame hr
    rw [ht.start] at hrevived
    exact hnone n.script (ht.find?_eq_some_iff.2 ⟨before, n, after, hns, hbefore, rfl⟩)
      (hrevived.mono ht.before ht.after)

/-- Declarations with a mistake in them do not go with their script; when it is imported again, a script that was
imported after it is taken for them. -/
theorem expandClosure_again_iff_of_revived : ∃ (d : Disk) (h h' : Host SyntaxEngine) (graph : Graph) (i : Identity),
    expandClosure "/r/x.ts" none d h = (.ok graph, h') ∧ h'.store.get? "/r/d.ts" = none ∧
    ((expandClosure "/r/x.ts" none d h').2.store.get? "/r/d.ts").isSome = true ∧
    (importsMet "/r/x.ts" none d h').find? (·.normalized == i.normalized) = some i ∧
    Revived h.tools.reassembler d h.store h'.store i := by
  let d := (((Disk.empty.write "/r/x.ts" (.text "import './d.js'\nimport './d-temp'")).write "/r/d.js"
    (.text "1")).write "/r/d.d.ts" (.text "interface \x7b")).write "/r/d-temp.ts" (.text "2")
  let h := fresh ⟨nodeResolver, Merge.typePrelude, SyntaxEngine.engine⟩ SyntaxEngine.fresh "/r"
  have hends : (expandClosure "/r/x.ts" none d h).1.toOption.isSome = true := by decide +kernel
  have hmissing : (expandClosure "/r/x.ts" none d h).2.store.get? "/r/d.ts" = none := by decide +kernel
  have hadded : ((expandClosure "/r/x.ts" none d (expandClosure "/r/x.ts" none d h).2).2.store.get? "/r/d.ts").isSome =
      true := by
    decide +kernel
  have hr : h.Reachable := (unused_fresh ..).reachable
  have he : h.tools.engine = SyntaxEngine.engine := rfl
  have hnode : h.tools.resolver = nodeResolver := rfl
  clear_value d h
  have hresolver : h.tools.resolver.resolve = resolveOnDisk := by rw [hnode, nodeResolver]
  obtain ⟨graph, hgraph⟩ := Option.isSome_iff_exists.1 hends
  have hok := Action.run_of_answer (toOption_eq_some_iff.1 hgraph)
  have hrevived : ¬ ∀ i, (importsMet "/r/x.ts" none d (expandClosure "/r/x.ts" none d h).2).find?
      (·.normalized == i.normalized) = some i →
        ¬ Revived h.tools.reassembler d h.store (expandClosure "/r/x.ts" none d h).2.store i := by
    rw [← expandClosure_again_iff hr he hresolver hok]
    rintro ⟨-, hsame⟩
    rw [hsame, hmissing] at hadded
    cases hadded
  push Not at hrevived
  obtain ⟨i, hfind, hi⟩ := hrevived
  exact ⟨d, h, _, graph, i, hok, hmissing, hadded, hfind, hi⟩

end

end ScriptHost.Host
