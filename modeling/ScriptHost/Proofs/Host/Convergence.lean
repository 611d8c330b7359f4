import ScriptHost.Proofs.Host.Absorption

/-!
# Whether a compiled script and its declarations are caught up with

A compiled script and the declarations beside it change one after the other, and events tell of the changes, perhaps
late.  The record becomes what a fresh host would store if and only if the text of the script was right from the
beginning and did not change, or an event about the script has succeeded after its last change, and what was made of it
was in step with the declarations, or the two have been merged again (`converged_iff`).  If an event about the script
fails because its declarations are broken, the host does not try again when they have been mended (`not_converged`).
-/

namespace ScriptHost.Host

open ScriptHost.Analysis ScriptHost.Path ScriptHost.Resolution

variable {d : Disk} {base : String}

/-! ### Runs of events -/

/-- A run in which nothing happens but events. -/
def tell (trackNew : Bool) (run : List (Disk × Event)) : List (Disk × Operation) :=
  run.map fun (d, event) => (d, .applyEvent trackNew event)

/-- An event succeeds after others. -/
def Succeeds (trackNew : Bool) (h : Host SyntaxEngine) (before : List (Disk × Event)) (x : Disk × Event) : Prop :=
  ∃ outcome, (applyEvent trackNew x.2 x.1 (h.after (tell trackNew before))).1 = .ok outcome

/-- All events are about the two files, and the compiled script is there all the time. -/
def Attended (base : String) (run : List (Disk × Event)) : Prop :=
  ∀ x ∈ run, x.2.About base ∧ ∃ text, x.1.load (base ++ compiledExtension) = .ok text

namespace Watched

variable {n : Nat} {h : Host SyntaxEngine} {r : Record}

private theorem next (hb : Stem base) (hw : Watched base n h) (hn : n + 2 < 2 ^ 63)
    (hr : h.store.get? (base ++ sourceExtension) = some r) {text : String}
    (hload : d.load (base ++ compiledExtension) = .ok text) {event : Event} (habout : event.About base)
    (trackNew : Bool) : Watched base (n + 1) (applyEvent trackNew event d h).2 := by
  have hothers := (hw.absorbs hb hn hr hload habout trackNew).others (base ++ shimEnding)
    fun h => absurd ((String.append_right_inj base).1 h) (by decide)
  have hadmitted : (Operation.applyEvent trackNew event).Admitted EngineKey := trivial
  obtain ⟨k, hk, hsteps⟩ := Operation.steps admitsAll_engineKey hadmitted d hw.sound
  exact hw.of_steps hb (Disk.isFile_of_load hload) hsteps hk hn (hothers.trans hw.shim)

/-- All that a run of events tells is absorbed, one after the other. -/
private theorem run (hb : Stem base) (hw : Watched base n h) (hr : h.store.get? (base ++ sourceExtension) = some r)
    {run : List (Disk × Event)} (hrun : Attended base run) (hn : n + run.length + 2 < 2 ^ 63) (trackNew : Bool) :
    Watched base (n + run.length) (h.after (tell trackNew run)) ∧
      ∃ r', (h.after (tell trackNew run)).store.get? (base ++ sourceExtension) = some r' ∧
        textsOf r' = Pair.final (mergePair h.tools.reassembler base) (textsOf r) (run.map (moment base)) := by
  induction run generalizing n h r with
  | nil => exact ⟨hw, r, hr, rfl⟩
  | cons x rest ih =>
    obtain ⟨d, event⟩ := x
    obtain ⟨⟨habout, text, hload⟩, hrest⟩ := List.forall_mem_cons.1 hrun
    rw [List.length_cons] at hn ⊢
    have habsorbs := hw.absorbs hb (by omega) hr hload habout trackNew
    obtain ⟨r₁, hr₁, hnext⟩ := habsorbs.record
    have htools : (applyEvent trackNew event d h).2.tools = h.tools :=
      tools_after hw.sound [(d, .applyEvent trackNew event)]
    have hlater := ih (hw.next hb (by omega) hr hload habout trackNew) hr₁ hrest (by omega)
    rw [htools, hnext] at hlater
    rw [Nat.add_comm rest.length, ← Nat.add_assoc]
    exact hlater

private theorem succeeds_iff (hb : Stem base) (hw : Watched base n h)
    (hr : h.store.get? (base ++ sourceExtension) = some r) {before after : List (Disk × Event)} {x : Disk × Event}
    (hrun : Attended base (before ++ x :: after)) (hn : n + (before ++ x :: after).length + 2 < 2 ^ 63)
    (trackNew : Bool) :
    Succeeds trackNew h before x ↔ (Pair.absorb (mergePair h.tools.reassembler base) (moment base x)
      (Pair.final (mergePair h.tools.reassembler base) (textsOf r) (before.map (moment base)))).isSome = true := by
  obtain ⟨d, event⟩ := x
  obtain ⟨hbefore, hrest⟩ := List.forall_mem_append.1 hrun
  obtain ⟨⟨habout, text, hload⟩, -⟩ := List.forall_mem_cons.1 hrest
  rw [List.length_append, List.length_cons] at hn
  obtain ⟨hw₁, r₁, hr₁, htexts⟩ := hw.run hb hr hbefore (by omega) trackNew
  have hanswered := (hw₁.absorbs hb (by omega) hr₁ hload habout trackNew).answered
  rw [tools_after hw.sound, htexts] at hanswered
  rw [Succeeds, ← Option.ne_none_iff_isSome, Ne, ← not_congr hanswered]
  dsimp only
  cases (applyEvent trackNew event d (h.after (tell trackNew before))).1 with
  | error e => exact ⟨nofun, fun h => absurd rfl h⟩
  | ok outcome => exact ⟨fun _ => nofun, fun _ => ⟨outcome, rfl⟩⟩

end Watched

/-! ### What is told of the changes -/

/-- Whenever what is seen of a file changes, an event tells of it then or later. -/
def Announced {α : Type} (base : String) (subject : Pair.Subject) (seen : Disk → α) :
    Disk → List (Disk × Event) → Prop
  | _, [] => True
  | d, x :: rest =>
    (seen x.1 ≠ seen d → ∃ y ∈ x :: rest, told? base x.1 y.2 = some subject) ∧
      Announced base subject seen x.1 rest

/-- The disk in the end. -/
def endOf (d : Disk) (run : List (Disk × Event)) : Disk := run.foldl (fun _ x => x.1) d

/-- What is announced of the script is told. -/
private theorem told_script {d₀ : Disk} {run : List (Disk × Event)}
    (ha : Announced base .script (·.load (base ++ compiledExtension)) d₀ run) :
    Pair.Told Pair.Moment.text .script (textOn base d₀) (run.map (moment base)) := by
  induction run generalizing d₀ with
  | nil => trivial
  | cons x rest ih =>
    obtain ⟨hnow, hlater⟩ := ha
    refine ⟨fun hchange => ?_, ih hlater⟩
    obtain ⟨y, hy, hyt⟩ := hnow fun heq => hchange (congrArg (fun text => text.toOption.getD "") heq)
    exact ⟨moment base y, List.mem_map_of_mem hy, told?_script_iff.2 (told?_script_iff.1 hyt)⟩

/-- What is announced of the declarations is told, unless they change again; then that is announced. -/
private theorem told_declarations {d₀ : Disk} {run : List (Disk × Event)}
    (ha : Announced base .declarations (declarationsOn base) d₀ run) :
    Pair.Told Pair.Moment.declarations .declarations (declarationsOn base d₀) (run.map (moment base)) := by
  induction run generalizing d₀ with
  | nil => trivial
  | cons x rest ih =>
    obtain ⟨hnow, hlater⟩ := ha
    refine ⟨fun hchange => ?_, ih hlater⟩
    obtain ⟨y, hy, hyt⟩ := hnow hchange
    have hmem : moment base y ∈ (x :: rest).map (moment base) := List.mem_map_of_mem hy
    rcases told?_declarations_iff.1 hyt with hremoved | ⟨hfile, hevent⟩
    · exact ⟨_, hmem, told?_declarations_iff.2 (.inl hremoved)⟩
    · cases hthen : y.1.isFile (base ++ declarationExtension) with
      | true => exact ⟨_, hmem, told?_declarations_iff.2 (.inr ⟨hthen, hevent⟩)⟩
      | false =>
        have hgone : declarationsOn base y.1 ≠ declarationsOn base x.1 := by
          rw [isFile_eq_isSome_read] at hfile hthen
          intro heq
          unfold declarationsOn at heq
          rw [heq, hfile] at hthen
          cases hthen
        have hlate : moment base y ∈ rest.map (moment base) := by
          rcases List.mem_cons.1 hy with rfl | hy
          · exact absurd rfl hgone
          · exact List.mem_map_of_mem hy
        obtain ⟨z, hz, hzt⟩ := Pair.told_of_change (ih hlater) ⟨_, hlate, hgone⟩
        exact ⟨z, List.mem_cons_of_mem _ hz, hzt⟩

/-! ### What a run of events comes to -/

/-- After the last change of the compiled script, an event about it has succeeded. -/
def CaughtUp (base : String) (trackNew : Bool) (h : Host SyntaxEngine) (run : List (Disk × Event)) : Prop :=
  ∃ before x after, run = before ++ x :: after ∧ told? base x.1 x.2 = some .script ∧ Succeeds trackNew h before x ∧
    ∀ y ∈ after, y.1.load (base ++ compiledExtension) = x.1.load (base ++ compiledExtension)

/-- An event has been about the declarations, or one about the compiled script has succeeded with a text that was
news. -/
def Remerged (base : String) (trackNew : Bool) (h : Host SyntaxEngine) (run : List (Disk × Event)) : Prop :=
  ∃ before x after, run = before ++ x :: after ∧ (told? base x.1 x.2 = some .declarations ∨
    (told? base x.1 x.2 = some .script ∧ (∃ text, x.1.load (base ++ compiledExtension) = .ok text ∧
      (h.after (tell trackNew before)).store.needsUpdate (base ++ sourceExtension) text = true) ∧
      Succeeds trackNew h before x))

private theorem exists_split_map {α β : Type} {f : α → β} {P : List β → β → List β → Prop} {l : List α} :
    (∃ before x after, l.map f = before ++ x :: after ∧ P before x after) ↔
      ∃ before x after, l = before ++ x :: after ∧ P (before.map f) (f x) (after.map f) := by
  constructor
  · rintro ⟨before, x, after, heq, hP⟩
    obtain ⟨before, rest, rfl, rfl, hrest⟩ := List.map_eq_append_iff.1 heq
    obtain ⟨x, after, rfl, rfl, rfl⟩ := List.map_eq_cons_iff.1 hrest
    exact ⟨before, x, after, rfl, hP⟩
  · rintro ⟨before, x, after, rfl, hP⟩
    exact ⟨before.map f, f x, after.map f, by rw [List.map_append, List.map_cons], hP⟩

private theorem steady_iff {d₀ : Disk} {text : String} (hload : d₀.load (base ++ compiledExtension) = .ok text)
    {run : List (Disk × Event)} (hrun : Attended base run) : Pair.Steady text (run.map (moment base)) ↔
      ∀ x ∈ run, x.1.load (base ++ compiledExtension) = d₀.load (base ++ compiledExtension) := by
  refine List.forall_mem_map.trans (forall₂_congr fun x hx => ?_)
  obtain ⟨-, text', hload'⟩ := hrun x hx
  rw [hload, hload', Except.ok.injEq, ← textOn_of_load hload']
  rfl

namespace Watched

variable {n : Nat} {h : Host SyntaxEngine} {r : Record} {run : List (Disk × Event)}

private theorem caught_iff (hb : Stem base) (hw : Watched base n h)
    (hr : h.store.get? (base ++ sourceExtension) = some r)
    (hrun : Attended base run) (hn : n + run.length + 2 < 2 ^ 63) (trackNew : Bool) :
    Pair.Caught (mergePair h.tools.reassembler base) (textsOf r) (run.map (moment base)) ↔
      CaughtUp base trackNew h run := by
  unfold Pair.Caught CaughtUp
  rw [exists_split_map]
  refine exists_congr fun before => exists_congr fun x => exists_congr fun after => and_congr_right fun hsplit => ?_
  subst hsplit
  obtain ⟨-, hrest⟩ := List.forall_mem_append.1 hrun
  obtain ⟨⟨-, text, hload⟩, hafter⟩ := List.forall_mem_cons.1 hrest
  rw [hw.succeeds_iff hb hr hrun hn, show (moment base x).text = text from textOn_of_load hload, steady_iff hload hafter]
  rfl

private theorem remerged_iff (hb : Stem base) (hw : Watched base n h)
    (hr : h.store.get? (base ++ sourceExtension) = some r)
    (hrun : Attended base run) (hn : n + run.length + 2 < 2 ^ 63) (trackNew : Bool) :
    Pair.Remerged (mergePair h.tools.reassembler base) (textsOf r) (run.map (moment base)) ↔
      Remerged base trackNew h run := by
  unfold Pair.Remerged Remerged
  rw [exists_split_map]
  refine exists_congr fun before => exists_congr fun x => exists_congr fun after => and_congr_right fun hsplit => ?_
  subst hsplit
  obtain ⟨hbefore, hrest⟩ := List.forall_mem_append.1 hrun
  obtain ⟨⟨-, text, hload⟩, -⟩ := List.forall_mem_cons.1 hrest
  rw [List.length_append, List.length_cons] at hn
  obtain ⟨-, r₁, hr₁, htexts⟩ := hw.run hb hr hbefore (by omega) trackNew
  rw [hw.succeeds_iff hb hr hrun (by simpa using hn), hload]
  unfold Pair.Merges
  rw [show (moment base x).text = text from textOn_of_load hload, ← htexts]
  have hnews : text ≠ (textsOf r₁).raw ↔ ∃ text', (Except.ok text : Except LoadError String) = .ok text' ∧
      (h.after (tell trackNew before)).store.needsUpdate (base ++ sourceExtension) text' = true := by
    simp only [Except.ok.injEq, exists_eq_left', needsUpdate_of_tracked hr₁, Bool.not_eq_true',
      decide_eq_false_iff_not]
    exact ne_comm
  rw [hnews]
  rfl

end Watched

/-! ### A fresh host -/

/-- The record that a fresh host stores for the compiled script. -/
def freshRecord? (base : String) (d : Disk) (h : Host SyntaxEngine) : Option Record :=
  (addFile { path := base ++ compiledExtension } d (fresh h.tools .fresh h.directory)).2.store.get?
    (base ++ sourceExtension)

private theorem watched_of_unused {h : Host SyntaxEngine} (hu : h.Unused) (he : h.tools.engine = SyntaxEngine.engine)
    (hs : h.engineState = .fresh) (hr : h.tools.resolver = nodeResolver) : Watched base 0 h := by
  have hlen : ([] : List (Disk × Operation)).length + 1 < 2 ^ 63 := by decide
  have hup : UpToDate 0 h := upToDate_after hu he hs hlen
  have hnone : ∀ i, h.memo.found.get? (Memo.key (base ++ compiledExtension) h.directory) = some i →
      i = .ofResolved (base ++ compiledExtension) := by
    rw [hu.memo]
    exact nofun
  exact ⟨hup, hu.sound, storedIn_after admitsAll_engineKey hu (List.forall_mem_nil _), hr, hnone, by rw [hu.store]; rfl⟩

/-- A fresh host stores what is made of both files. -/
private theorem freshRecord?_content (hb : Stem base) {h : Host SyntaxEngine}
    (he : h.tools.engine = SyntaxEngine.engine)
    (hr : h.tools.resolver = nodeResolver) {text : String} (hload : d.load (base ++ compiledExtension) = .ok text) :
    (freshRecord? base d h).map (·.content) = mergePair h.tools.reassembler base text (declarationsOn base d) := by
  let h' : Host SyntaxEngine := fresh h.tools .fresh h.directory
  let i : Identity := .ofResolved (base ++ compiledExtension)
  have hw : Watched base 0 h' := watched_of_unused (unused_fresh ..) he rfl hr
  have hi : (identify (base ++ compiledExtension) none d h').1 = .ok i := hw.identify hb (Disk.isFile_of_load hload)
  have hnormalized : i.normalized = base ++ sourceExtension := normalized_compiled hb
  have hseen : seenText h'.store d i none = .ok text := by
    have hload' : seenText h'.store d i none = (d.load (fileOf i)).mapError .load := seenText_of_untracked rfl d
    rw [show fileOf i = base ++ compiledExtension from rfl, hload] at hload'
    exact hload'
  have hmerge : (mergedContent (observedText i text h') d h').1.toOption = _ :=
    hw.mergedContent_toOption hb d text (h'.store.needsUpdate i.normalized text)
  have hstores := addFile_stores (r := { path := base ++ compiledExtension }) hw.sound hi rfl hseen
    (base ++ sourceExtension)
  have hnews : (observedText i text h').needsUpdate = true := rfl
  rw [if_pos hnormalized.symm, Observation.record?, hnews, if_pos rfl, hmerge] at hstores
  unfold freshRecord?
  rw [hstores, show h'.store.get? (base ++ sourceExtension) = none from rfl, Option.or_none, Option.map_map]
  exact Option.map_id'

/-! ### Convergence -/

/-- A compiled script is tracked, and nothing in the place of the declarations beside it. -/
structure Paired (base : String) (d : Disk) (h : Host SyntaxEngine) (r : Record) : Prop where
  stem : Stem base
  present : ∃ text, d.load (base ++ compiledExtension) = .ok text
  itself : (identify (base ++ compiledExtension) none d h).1 = .ok (.ofResolved (base ++ compiledExtension))
  tracked : h.store.get? (base ++ sourceExtension) = some r
  shim : h.store.get? (base ++ shimEnding) = none

/-- The text that was read is that of the compiled script, and what was made of it is what a fresh host makes of it. -/
def Converged (base : String) (d : Disk) (h : Host SyntaxEngine) : Prop :=
  ∃ r r', h.store.get? (base ++ sourceExtension) = some r ∧ freshRecord? base d h = some r' ∧
    d.load (base ++ compiledExtension) = .ok r.rawContent ∧ r.content = r'.content

private theorem Paired.watched {n : Nat} {d : Disk} {h : Host SyntaxEngine} {r : Record} (hp : Paired base d h r)
    (hu : UpToDate n h) (hm : h.memo.Sound) (hkeys : StoredIn EngineKey h.store)
    (hr : h.tools.resolver = nodeResolver) : Watched base n h := by
  refine ⟨hu, hm, hkeys, hr, fun i hi => ?_, hp.shim⟩
  have hitself := hp.itself
  rw [identify_run, Memo.resolve_answer, Option.getD_none, hi] at hitself
  exact Except.ok.inj hitself

private theorem load_endOf {d₀ : Disk} (hpresent : ∃ text, d₀.load (base ++ compiledExtension) = .ok text)
    {run : List (Disk × Event)} (hrun : Attended base run) :
    ∃ text, (endOf d₀ run).load (base ++ compiledExtension) = .ok text := by
  induction run generalizing d₀ with
  | nil => exact hpresent
  | cons x rest ih =>
    obtain ⟨⟨-, hload⟩, hrest⟩ := List.forall_mem_cons.1 hrun
    exact ih hload hrest

private theorem last_text {d₀ : Disk} {run : List (Disk × Event)} :
    Pair.last Pair.Moment.text (textOn base d₀) (run.map (moment base)) = textOn base (endOf d₀ run) := by
  induction run generalizing d₀ with
  | nil => rfl
  | cons x rest ih => exact ih

private theorem last_declarations {d₀ : Disk} {run : List (Disk × Event)} :
    Pair.last Pair.Moment.declarations (declarationsOn base d₀) (run.map (moment base)) =
      declarationsOn base (endOf d₀ run) := by
  induction run generalizing d₀ with
  | nil => rfl
  | cons x rest ih => exact ih

/-- Nothing would be stored if the script were merged again if and only if what is stored is in step with the
declarations. -/
private theorem Watched.refreshed?_eq_none_iff {n : Nat} {h : Host SyntaxEngine} {r : Record} (hb : Stem base)
    (hw : Watched base n h) (hr : h.store.get? (base ++ sourceExtension) = some r) :
    refreshed? (.ofResolved (base ++ compiledExtension)) d h = none ↔
      Pair.InStep (mergePair h.tools.reassembler base) (declarationsOn base d) (textsOf r) := by
  rw [hw.refreshed?_eq hb hr, Option.bind_eq_none_iff]
  refine forall₂_congr fun content _ => ?_
  by_cases hcontent : content = r.content
  · simp [hcontent, textsOf]
  · simp [hcontent, textsOf, Ne.symm hcontent]

/-- In the end, a host has what a fresh one would have if and only if both texts are those of the files. -/
private theorem converged_iff_texts {d : Disk} {h : Host SyntaxEngine} {r : Record}
    (hr : h.store.get? (base ++ sourceExtension) = some r) {text : String}
    (hload : d.load (base ++ compiledExtension) = .ok text) {r' : Record} (hfresh : freshRecord? base d h = some r') :
    Converged base d h ↔ textsOf r = ⟨text, r'.content⟩ := by
  unfold Converged textsOf
  rw [hr, hfresh, hload]
  simp only [Option.some.injEq, exists_and_left, exists_eq_left', Except.ok.injEq, Pair.Texts.mk.injEq]
  exact and_congr_left' eq_comm

/-- Let a compiled script be tracked and let events tell of every change of it and its declarations, then or later, while
both files change.  If the two go together in the end, the host has what a fresh one would have if and only if two
things hold.  The text that had been read was that of the script, which does not change, or an event about the script
has succeeded after its last change.  And what was stored was in step with the declarations, or the script has been
merged again. -/
theorem converged_iff {h₀ : Host SyntaxEngine} (hu : h₀.Unused) (he : h₀.tools.engine = SyntaxEngine.engine)
    (hs : h₀.engineState = .fresh) (hr : h₀.tools.resolver = nodeResolver) {earlier : List (Disk × Operation)}
    (hearlier : ∀ x ∈ earlier, x.2.Admitted EngineKey) {base : String} {d₀ : Disk} {r : Record}
    (hp : Paired base d₀ (h₀.after earlier) r) {run : List (Disk × Event)}
    (hlen : earlier.length + run.length + 2 < 2 ^ 63) (hrun : Attended base run)
    (hscript : Announced base .script (·.load (base ++ compiledExtension)) d₀ run)
    (hdeclarations : Announced base .declarations (declarationsOn base) d₀ run)
    (hfresh : (freshRecord? base (endOf d₀ run) (h₀.after earlier)).isSome = true) (trackNew : Bool) :
    Converged base (endOf d₀ run) ((h₀.after earlier).after (tell trackNew run)) ↔
      ((d₀.load (base ++ compiledExtension) = .ok r.rawContent ∧
          ∀ x ∈ run, x.1.load (base ++ compiledExtension) = d₀.load (base ++ compiledExtension)) ∨
        CaughtUp base trackNew (h₀.after earlier) run) ∧
      (refreshed? (.ofResolved (base ++ compiledExtension)) d₀ (h₀.after earlier) = none ∨
        Remerged base trackNew (h₀.after earlier) run) := by
  have hb := hp.stem
  have htools := tools_after hu.sound earlier
  have hw : Watched base earlier.length (h₀.after earlier) :=
    hp.watched (upToDate_after hu he hs (by omega)) (sound_after hu.sound earlier)
      (storedIn_after admitsAll_engineKey hu hearlier) (htools ▸ hr)
  obtain ⟨text₀, hload₀⟩ := hp.present
  obtain ⟨text, hload⟩ := load_endOf hp.present hrun
  obtain ⟨hw', r', hr', htexts⟩ := hw.run hb hp.tracked hrun hlen trackNew
  obtain ⟨fresh₁, hfresh₁⟩ := Option.isSome_iff_exists.1 hfresh
  have hafter : ((h₀.after earlier).after (tell trackNew run)).tools = (h₀.after earlier).tools :=
    tools_after hw.sound (tell trackNew run)
  -- what a fresh host stores does not depend on how the run has gone
  have hmerge := freshRecord?_content (d := endOf d₀ run) hb hw.upToDate.engine hw.resolver hload
  have hmerge' := freshRecord?_content (d := endOf d₀ run) hb hw'.upToDate.engine hw'.resolver hload
  rw [hfresh₁, Option.map_some] at hmerge
  rw [hafter, ← hmerge] at hmerge'
  obtain ⟨fresh₂, hfresh₂, hcontent⟩ := Option.map_eq_some_iff.1 hmerge'
  rw [converged_iff_texts hr' hload hfresh₂, htexts, hcontent]
  rw [← textOn_of_load hload, ← last_text, ← last_declarations] at hmerge
  have hpair := Pair.converges_iff (s := textsOf r) (told_script hscript) (told_declarations hdeclarations) hmerge.symm
  rw [last_text, textOn_of_load hload, textOn_of_load hload₀, steady_iff hload₀ hrun] at hpair
  have hstart : d₀.load (base ++ compiledExtension) = .ok r.rawContent ↔ (textsOf r).raw = text₀ := by
    rw [hload₀, Except.ok.injEq]
    exact eq_comm
  rw [hpair, ← hw.caught_iff hb hp.tracked hrun hlen, ← hw.remerged_iff hb hp.tracked hrun hlen,
    hw.refreshed?_eq_none_iff hb hp.tracked, hstart, and_comm (b := (textsOf r).raw = text₀)]

/-! ### Declarations that are broken for a while -/

/-- A host that tracks nothing yet. -/
def loneHost : Host SyntaxEngine :=
  fresh ⟨nodeResolver, Merge.typePrelude, SyntaxEngine.engine⟩ SyntaxEngine.fresh "/r"

/-- A compiled script without declarations. -/
def loneDisk : Disk := Disk.empty.write "/r/a.js" (.text "1")

/-- The script is added. -/
def loneRun : List (Disk × Operation) := [(loneDisk, .addFile { path := "/r/a.js" })]

/-- The script has another text and declarations with a syntax error. -/
def brokenDisk : Disk := (loneDisk.write "/r/a.js" (.text "2")).write "/r/a.d.ts" (.text ")")

/-- The declarations have been mended. -/
def mendedDisk : Disk := brokenDisk.write "/r/a.d.ts" (.text "type A = 3")

private theorem paired_lone : Paired "/r/a" loneDisk (loneHost.after loneRun) ⟨1, "1", "1"⟩ where
  stem :=
    { canonical := ⟨["a", "r"], by unfold Named; decide, by decide⟩
      last := ⟨'a', ['/', 'r', '/'], by decide +kernel, by decide, by decide⟩ }
  present := ⟨"1", by decide +kernel⟩
  itself := by decide +kernel
  tracked := by decide +kernel
  shim := by decide +kernel

/-- An event about the script comes while its declarations are broken, and one about the declarations, and another one,
when they have been mended. -/
def mendedRun (path : String) : List (Disk × Event) :=
  [(brokenDisk, .modified "/r/a.js"), (mendedDisk, .created "/r/a.d.ts"), (mendedDisk, .modified path)]

private theorem attended_mendedRun {path : String} (hp : path = "/r/a.js" ∨ path = "/r/a.d.ts") :
    Attended "/r/a" (mendedRun path) := by
  have hbroken : brokenDisk.load "/r/a.js" = .ok "2" := by decide +kernel
  have hmended : mendedDisk.load "/r/a.js" = .ok "2" := by decide +kernel
  rw [mendedRun, Attended, List.forall_mem_cons, List.forall_mem_cons, List.forall_mem_singleton]
  exact ⟨⟨.inl rfl, "2", hbroken⟩, ⟨.inr rfl, "2", hmended⟩, hp, "2", hmended⟩

private theorem announced_script (path : String) :
    Announced "/r/a" .script (·.load ("/r/a" ++ compiledExtension)) loneDisk (mendedRun path) := by
  refine ⟨fun _ => ⟨(brokenDisk, .modified "/r/a.js"), List.mem_cons_self, by decide⟩, fun h => absurd ?_ h,
    fun h => absurd rfl h, trivial⟩
  show mendedDisk.load "/r/a.js" = brokenDisk.load "/r/a.js"
  decide +kernel

private theorem announced_declarations (path : String) :
    Announced "/r/a" .declarations (declarationsOn "/r/a") loneDisk (mendedRun path) := by
  have hmended : (mendedDisk, Event.created "/r/a.d.ts") ∈ mendedRun path := by simp [mendedRun]
  exact ⟨fun _ => ⟨_, hmended, by decide +kernel⟩, fun _ => ⟨_, List.mem_cons_self, by decide +kernel⟩,
    fun h => absurd rfl h, trivial⟩

private theorem admitted_loneRun : ∀ x ∈ loneRun, x.2.Admitted EngineKey := by
  rw [loneRun, List.forall_mem_singleton]
  trivial

private theorem freshRecord?_mended (path : String) :
    (freshRecord? "/r/a" (endOf loneDisk (mendedRun path)) (loneHost.after loneRun)).isSome = true := by
  show (freshRecord? "/r/a" mendedDisk (loneHost.after loneRun)).isSome = true
  decide +kernel

/-- If every change of the two files is told, a host need not have what a fresh one would have: an event about the
script has failed because its declarations were broken, and when these have been mended, the old text is merged with
them. -/
theorem not_converged : ¬ ∀ (h₀ : Host SyntaxEngine), h₀.Unused → h₀.tools.engine = SyntaxEngine.engine →
    h₀.engineState = .fresh → h₀.tools.resolver = nodeResolver → ∀ earlier : List (Disk × Operation),
    (∀ x ∈ earlier, x.2.Admitted EngineKey) → ∀ (base : String) (d₀ : Disk) (r : Record),
    Paired base d₀ (h₀.after earlier) r → ∀ run : List (Disk × Event),
    earlier.length + run.length + 2 < 2 ^ 63 → Attended base run →
    Announced base .script (·.load (base ++ compiledExtension)) d₀ run →
    Announced base .declarations (declarationsOn base) d₀ run →
    (freshRecord? base (endOf d₀ run) (h₀.after earlier)).isSome = true → ∀ trackNew : Bool,
    Converged base (endOf d₀ run) ((h₀.after earlier).after (tell trackNew run)) := by
  intro hall
  have hlen : loneRun.length + (mendedRun "/r/a.d.ts").length + 2 < 2 ^ 63 := by decide
  obtain ⟨r, r', hr, -, hload, -⟩ : Converged "/r/a" mendedDisk
      ((loneHost.after loneRun).after (tell false (mendedRun "/r/a.d.ts"))) :=
    hall loneHost (unused_fresh ..) rfl rfl rfl loneRun admitted_loneRun "/r/a" loneDisk _ paired_lone
      (mendedRun "/r/a.d.ts") hlen (attended_mendedRun (.inr rfl)) (announced_script _) (announced_declarations _)
      (freshRecord?_mended _) false
  have hkept : (((loneHost.after loneRun).after (tell false (mendedRun "/r/a.d.ts"))).store.get?
      ("/r/a" ++ sourceExtension)).map (·.rawContent) = some "1" := by
    decide +kernel
  have hread : mendedDisk.load ("/r/a" ++ compiledExtension) = .ok "2" := by decide +kernel
  rw [hr, Option.map_some, Option.some.injEq] at hkept
  rw [hread, Except.ok.injEq, hkept] at hload
  exact absurd hload (by decide)

/-- If another event about the script comes when its declarations have been mended, its new text is read. -/
theorem converged_of_mended :
    Converged "/r/a" (endOf loneDisk (mendedRun "/r/a.js"))
      ((loneHost.after loneRun).after (tell false (mendedRun "/r/a.js"))) ∧
    CaughtUp "/r/a" false (loneHost.after loneRun) (mendedRun "/r/a.js") ∧
    Remerged "/r/a" false (loneHost.after loneRun) (mendedRun "/r/a.js") := by
  have hmended : mendedRun "/r/a.js" =
      (mendedRun "/r/a.js").take 2 ++ (mendedDisk, .modified "/r/a.js") :: [] := rfl
  have hsucceeds : Succeeds false (loneHost.after loneRun) ((mendedRun "/r/a.js").take 2)
      (mendedDisk, .modified "/r/a.js") :=
    ⟨.updated "/r/a.js" 3, by decide +kernel⟩
  have hcaught : CaughtUp "/r/a" false (loneHost.after loneRun) (mendedRun "/r/a.js") :=
    ⟨_, _, [], hmended, by decide +kernel, hsucceeds, List.forall_mem_nil _⟩
  have hremerged : Remerged "/r/a" false (loneHost.after loneRun) (mendedRun "/r/a.js") :=
    ⟨[(brokenDisk, .modified "/r/a.js")], (mendedDisk, .created "/r/a.d.ts"), _, rfl, .inl (by decide +kernel)⟩
  have hunused : loneHost.Unused := unused_fresh ..
  have hlen : loneRun.length + (mendedRun "/r/a.js").length + 2 < 2 ^ 63 := by decide
  have hiff := converged_iff hunused rfl rfl rfl admitted_loneRun paired_lone hlen (attended_mendedRun (.inl rfl))
    (announced_script _) (announced_declarations _) (freshRecord?_mended _) false
  exact ⟨hiff.2 ⟨.inr hcaught, .inr hremerged⟩, hcaught, hremerged⟩

end ScriptHost.Host
