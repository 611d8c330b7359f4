import ScriptHost.Proofs.Host.Adding
import ScriptHost.Proofs.Host.Addition
import ScriptHost.Proofs.Host.Merge
import ScriptHost.Proofs.Host.Record

/-!
# Merging with declarations again

When a script is merged with its declarations again, its own text stays, and what engines see of it becomes what the
merge gives now; only if that is another text does the script get its next version (`MergedAgain`).  No other record
changes.  Doing it twice is doing it once (`refreshDeclarations_idempotent`), for what the merge gives does not depend
on the record of the script: the engine is shown another one in its place (`contentOf_congr`).  It must only forget what
it is told to forget, as the syntax engine does (`forgetful_syntaxEngine`).
-/

namespace ScriptHost

open ScriptHost.Analysis ScriptHost.Path ScriptHost.Text

/-! ### Views -/

private theorem Store.paths_congr {s s' : Store} (hs : ∀ key, s'.get? key = s.get? key) : s'.paths = s.paths := by
  have hkeys : s'.keys.Perm s.keys := by
    refine (List.perm_ext_iff_of_nodup s'.keys_nodup s.keys_nodup).2 fun key => ?_
    show key ∈ s'.keys ↔ key ∈ s.keys
    rw [Table.mem_keys_iff, Table.mem_keys_iff, hs]
  exact List.Perm.eq_of_pairwise (fun _ _ _ _ => String.le_antisymm) s'.pairwise_paths s.pairwise_paths
    (s'.perm_paths.trans (hkeys.trans s.perm_paths.symm))

namespace Host

variable {σ : Type} {d : Disk}

/-- An engine sees the records, and not how they are kept. -/
private theorem viewOf_congr {s s' : Store} (hs : ∀ key, s'.get? key = s.get? key) : viewOf s' = viewOf s := by
  have hversion : s'.version = s.version := by
    funext key
    rw [Store.version, hs, Store.version]
  have hsnapshot : (fun key => (s'.get? key).map (·.content)) = fun key => (s.get? key).map (·.content) := by
    funext key
    rw [hs]
  rw [viewOf, Store.paths_congr hs, hversion, hsnapshot, viewOf]

/-- An engine that forgets what it is told to forget: what it reads in two scripts then does not depend on what it knew
before. -/
def Forgetful (engine : Engine σ) : Prop :=
  ∀ view {first second}, second ≠ first → ∀ s s',
    (readBoth engine view first second (releaseBoth engine first second s)).1 =
      (readBoth engine view first second (releaseBoth engine first second s')).1

theorem forgetful_syntaxEngine : Forgetful SyntaxEngine.engine := by
  intro view first second hne s s'
  rw [readBoth_of_released view hne, readBoth_of_released view hne]

/-! ### What a merge depends on -/

section

variable {i : Identity} {h h' : Host σ}

private theorem mergeAnswer_congr {declaration : String} (hne : shimPath declaration ≠ i.normalized)
    (htools : h'.tools = h.tools) (hf : Forgetful h.tools.engine)
    (hothers : ∀ key, key ≠ i.normalized → h'.store.get? key = h.store.get? key) (text : String) :
    mergeAnswer (observedText i text h') declaration d h' = mergeAnswer (observedText i text h) declaration d h := by
  have hseen : seenText h'.store d (.shim (shimPath declaration)) none =
      seenText h.store d (.shim (shimPath declaration)) none := by
    unfold seenText
    rw [show h'.store.get? (Identity.shim (shimPath declaration)).normalized = _ from hothers _ hne]
  unfold mergeAnswer
  dsimp only
  rw [hseen, htools]
  refine congrArg _ (funext fun declarations => ?_)
  -- the record of the script is a lent one before and after, so the engine is shown the same
  have hview : ∀ key, (lentStore h'.store i.normalized text (shimPath declaration) declarations).get? key =
      (lentStore h.store i.normalized text (shimPath declaration) declarations).get? key := by
    intro key
    unfold lentStore
    by_cases hkey : key = i.normalized
    · simp [hkey, hne.symm]
    · simp [hkey, hothers key hkey]
  show combined _ _ _ (readBoth h.tools.engine (viewOf (lentStore h'.store i.normalized text _ _)) i.normalized _
    (releaseBoth _ i.normalized _ _)).1 = _
  rw [viewOf_congr hview, hf _ hne h'.engineState h.engineState]
  rfl

/-- What engines are to see of a script does not depend on the record of that script, nor on what a forgetful engine
knows. -/
theorem contentOf_congr (hi : i.WellFormed) (htools : h'.tools = h.tools) (hf : Forgetful h.tools.engine)
    (hothers : ∀ key, key ≠ i.normalized → h'.store.get? key = h.store.get? key) (text : String) :
    contentOf i text d h' = contentOf i text d h := by
  unfold contentOf
  dsimp only
  by_cases hmerged : hasTail compiledExtension i.resolved = true ∧
      d.isFile (clearExtension i.resolved ++ declarationExtension) = true
  · have hne : shimPath (clearExtension i.resolved ++ declarationExtension) ≠ i.normalized :=
      hi.shimPath_ne ((isCompiled_iff hi).2 hmerged.1)
    rw [if_pos hmerged, if_pos hmerged]
    exact mergeAnswer_congr hne htools hf hothers text
  · rw [if_neg hmerged, if_neg hmerged]

end

/-! ### Merging again -/

/-- A tracked script is merged again; another text than before is stored for it. -/
private theorem refreshDeclarations_eq {name : String} {h : Host σ} {i : Identity} (hm : h.memo.Sound)
    (hi : (identify name none d h).1 = .ok i) : ∃ h₁, Quiet d h h₁ ∧ refreshDeclarations name d h =
      match h.store.get? i.normalized with
      | none => (.ok false, h₁)
      | some stored =>
        match contentOf i stored.rawContent d h with
        | .error e => (.error e, h₁)
        | .ok content =>
          if content = stored.content then (.ok false, h₁)
          else (.ok true, { h₁ with store := h₁.store.commit i.normalized stored.rawContent content }) := by
  obtain ⟨h₁, hquiet, hrun⟩ := refreshDeclarations_run hm hi
  refine ⟨h₁, hquiet, hrun.trans ?_⟩
  cases hs : h.store.get? i.normalized with
  | none => rfl
  | some stored =>
    have hold : h.store.needsUpdate i.normalized stored.rawContent = false := by
      rw [needsUpdate_eq_false_iff, hs]
      rfl
    have hcontent : (mergedContent (observedText i stored.rawContent h) d h).1 = contentOf i stored.rawContent d h :=
      mergedContent_eq_contentOf (wellFormed_of_identify hm (Action.run_of_answer hi)) hm
    rw [observedText, hold] at hcontent
    dsimp only
    generalize (mergedContent ⟨i, stored.rawContent, false⟩ d h).1 = answer at hcontent ⊢
    subst hcontent
    rfl

/-- What has become of the records when a script has been merged with its declarations again, where `changed` says
whether that made a difference. -/
structure MergedAgain (i : Identity) (d : Disk) (h : Host σ) (changed : Bool) (after : Store) : Prop where
  untracked : h.store.get? i.normalized = none → changed = false ∧ after.get? i.normalized = none
  /-- A tracked script keeps its own text and gets the merged one; its next version, if that is another one. -/
  tracked : ∀ stored, h.store.get? i.normalized = some stored → ∃ content,
    contentOf i stored.rawContent d h = .ok content ∧ (changed = true ↔ content ≠ stored.content) ∧
      after.get? i.normalized =
        some ⟨if changed then stored.version + 1 else stored.version, content, stored.rawContent⟩
  others : ∀ key, key ≠ i.normalized → after.get? key = h.store.get? key

private theorem mergedAgain_of_ok {name : String} {h h' : Host σ} {i : Identity} (hm : h.memo.Sound)
    (hi : (identify name none d h).1 = .ok i) {changed : Bool}
    (hok : refreshDeclarations name d h = (.ok changed, h')) : MergedAgain i d h changed h'.store := by
  obtain ⟨h₁, hquiet, hrun⟩ := refreshDeclarations_eq hm hi
  rw [hrun] at hok
  cases hs : h.store.get? i.normalized with
  | none =>
    rw [hs] at hok
    obtain ⟨⟩ := hok
    exact ⟨fun _ => ⟨rfl, (hquiet.store _).trans hs⟩, (by simp [hs]), fun key _ => hquiet.store key⟩
  | some stored =>
    rw [hs] at hok
    dsimp only at hok
    cases hc : contentOf i stored.rawContent d h with
    | error e =>
      rw [hc] at hok
      cases hok
    | ok content =>
      rw [hc] at hok
      dsimp only at hok
      by_cases hsame : content = stored.content
      · rw [if_pos hsame] at hok
        obtain ⟨⟩ := hok
        refine ⟨by simp [hs], fun r hr => ?_, fun key _ => hquiet.store key⟩
        obtain rfl := Option.some.inj (hs.symm.trans hr)
        exact ⟨content, hc, by simp [hsame], by rw [hquiet.store, hs, hsame]; rfl⟩
      · rw [if_neg hsame] at hok
        obtain ⟨⟩ := hok
        refine ⟨by simp [hs], fun r hr => ?_, fun key hkey => ?_⟩
        · obtain rfl := Option.some.inj (hs.symm.trans hr)
          refine ⟨content, hc, by simp [hsame], ?_⟩
          rw [Store.get?_commit, if_pos rfl, Store.nextVersion, hquiet.store, hs]
          rfl
        · rw [Store.get?_commit, if_neg hkey, hquiet.store]

namespace MergedAgain

variable {i : Identity} {h h' : Host σ} {changed : Bool}

/-- As a number, a version that is not the greatest one grows by one or stays. -/
private theorem toInt_version (hmerged : MergedAgain i d h changed h'.store)
    (hmax : h.store.version i.normalized ≠ Int64.maxValue) :
    (h'.store.version i.normalized).toInt = (h.store.version i.normalized).toInt + if changed then 1 else 0 := by
  cases hs : h.store.get? i.normalized with
  | none =>
    obtain ⟨rfl, hafter⟩ := hmerged.untracked hs
    rw [Store.version, Store.version, hs, hafter]
    rfl
  | some stored =>
    obtain ⟨content, -, -, hafter⟩ := hmerged.tracked stored hs
    have hold : h.store.version i.normalized = stored.version := by
      rw [Store.version, hs]
      rfl
    have hnew : h'.store.version i.normalized = if changed then stored.version + 1 else stored.version := by
      rw [Store.version, hafter]
      rfl
    rw [hold] at hmax ⊢
    rw [hnew]
    cases changed with
    | false => simp
    | true =>
      rw [if_pos rfl, if_pos rfl]
      exact toInt_add_one hmax

/-- What has been merged again is what would be merged now. -/
private theorem again {name : String} (hi : i.WellFormed) (hmerged : MergedAgain i d h changed h'.store)
    (hf : Forgetful h.tools.engine) (htools : h'.tools = h.tools) (hm' : h'.memo.Sound)
    (hi' : (identify name none d h').1 = .ok i) :
    ∃ h'', refreshDeclarations name d h' = (.ok false, h'') ∧ ∀ key, h''.store.get? key = h'.store.get? key := by
  obtain ⟨h'', hquiet, hrun⟩ := refreshDeclarations_eq hm' hi'
  refine ⟨h'', hrun.trans ?_, hquiet.store⟩
  cases hs : h.store.get? i.normalized with
  | none => rw [(hmerged.untracked hs).2]
  | some stored =>
    obtain ⟨content, hcontent, -, hafter⟩ := hmerged.tracked stored hs
    rw [hafter]
    dsimp only
    rw [contentOf_congr hi htools hf hmerged.others, hcontent]
    exact if_pos rfl

end MergedAgain

/-- When a script has been merged with its declarations again, then its own text is the same as before, its version has
grown by one if the merge has given another text than was stored, and by nothing otherwise, and no other record has
changed.  Doing so once more right away gives no other text and changes no record, if the engine forgets what it is told
to forget. -/
theorem refreshDeclarations_idempotent {h h' : Host σ} (hr : h.Reachable) {name : String} {changed : Bool}
    (hok : refreshDeclarations name d h = (.ok changed, h')) :
    ∃ i, (identify name none d h).1 = .ok i ∧ MergedAgain i d h changed h'.store ∧
      (h.store.version i.normalized ≠ Int64.maxValue →
        (h'.store.version i.normalized).toInt = (h.store.version i.normalized).toInt + if changed then 1 else 0) ∧
      (Forgetful h.tools.engine → ∃ h'', refreshDeclarations name d h' = (.ok false, h'') ∧
        ∀ key, h''.store.get? key = h'.store.get? key) := by
  have hm := hr.sound
  have hm' : (refreshDeclarations name d h).2.memo.Sound := sound_after hm [(d, .refreshDeclarations name)]
  have htools : (refreshDeclarations name d h).2.tools = h.tools := tools_after hm [(d, .refreshDeclarations name)]
  rw [hok] at hm' htools
  cases hi : (identify name none d h).1 with
  | error e =>
    rw [refreshDeclarations_of_error hi] at hok
    cases hok
  | ok i =>
    have hmerged := mergedAgain_of_ok hm hi hok
    have hi' := refreshDeclarations_keeps_answer (d := d) name name (.ok i) h hi
    rw [hok] at hi'
    exact ⟨i, rfl, hmerged, hmerged.toInt_version, fun hf =>
      hmerged.again (wellFormed_of_identify hm (Action.run_of_answer hi)) hf htools hm' hi'⟩

/-- After its declarations have changed, a compiled script gets its second version, and no third one. -/
theorem refreshDeclarations_of_changed_declarations : ∃ (d : Disk) (h h' h'' : Host SyntaxEngine),
    h.store.version "/r/a.ts" = 1 ∧ refreshDeclarations "/r/a.js" d h = (.ok true, h') ∧
      MergedAgain (.ofResolved "/r/a.js") d h true h'.store ∧ (h'.store.version "/r/a.ts").toInt = 2 ∧
      refreshDeclarations "/r/a.js" d h' = (.ok false, h'') ∧ ∀ key, h''.store.get? key = h'.store.get? key := by
  let d := (Disk.empty.write "/r/a.js" (.text "1")).write "/r/a.d.ts" (.text "type A = 2")
  let d' := d.write "/r/a.d.ts" (.text "type A = 3")
  let run : List (Disk × Operation) := [(d, .addFile { path := "/r/a.js" })]
  let start := fresh ⟨Resolution.nodeResolver, Merge.typePrelude, SyntaxEngine.engine⟩ SyntaxEngine.fresh "/r"
  have hu : start.Unused := unused_fresh ..
  have he : (start.after run).tools.engine = SyntaxEngine.engine := congrArg Tools.engine (tools_after hu.sound run)
  have hi : (identify "/r/a.js" none d' (start.after run)).1 = .ok (.ofResolved "/r/a.js") := by decide +kernel
  have hkey : (Identity.ofResolved "/r/a.js").normalized = "/r/a.ts" := by decide +kernel
  have hversion : (start.after run).store.version "/r/a.ts" = 1 := by decide +kernel
  have hanswer : (refreshDeclarations "/r/a.js" d' (start.after run)).1 = .ok true := by decide +kernel
  have hr : (start.after run).Reachable := ⟨_, _, hu, rfl⟩
  generalize start.after run = h at *
  clear_value d'
  have hok := Action.run_of_answer hanswer
  obtain ⟨i, hi', hmerged, hgrown, hagain⟩ := refreshDeclarations_idempotent hr hok
  obtain rfl := Except.ok.inj (hi.symm.trans hi')
  rw [hkey, hversion] at hgrown
  obtain ⟨h'', hsecond, hsame⟩ := hagain (he ▸ forgetful_syntaxEngine)
  exact ⟨d', h, _, h'', hversion, hok, hmerged, hgrown (by decide), hsecond, hsame⟩

end Host

end ScriptHost
