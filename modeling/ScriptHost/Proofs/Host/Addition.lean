import ScriptHost.Proofs.Host.Watch

/-!
# What adding a script stores

What is added of a script is the text that is seen of it: the one that is given, else the stored one, else the one on
the disk.  If it is news, and if engines can be shown anything of it (`contentOf`), it becomes the next text of the
script; no other record changes in any case (`addFile_effect`).  Whether the engine can read the script afterwards makes
no difference.
-/

namespace ScriptHost.Host

open ScriptHost.Analysis ScriptHost.Path ScriptHost.Text

variable {σ : Type} {d : Disk} {h : Host σ} {i : Identity} {text : String}

/-! ### What engines are shown -/

/-- What engines are to see of a script in which a text is seen: a compiled script beside which there are declarations
is merged with what is seen under their shim path, and any other one is shown as it is. -/
def contentOf (i : Identity) (text : String) (d : Disk) (h : Host σ) : Except HostError String :=
  let declarations := clearExtension i.resolved ++ declarationExtension
  if hasTail compiledExtension i.resolved = true ∧ d.isFile declarations = true then
    mergeAnswer (observedText i text h) declarations d h
  else .ok text

private theorem not_isShim_of_compiled {path : String} (hp : hasTail compiledExtension path = true) :
    isShim path = false := by
  rw [Bool.eq_false_iff]
  intro hshim
  obtain ⟨body, rfl⟩ := hasTail_iff.1 hp
  obtain ⟨base, hbase⟩ := hasTail_iff.1 hshim
  have hend := congrArg (fun s => s.toList.reverse.take 2) hbase
  simp [compiledExtension, shimEnding] at hend

theorem isCompiled_iff (hi : i.WellFormed) : i.isCompiled = true ↔ hasTail compiledExtension i.resolved = true := by
  cases hi with
  | shim hshim =>
    refine ⟨by simp [Identity.isCompiled, Identity.shim], fun hp => ?_⟩
    have hplain := not_isShim_of_compiled hp
    exact absurd hshim (by simpa [Identity.shim] using hplain)
  | ofResolved path => simp [Identity.isCompiled, Identity.ofResolved]

private theorem declarationsBeside_eq (d : Disk) (resolved : String) :
    declarationsBeside d resolved =
      if d.isFile (clearExtension resolved ++ declarationExtension) then
        some (clearExtension resolved ++ declarationExtension)
      else none := by
  unfold declarationsBeside Disk.firstExisting
  rw [List.map_singleton, List.find?_singleton]

theorem mergedContent_eq_contentOf (hi : i.WellFormed) (hm : h.memo.Sound) :
    (mergedContent (observedText i text h) d h).1 = contentOf i text d h := by
  have hcompiled : (observedText i text h).identity.isCompiled = true ↔ _ := isCompiled_iff hi
  have hbeside : declarationsBeside d (observedText i text h).identity.resolved = _ := declarationsBeside_eq d i.resolved
  unfold contentOf
  dsimp only
  by_cases hmerged : hasTail compiledExtension i.resolved = true ∧
      d.isFile (clearExtension i.resolved ++ declarationExtension) = true
  · rw [if_pos hmerged.2] at hbeside
    rw [if_pos hmerged, mergedContent_of_declarations (hcompiled.2 hmerged.1) hbeside hm]
  · have hplain : (observedText i text h).identity.isCompiled = true →
        declarationsBeside d (observedText i text h).identity.resolved = none := by
      intro hc
      rw [hbeside, if_neg fun hf => hmerged ⟨hcompiled.1 hc, hf⟩]
    rw [if_neg hmerged, mergedContent_of_plain hplain]
    rfl

/-! ### What is stored -/

/-- What has become of the records when a text that is seen of a script has been added, where `answer` says what came of
it. -/
structure Added (i : Identity) (text : String) (d : Disk) (h : Host σ) (answer : Except HostError SourceUnit)
    (after : Store) : Prop where
  /-- A text that is stored already is not stored again. -/
  known : (h.store.get? i.normalized).map (·.rawContent) = some text → ∀ key, after.get? key = h.store.get? key
  /-- Any other text gets the next version, or the first one. -/
  stored : ∀ {content}, (h.store.get? i.normalized).map (·.rawContent) ≠ some text → contentOf i text d h = .ok content →
    after.get? i.normalized = some ⟨((h.store.get? i.normalized).map (·.version + 1)).getD 1, content, text⟩
  /-- A text that cannot be merged is not stored. -/
  rejected : ∀ {e}, (h.store.get? i.normalized).map (·.rawContent) ≠ some text → contentOf i text d h = .error e →
    answer = .error e ∧ ∀ key, after.get? key = h.store.get? key
  others : ∀ key, key ≠ i.normalized → after.get? key = h.store.get? key

/-- A script cannot be added if the text that is seen of it is news and engines cannot be shown anything of it. -/
private theorem addFile_of_rejected {r : Request} (hm : h.memo.Sound) (hi : (identify r.path r.origin d h).1 = .ok i)
    (htext : seenText h.store d i r.content = .ok text) (hnews : (observedText i text h).needsUpdate = true)
    {e : HostError} (he : contentOf i text d h = .error e) : (addFile r d h).1 = .error e := by
  have hwf := wellFormed_of_identify hm (Action.run_of_answer hi)
  have hobserve := observe_run hi r.content
  rw [htext] at hobserve
  have hm₁ : (identify r.path r.origin d h).2.memo.Sound := (identify_quiet r.path r.origin d h).sound hm
  have hmerge : (mergedContent (observedText i text h) d (identify r.path r.origin d h).2).1 = .error e :=
    ((mergedContent_memo _ d hm hm₁).trans (mergedContent_eq_contentOf hwf hm)).trans he
  have hcommit := Action.run_of_answer (commit_eq_error_iff.2 ⟨hnews, hmerge⟩)
  unfold addFile
  rw [Action.bind_run_of_ok hobserve]
  unfold addObserved
  rw [Action.bind_run_of_error hcommit]

/-- Without its imports, a script that is added gets the text that is seen of it as its next one, if that is news and can
be merged; otherwise no record changes, and the records of other scripts never do. -/
theorem addFile_effect (hr : h.Reachable) {r : Request} (himports : r.withImports = false) (d : Disk) :
    (∀ {e}, (identify r.path r.origin d h).1 = .error e →
      (addFile r d h).1 = .error e ∧ ∀ key, (addFile r d h).2.store.get? key = h.store.get? key) ∧
    ∀ {i}, (identify r.path r.origin d h).1 = .ok i →
      (∀ {e}, seenText h.store d i r.content = .error e →
        (addFile r d h).1 = .error e ∧ ∀ key, (addFile r d h).2.store.get? key = h.store.get? key) ∧
      ∀ {text}, seenText h.store d i r.content = .ok text →
        Added i text d h (addFile r d h).1 (addFile r d h).2.store := by
  have hm := hr.sound
  refine ⟨fun {e} he => ?_, fun {i} hi => ⟨fun {e} he => ?_, fun {text} htext => ?_⟩⟩
  · rw [addFile_of_unidentified he]
    exact ⟨rfl, fun _ => rfl⟩
  · rw [addFile_of_unseen hi he]
    exact ⟨by rw [addFile, Action.bind_run_of_error ((observe_run hi r.content).trans (by rw [he]; rfl))], fun _ => rfl⟩
  · have hstore := addFile_stores (d := d) hm hi himports htext
    have hwf := wellFormed_of_identify hm (Action.run_of_answer hi)
    have hnews : (h.store.get? i.normalized).map (·.rawContent) ≠ some text →
        (observedText i text h).needsUpdate = true := by
      rw [Ne, ← needsUpdate_eq_false_iff, Bool.not_eq_false]
      exact id
    -- without a record for the script, nothing changes at all
    have hsame : (observedText i text h).record? d h = none → ∀ key,
        (addFile r d h).2.store.get? key = h.store.get? key := by
      intro hnone key
      rw [hstore, hnone, Option.none_or, ite_self]
    refine ⟨fun hold => hsame (record?_of_not_news (needsUpdate_eq_false_iff.2 hold) d h), fun {content} hother hc => ?_,
      fun {e} hother he => ⟨addFile_of_rejected hm hi htext (hnews hother) he, hsame ?_⟩, fun key hkey => ?_⟩
    · have hrecord : (observedText i text h).record? d h = some ⟨h.store.nextVersion i.normalized, content, text⟩ :=
        record?_eq_some_iff.2 ⟨hnews hother, content, (mergedContent_eq_contentOf hwf hm).trans hc, rfl⟩
      rw [hstore, if_pos rfl, hrecord]
      rfl
    · rw [Observation.record?, if_pos (hnews hother), mergedContent_eq_contentOf hwf hm, he]
      rfl
    · rw [hstore, if_neg hkey]

/-- An engine that cannot read anything makes a merge fail, but a script that is not merged is stored although its
addition fails. -/
theorem addFile_effect_of_silent_engine : ∃ (d : Disk) (h : Host Unit),
    (addFile { path := "/r/a.ts" } d h).1 = .error (.engineUnavailable "/r/a.ts") ∧
    Added (.ofResolved "/r/a.ts") "1" d h (.error (.engineUnavailable "/r/a.ts"))
      (addFile { path := "/r/a.ts" } d h).2.store ∧
    (addFile { path := "/r/a.ts" } d h).2.store.get? "/r/a.ts" = some ⟨1, "1", "1"⟩ ∧
    Added (.ofResolved "/r/c.js") "2" d h (.error (.missingStatements "/r/c.ts"))
      (addFile { path := "/r/c.js" } d h).2.store ∧
    (addFile { path := "/r/c.js" } d h).2.store.get? "/r/c.ts" = none := by
  let d := ((Disk.empty.write "/r/a.ts" (.text "1")).write "/r/c.js" (.text "2")).write "/r/c.d.ts" (.text "3")
  let silent : Engine Unit := ⟨fun _ _ s => (none, s), fun _ _ _ s => (none, s), fun _ _ _ s => (none, s),
    fun _ _ _ s => (none, s), fun _ _ _ s => (none, s), fun _ _ _ s => (none, s), fun _ s => s⟩
  let h := fresh ⟨Resolution.nodeResolver, Merge.typePrelude, silent⟩ () "/r"
  have hr : h.Reachable := (unused_fresh ..).reachable
  have hi : (identify "/r/a.ts" none d h).1 = .ok (.ofResolved "/r/a.ts") := by decide +kernel
  have hi' : (identify "/r/c.js" none d h).1 = .ok (.ofResolved "/r/c.js") := by decide +kernel
  have htext : seenText h.store d (.ofResolved "/r/a.ts") none = .ok "1" := by decide +kernel
  have htext' : seenText h.store d (.ofResolved "/r/c.js") none = .ok "2" := by decide +kernel
  have hcontent : contentOf (.ofResolved "/r/a.ts") "1" d h = .ok "1" := by decide +kernel
  have hcontent' : contentOf (.ofResolved "/r/c.js") "2" d h = .error (.missingStatements "/r/c.ts") := by decide +kernel
  have hkey : (Identity.ofResolved "/r/a.ts").normalized = "/r/a.ts" := by decide +kernel
  have hkey' : (Identity.ofResolved "/r/c.js").normalized = "/r/c.ts" := by decide +kernel
  have hanswer : (addFile { path := "/r/a.ts" } d h).1 = .error (.engineUnavailable "/r/a.ts") := by decide +kernel
  have hadded := ((addFile_effect hr (r := { path := "/r/a.ts" }) rfl d).2 hi).2 htext
  have hadded' := ((addFile_effect hr (r := { path := "/r/c.js" }) rfl d).2 hi').2 htext'
  have hempty : ∀ key, h.store.get? key = none := fun _ => rfl
  clear_value h d
  obtain ⟨hanswer', hsame⟩ := hadded'.rejected (by simp [hempty]) hcontent'
  have hstored := hadded.stored (by simp [hempty]) hcontent
  rw [hkey, hempty] at hstored
  rw [hanswer] at hadded
  rw [hanswer'] at hadded'
  exact ⟨d, h, hanswer, hadded, hstored, hadded', (hsame _).trans (hempty _)⟩

end ScriptHost.Host
