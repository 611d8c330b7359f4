import ScriptHost.Proofs.Host.Repetition

/-!
# Getting the statements of a script

A script whose text is stored already is not added once more when its statements are asked for: the engine is asked at
once, and only if it has no answer is the script added after all.  With the syntax engine this is a short cut and
nothing else (`getFile_eq_addFile`).  For adding a script that is no news is asking the engine, and if the engine has no
answer for a script with a text, then asking once more changes nothing.
-/

namespace ScriptHost

private theorem Table.erase_erase {κ α : Type} [DecidableEq κ] (t : Table κ α) (k : κ) :
    (t.erase k).erase k = t.erase k := by
  have hentries : ((t.erase k).erase k).entries = (t.erase k).entries := by
    simp only [erase, filter, List.filter_filter, Bool.and_self]
  exact (Table.mk.injEq ..).mpr hentries

namespace Analysis.SyntaxEngine

/-- If there is no answer although a text is shown, the script is not tracked.  It has been forgotten then, and asking
once more changes nothing. -/
private theorem ensure_again_of_none {view : ScriptView} {fileName : String} {e e₁ : SyntaxEngine}
    (ht : (view.snapshot fileName).isSome = true) (hs : ensure view fileName e = (none, e₁)) :
    ensure view fileName e₁ = (none, e₁) := by
  obtain ⟨source, hsource⟩ := Option.isSome_iff_exists.1 ht
  by_cases hu : view.version fileName = untracked
  · rw [ensure, if_pos hu] at hs ⊢
    obtain ⟨-, rfl⟩ := Prod.mk.inj hs
    rw [Table.erase_erase]
  · simp only [ensure, if_neg hu, ensure.load, hsource] at hs
    split at hs
    · split at hs <;> cases hs
    · cases hs

end Analysis.SyntaxEngine

namespace Host

open ScriptHost.Analysis

variable {d : Disk}

/-- For an observed script that is no news, the short cut gives what adding it gives. -/
private theorem getFile_of_not_news {r : Request} {h h₁ : Host SyntaxEngine} {o : Observation}
    (he : h₁.tools.engine = SyntaxEngine.engine) (ho : observe r.path r.origin r.content d h = (.ok o, h₁))
    (hnews : o.needsUpdate = false) : getFile r d h = addObserved o r.withImports d h₁ := by
  obtain ⟨i, h₂, -, hobserved⟩ := Action.bind_eq_ok.1 ho
  obtain ⟨rfl, -, rfl, hn⟩ := observeIdentity_eq_ok.1 hobserved
  unfold getFile
  rw [Action.bind_run_of_ok ho, hnews, if_neg (by decide), Action.bind_run_of_ok (Action.ask_run ..), he,
    SyntaxEngine.sourceFile_run, addObserved_of_not_news hnews, parsedUnit_run he]
  rcases hs : SyntaxEngine.ensure (viewOf h₁.store) o.path h₁.engineState with ⟨script | script, e₁⟩
  · -- the text is stored, so it is shown to the engine
    have hshown : ((viewOf h₁.store).snapshot o.path).isSome = true := by
      obtain ⟨record, hrecord, -⟩ := Option.map_eq_some_iff.1 (needsUpdate_eq_false_iff.1 (hn.symm.trans hnews))
      exact congrArg (fun record? => (record?.map (·.content)).isSome) hrecord
    have hagain := SyntaxEngine.ensure_again_of_none hshown hs
    show addObserved o r.withImports d { h₁ with engineState := e₁ } = _
    rw [addObserved_of_not_news hnews, parsedUnit_run (h := { h₁ with engineState := e₁ }) he]
    dsimp only
    rw [hagain]
  · rfl

/-- With the syntax engine, getting the statements of a script is adding it: the answer is the same, and so is the host
that is left, with its store and all that the engine has read and counted. -/
theorem getFile_eq_addFile {h : Host SyntaxEngine} (he : h.tools.engine = SyntaxEngine.engine) (r : Request)
    (d : Disk) : getFile r d h = addFile r d h := by
  rcases ho : observe r.path r.origin r.content d h with ⟨e | o, h₁⟩
  · unfold getFile addFile
    rw [Action.bind_run_of_error ho, Action.bind_run_of_error ho]
  · have hq := observe_quiet r.path r.origin r.content d h
    rw [ho] at hq
    have he₁ : h₁.tools.engine = SyntaxEngine.engine := (congrArg Tools.engine hq.tools).trans he
    unfold addFile
    rw [Action.bind_run_of_ok ho]
    cases hnews : o.needsUpdate with
    | false => exact getFile_of_not_news he₁ ho hnews
    | true =>
      unfold getFile
      rw [Action.bind_run_of_ok ho, hnews, if_pos rfl]

/-- A script that is up to date is read once, whether its statements are got or it is added again; and what cannot be
merged with its declarations can be got no more than it can be added. -/
theorem getFile_of_tracked_and_of_unmergeable : ∃ (d : Disk) (h : Host SyntaxEngine),
    (getFile { path := "/r/a.ts" } d h = addFile { path := "/r/a.ts" } d h ∧
      (getFile { path := "/r/a.ts" } d h).1.toOption.isSome = true ∧ h.store.contains "/r/a.ts" = true ∧
      (getFile { path := "/r/a.ts" } d h).2.engineState.parseCount = 1) ∧
    getFile { path := "/r/b.js" } d h = addFile { path := "/r/b.js" } d h ∧
      (getFile { path := "/r/b.js" } d h).1.toOption = none := by
  let d := ((Disk.empty.write "/r/a.ts" (.text "let a")).write "/r/b.js" (.text "1")).write "/r/b.d.ts" (.text "(")
  let h : Host SyntaxEngine :=
    { fresh ⟨Resolution.nodeResolver, Merge.typePrelude, SyntaxEngine.engine⟩ SyntaxEngine.fresh "/r" with
      store := Table.empty.insert "/r/a.ts" ⟨1, "let a", "let a"⟩ }
  have hgot : (getFile { path := "/r/a.ts" } d h).1.toOption.isSome = true := by decide +kernel
  have hkeys : h.store.contains "/r/a.ts" = true := by decide +kernel
  have hcount : (getFile { path := "/r/a.ts" } d h).2.engineState.parseCount = 1 := by decide +kernel
  have hfailed : (getFile { path := "/r/b.js" } d h).1.toOption = none := by decide +kernel
  have he : h.tools.engine = SyntaxEngine.engine := rfl
  clear_value h d
  exact ⟨d, h, ⟨getFile_eq_addFile he _ d, hgot, hkeys, hcount⟩, getFile_eq_addFile he _ d, hfailed⟩

end Host

end ScriptHost
