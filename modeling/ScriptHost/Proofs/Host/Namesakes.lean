import ScriptHost.Proofs.Host.Outcome
import ScriptHost.Proofs.Path.Beside

/-!
# Files that share a record

A script is known by the path of its file without the extension, so files whose paths differ in their extensions alone
share a record.  A change of a file changes the record of such a file and of no other (`Event.concerns_changed_iff`).
The removal of a file drops the script that is tracked by this very path; if there is none, it drops that of a file
whose path differs in the extension alone (`Event.concerns_removed_iff`).

A change of declarations is one of the compiled script beside them.  That differs in the extension alone, too, unless
the declarations have no other name than `.d.ts` (`clearExtension_subject`).
-/

namespace ScriptHost.Host

open ScriptHost.Analysis ScriptHost.Path

variable {σ : Type} {d : Disk} {h : Host σ} {path other key : String}

/-- Whatever is found by a path is the file at that path. -/
def StandsForItself (path : String) (d : Disk) (h : Host σ) : Prop :=
  ∀ i, (identify path none d h).1 = .ok i → i.resolved = path

/-- The file whose script a change of a file is about: the compiled script beside declarations, or else that file. -/
def subject (d : Disk) (path : String) : String := (compiledSibling? d path).getD path

private theorem StandsForItself.normalized (hself : StandsForItself path d h) (hm : h.memo.Sound) {i : Identity}
    (hi : (identify path none d h).1 = .ok i) : i.normalized = sourcePath path := by
  rw [(wellFormed_of_identify hm (Action.run_of_answer hi)).normalized_eq, hself i hi]

private theorem clearExtension_of_mem_compiledExtensions {base extension : String}
    (hextension : extension ∈ compiledExtensions) (hname : lastName base ≠ "") :
    clearExtension (base ++ extension) = base := by
  have hplain : Text.beforeTail? declarationExtension (base ++ extension) = none := by
    refine Option.eq_none_iff_forall_ne_some.2 fun front hfront => ?_
    have hengine : isEngineName (base ++ extension) = true := by
      rw [Text.beforeTail?_eq_some_iff.1 hfront]
      exact isEngineName_of_hasTail (Text.hasTail_of_hasTail_append
        (show Text.hasTail (".d" ++ sourceExtension) (front ++ declarationExtension) = true from Text.hasTail_append ..))
    rw [isEngineName_compiled hextension] at hengine
    cases hengine
  obtain ⟨letters, rfl, hletters⟩ : ∃ letters, extension = "." ++ letters ∧
      ∀ c ∈ letters.toList, c ≠ '.' ∧ isSeparator c = false := by
    simp only [compiledExtensions, List.mem_cons, List.not_mem_nil, or_false] at hextension
    rcases hextension with rfl | rfl | rfl | rfl
    · exact ⟨"js", rfl, by simp [isSeparator]⟩
    · exact ⟨"jsx", rfl, by simp [isSeparator]⟩
    · exact ⟨"mjs", rfl, by simp [isSeparator]⟩
    · exact ⟨"cjs", rfl, by simp [isSeparator]⟩
  exact clearExtension_append hplain (exists_reverse_of_lastName hname) hletters

/-- A compiled script differs from the declarations beside it in the extension alone. -/
theorem clearExtension_subject (hname : lastName path ≠ declarationExtension) :
    clearExtension (subject d path) = clearExtension path := by
  unfold subject
  cases hsib : compiledSibling? d path with
  | none => rfl
  | some compiled =>
    obtain ⟨base, extension, rfl, hextension, rfl⟩ := exists_of_compiledSibling hsib
    have hlast : lastName base ≠ "" := by
      intro hempty
      rw [lastName_append (by simp [declarationExtension, isSeparator]), hempty] at hname
      exact hname rfl
    rw [Option.getD_some, clearExtension_declaration, clearExtension_of_mem_compiledExtensions hextension hlast]

/-! ### Changes -/

private theorem Refreshes.key_eq (hm : h.memo.Sound) (hself : StandsForItself path d h) (hr : Refreshes path key d h) :
    key = sourcePath path := by
  obtain ⟨-, i, hi, rfl, -⟩ := hr
  exact hself.normalized hm hi

private theorem Changes.key_eq {trackNew : Bool} (hm : h.memo.Sound) (hself : StandsForItself (subject d path) d h)
    (hc : Changes trackNew path key d h) : key = sourcePath (subject d path) := by
  obtain ⟨-, -, hc⟩ := hc
  unfold subject at hself ⊢
  cases hsib : compiledSibling? d path with
  | some compiled =>
    rw [hsib] at hc hself
    exact hc.key_eq hm hself
  | none =>
    rw [hsib] at hc hself
    obtain ⟨-, -, i, -, hi, rfl, -⟩ := hc
    exact hself.normalized hm hi

private theorem Removes.key_eq (hm : h.memo.Sound) (hself : StandsForItself (subject d path) d h)
    (hsib : (compiledSibling? d path).isSome = true) (hr : Removes path key d h) : key = sourcePath (subject d path) := by
  obtain ⟨compiled, hsib⟩ := Option.isSome_iff_exists.1 hsib
  obtain ⟨-, hr⟩ := hr
  unfold subject at hself ⊢
  rw [hsib] at hr hself ⊢
  exact hr.key_eq hm hself

/-- A file has been changed, or declarations of a compiled script are no longer there. -/
inductive Event.Changed (d : Disk) (path : String) : Event → Prop where
  | created : Changed d path (.created path)
  | modified : Changed d path (.modified path)
  | undeclared (hsib : (compiledSibling? d path).isSome = true) : Changed d path (.removed path)

/-- If a change of a file changes some record, it changes the record of exactly those files whose paths differ in their
extensions alone. -/
theorem Event.concerns_changed_iff {event : Event} (hevent : event.Changed d path) (hm : h.memo.Sound)
    (hself : StandsForItself (subject d path) d h) (hname : lastName path ≠ declarationExtension) (trackNew : Bool) :
    event.Concerns trackNew (sourcePath other) d h ↔
      (∃ key, event.Concerns trackNew key d h) ∧ clearExtension path = clearExtension other := by
  have hkey : ∀ {key}, event.Concerns trackNew key d h → key = sourcePath (subject d path) := by
    intro key hc
    cases hevent with
    | created => exact Changes.key_eq hm hself hc
    | modified => exact Changes.key_eq hm hself hc
    | undeclared hsib => exact Removes.key_eq hm hself hsib hc
  rw [← clearExtension_subject hname, ← sourcePath_eq_sourcePath_iff]
  constructor
  · exact fun hc => ⟨⟨_, hc⟩, (hkey hc).symm⟩
  · rintro ⟨⟨key, hc⟩, hsame⟩
    rwa [← hsame, ← hkey hc]

/-! ### Removals -/

/-- The name under which a removed file is looked up at last is its source path. -/
private theorem sourceName_eq_sourcePath (ha : isAbsolute path = true) (he : Ended path)
    (hbackslash : '\\' ∉ path.toList) (hs : isScript path = true) : sourceName path = sourcePath path := by
  have hextended : Extended path := isSome_extension?_iff.1 (Option.isSome_of_any hs)
  rw [sourceName, sourcePath_eq]
  cases hbase : declarationBase? path with
  | some base =>
    obtain rfl := Text.beforeTail?_eq_some_iff.1 hbase
    rw [Option.getD_some, clearExtension_declaration]
  | none => rw [Option.getD_none, withoutExtension_eq_clearExtension ha he hbackslash hbase hextended]

private theorem isAbsolute_sourcePath (path : String) : isAbsolute (sourcePath path) = isAbsolute path := by
  obtain ⟨extension, hpath, hseparator, -⟩ := exists_eq_clearExtension_append path
  have hslash : '/' ∉ extension.toList := fun h => absurd (hseparator _ h) (by decide)
  rw [sourcePath_eq, isAbsolute_append (by decide), ← isAbsolute_append hslash (clearExtension path), ← hpath]

/-- A removed file is tracked by its own path or by its source path, if at all. -/
private theorem drops_iff (hm : h.memo.Sound) (hkeys : StoredIn EngineKey h.store) (hself : StandsForItself path d h)
    (ha : isAbsolute path = true) (hsource : sourceName path = sourcePath path) :
    Drops path (sourcePath other) d h ↔
      path = sourcePath other ∨ (h.store.contains path = false ∧ sourcePath path = sourcePath other) := by
  have hsourceKey : knownKey (sourceName path) d h = sourcePath path := by
    rw [hsource]
    exact knownKey_of_engineName (isEngineName_of_hasTail (hasTail_sourcePath path))
      ((isAbsolute_sourcePath path).trans ha) d h
  rw [Drops, hsourceKey]
  by_cases hengine : isEngineName path = true
  · rw [knownKey_of_engineName hengine ha]
  · -- no script is tracked by the path of a compiled one
    have huntracked := hkeys.untracked (Bool.eq_false_iff.2 hengine)
    have hne : path ≠ sourcePath other := by
      rintro rfl
      exact hengine (isEngineName_of_hasTail (hasTail_sourcePath other))
    cases hi : (identify path none d h).1 with
    | ok i =>
      rw [knownKey_of_identified (Bool.eq_false_iff.2 hengine) huntracked hi, hself.normalized hm hi]
      simp only [hne, huntracked, true_and, false_or]
      exact ⟨fun hdrop => hdrop.elim id (·.2), .inl⟩
    | error e =>
      have hknown : knownKey path d h = path := by
        rw [knownKey, hi]
        split <;> rfl
      rw [hknown]

/-- If a file is removed that does not declare a compiled script, the script is dropped that is tracked by its path.  If
there is none, that of a file is dropped whose path differs in the extension alone. -/
theorem Event.concerns_removed_iff (hm : h.memo.Sound) (hkeys : StoredIn EngineKey h.store)
    (hself : StandsForItself path d h) (hsib : compiledSibling? d path = none) (hs : isScript path = true)
    (ha : isAbsolute path = true) (he : Ended path) (hbackslash : '\\' ∉ path.toList) (trackNew : Bool) :
    (Event.removed path).Concerns trackNew (sourcePath other) d h ↔ path = sourcePath other ∨
      (h.store.contains path = false ∧ clearExtension path = clearExtension other) := by
  rw [Event.Concerns, Removes, hsib, ← sourcePath_eq_sourcePath_iff,
    ← drops_iff hm hkeys hself ha (sourceName_eq_sourcePath ha he hbackslash hs)]
  exact and_iff_right hs

end ScriptHost.Host
