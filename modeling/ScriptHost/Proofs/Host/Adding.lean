import ScriptHost.Proofs.Host.Watch

/-!
# Adding a file from the disk

A file that is added gets a record unless its key is tracked already, and no other record is changed (`addFile_record`).
What paths stand for is not changed either (`addFile_keeps_answer`).
-/

namespace ScriptHost.Host

open ScriptHost.Analysis ScriptHost.Path

variable {σ : Type} {d : Disk} {h : Host σ} {path : String} {i : Identity}

/-! ### Records -/

/-- The record of a script that is tracked anew, if it can be loaded and merged. -/
def firstRecord? (d : Disk) (h : Host σ) (i : Identity) : Option Record :=
  (d.load (fileOf i)).toOption.bind fun text =>
    (mergedContent ⟨i, text, true⟩ d h).1.toOption.map fun content => ⟨1, content, text⟩

/-- A file that is added gets its first record, unless its key is tracked already; no other record is changed. -/
theorem addFile_record (hm : h.memo.Sound) (hi : (identify path none d h).1 = .ok i) (key : String) :
    (addFile { path } d h).2.store.get? key =
      if key = i.normalized then (h.store.get? key).or (firstRecord? d h i) else h.store.get? key := by
  have hadd := fun {text} (htext : seenText h.store d i none = .ok text) =>
    addFile_stores (r := { path }) hm hi rfl htext key
  cases hr : h.store.get? i.normalized with
  | some r =>
    -- the stored text is seen again, and that is no news
    have hold : h.store.needsUpdate i.normalized r.rawContent = false := by simp [Store.needsUpdate, hr]
    rw [hadd (seenText_of_stored hr d), record?_of_not_news hold, Option.none_or]
    split
    · rename_i hkey
      rw [hkey, hr, Option.some_or]
    · rfl
  | none =>
    have hseen := seenText_of_untracked hr d
    unfold firstRecord?
    cases hload : d.load (fileOf i) with
    | error e =>
      rw [hload] at hseen
      rw [addFile_of_unseen (r := { path }) hi hseen]
      simp [Except.toOption]
    | ok text =>
      have hnew : h.store.needsUpdate i.normalized text = true := by simp [Store.needsUpdate, hr]
      have hone : h.store.nextVersion i.normalized = 1 := by simp [Store.nextVersion, hr]
      have hrecord : (observedText i text h).record? d h =
          (mergedContent ⟨i, text, true⟩ d h).1.toOption.map fun content => ⟨1, content, text⟩ := by
        rw [Observation.record?, observedText, hnew, if_pos rfl, ← hone]
        rfl
      rw [hload] at hseen
      rw [hadd hseen, hrecord]
      split
      · rename_i hkey
        rw [hkey, hr, Option.none_or, Option.or_none]
        rfl
      · rfl

/-! ### What paths stand for -/

private theorem requireUnit_keeps {I : Host σ → Prop} (unit : Option SourceUnit) (path : String) :
    (requireUnit unit path : Action σ _).Keeps d I := by
  cases unit with
  | none => exact .fail _
  | some u => exact .pure u

private theorem mergedContent_keeps_answer (o : Observation) (answer : Except HostError Identity) :
    (mergedContent o : Action σ _).Keeps d fun h => (identify path none d h).1 = answer := by
  unfold mergedContent
  split
  · exact .pure _
  · refine .bind_disk ?_
    split
    · exact .pure _
    · refine .bind (fun h hh => by rw [identify_after, hh]) fun shim => ?_
      refine .bind (fun h hh => by rw [observeIdentity_run]; exact hh) fun declarations => ?_
      refine .bind (fun h hh => hh) fun units => ?_
      refine .bind (requireUnit_keeps _ _) fun compiledUnit => .bind (requireUnit_keeps _ _) fun shimUnit => ?_
      exact .bind_host fun h hh => Action.Keeps.lift (I := fun h => (identify path none d h).1 = answer) _ _ h hh

/-- What a path stands for does not change when a file is added without its imports. -/
theorem addFile_keeps_answer (path : String) {r : Request} (horigin : r.origin = none) (himports : r.withImports = false)
    (answer : Except HostError Identity) :
    (addFile r : Action σ _).Keeps d fun h => (identify path none d h).1 = answer := by
  have hcommit : ∀ o, (commit o : Action σ _).Keeps d fun h => (identify path none d h).1 = answer := by
    intro o
    unfold commit
    split
    · exact .pure _
    · exact (mergedContent_keeps_answer o answer).bind fun content => .bind (fun h hh => hh) fun _ => .pure _
  have hunit : ∀ key, (parsedUnit key : Action σ _).Keeps d fun h => (identify path none d h).1 = answer := by
    intro key
    refine .bind (fun h hh => hh) fun unit => ?_
    cases unit with
    | none => exact .fail _
    | some u => exact .pure u
  unfold addFile observe
  rw [horigin, himports]
  refine .bind (.bind (fun h hh => by rw [identify_after, hh]) fun i h hh => by rw [observeIdentity_run]; exact hh)
    fun o => (hcommit o).bind fun stored => ?_
  cases stored <;> exact hunit o.path

/-- What a path stands for does not change when a script is merged with its declarations again. -/
theorem refreshDeclarations_keeps_answer (path name : String) (answer : Except HostError Identity) :
    (refreshDeclarations name : Action σ _).Keeps d fun h => (identify path none d h).1 = answer := by
  refine .bind (fun h hh => by rw [identify_after, hh]) fun i => .bind_host fun h hh => ?_
  cases h.store.get? i.normalized with
  | none => exact hh
  | some stored =>
    refine Action.Keeps.bind (I := fun h => (identify path none d h).1 = answer)
      (fun h hh => by rw [observeIdentity_run]; exact hh) (fun o => ?_) h hh
    refine (mergedContent_keeps_answer o answer).bind fun content => ?_
    split
    · exact .pure _
    · exact .bind (fun h hh => hh) fun _ => .pure _

end ScriptHost.Host
