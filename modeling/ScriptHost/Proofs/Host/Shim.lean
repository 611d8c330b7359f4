import Mathlib.Data.Set.Function
import ScriptHost.Proofs.Host.Merge

/-!
# Shims

A shim path spells the path of a declaration file: each is made of the other by another ending, so that nothing is lost
on the way there and back (`invOn_shimPath`, `bijOn_shimPath`).  The shim path of declarations is never the path by
which the compiled script beside them is known, so a merge has two records (`shims_spell_declarations`).
-/

namespace ScriptHost.Path

open ScriptHost.Text

/-! ### Spelling -/

/-- The paths of declaration files. -/
def declarationPaths : Set String := {path | hasTail declarationExtension path = true}

/-- The shim paths. -/
def shimPaths : Set String := {path | isShim path = true}

private theorem mem_declarationPaths_iff {path : String} :
    path ∈ declarationPaths ↔ ∃ base, path = base ++ declarationExtension :=
  hasTail_iff

private theorem mem_shimPaths_iff {path : String} : path ∈ shimPaths ↔ ∃ base, path = base ++ shimEnding :=
  hasTail_iff

private theorem declarationPath_shim (base : String) : declarationPath
    (base ++ shimEnding) = base ++ declarationExtension := by
  simp [declarationPath]

private theorem mapsTo_shimPath : Set.MapsTo shimPath declarationPaths shimPaths := fun declaration _ =>
  isShim_shimPath declaration

private theorem mapsTo_declarationPath : Set.MapsTo declarationPath shimPaths declarationPaths := fun _ _ =>
  hasTail_append ..

/-- A declaration file and its shim stand for each other. -/
theorem invOn_shimPath : Set.InvOn declarationPath shimPath declarationPaths shimPaths := by
  constructor
  · intro declaration hdeclaration
    obtain ⟨base, rfl⟩ := mem_declarationPaths_iff.1 hdeclaration
    exact declarationPath_shimPath base
  · intro shim hshim
    obtain ⟨base, rfl⟩ := mem_shimPaths_iff.1 hshim
    rw [declarationPath_shim, shimPath_declaration]

theorem bijOn_shimPath : Set.BijOn shimPath declarationPaths shimPaths :=
  invOn_shimPath.bijOn mapsTo_shimPath mapsTo_declarationPath

private theorem bijOn_declarationPath : Set.BijOn declarationPath shimPaths declarationPaths :=
  invOn_shimPath.symm.bijOn mapsTo_declarationPath mapsTo_shimPath

end ScriptHost.Path

namespace ScriptHost.Host

open ScriptHost.Analysis ScriptHost.Path ScriptHost.Text

/-! ### The keys of a merge -/

/-- The declarations beside a compiled script are known by a shim that is read from their file, and by another path than
the script. -/
private theorem identify_shimPath_of_beside {σ : Type} {d : Disk} {h : Host σ} {o : Observation} {declaration : String}
    (hm : h.memo.Sound) (ho : o.identity.WellFormed) (hc : o.identity.isCompiled = true)
    (hd : declarationsBeside d o.identity.resolved = some declaration) :
    ∃ shim, (identify (shimPath declaration) none d h).1 = .ok shim ∧ fileOf shim = declaration ∧
      shim.normalized ≠ o.path := by
  refine ⟨.shim (shimPath declaration), ?_, fileOf_shimPath hd, ?_⟩
  · exact identify_of_isShim (isShim_shimPath declaration) none d hm
  · exact Observation.Apart.of_wellFormed ho d hc _ hd

/-- Shim paths spell the paths of declaration files one to one, and a shim path is known as such whatever path it was
made of.  The one that is made for the declarations of a compiled script is never the path by which that script is
known, so the two records of a merge have different keys. -/
theorem shims_spell_declarations :
    Set.InvOn declarationPath shimPath declarationPaths shimPaths ∧
    Set.BijOn shimPath declarationPaths shimPaths ∧ Set.BijOn declarationPath shimPaths declarationPaths ∧
    (∀ declaration, isShim (shimPath declaration) = true) ∧
    (∀ resolved, hasTail compiledExtension resolved = true →
      shimPath (clearExtension resolved ++ declarationExtension) ≠ sourcePath resolved) ∧
    ∀ {σ : Type} {d : Disk} {h : Host σ} {o : Observation} {declaration : String}, h.memo.Sound →
      o.identity.WellFormed → o.identity.isCompiled = true →
      declarationsBeside d o.identity.resolved = some declaration →
      ∃ shim, (identify (shimPath declaration) none d h).1 = .ok shim ∧ fileOf shim = declaration ∧
        shim.normalized ≠ o.path :=
  ⟨invOn_shimPath, bijOn_shimPath, bijOn_declarationPath, isShim_shimPath, fun resolved _ =>
    shimPath_ne_sourcePath resolved, identify_shimPath_of_beside⟩

/-- The path of a compiled script may itself be spelled like a shim. -/
theorem shims_spell_declarations_of_shim_name : ∃ (d : Disk) (h : Host SyntaxEngine) (o : Observation)
    (shim : Identity),
    h.memo.Sound ∧ o.identity.WellFormed ∧ o.identity.isCompiled = true ∧ o.identity.resolved = "/r/a-temp.js" ∧
      hasTail compiledExtension "/r/a-temp.js" = true ∧ "/r/a-temp.d.ts" ∈ declarationPaths ∧
      declarationsBeside d o.identity.resolved = some "/r/a-temp.d.ts" ∧
      declarationPath (shimPath "/r/a-temp.d.ts") = "/r/a-temp.d.ts" ∧
      shimPath (clearExtension "/r/a-temp.js" ++ declarationExtension) ≠ sourcePath "/r/a-temp.js" ∧
      (identify (shimPath "/r/a-temp.d.ts") none d h).1 = .ok shim ∧ fileOf shim = "/r/a-temp.d.ts" ∧
      shim.normalized ≠ o.path := by
  let d := (Disk.empty.write "/r/a-temp.js" (.text "1")).write "/r/a-temp.d.ts" (.text "2")
  let h := fresh ⟨Resolution.nodeResolver, Merge.typePrelude, SyntaxEngine.engine⟩ SyntaxEngine.fresh "/r"
  let o : Observation := ⟨.ofResolved "/r/a-temp.js", "1", true⟩
  obtain ⟨hinv, -, -, -, hne, hmerge⟩ := shims_spell_declarations
  have hm : h.memo.Sound := (unused_fresh ..).sound
  have hc : o.identity.isCompiled = true := by decide
  have hcompiled : hasTail compiledExtension "/r/a-temp.js" = true := by decide
  have hmem : "/r/a-temp.d.ts" ∈ declarationPaths := by
    rw [mem_declarationPaths_iff]
    exact ⟨"/r/a-temp", by decide⟩
  have hbeside : declarationsBeside d o.identity.resolved = some "/r/a-temp.d.ts" := by decide +kernel
  obtain ⟨shim, hshim, hfile, hkey⟩ := hmerge hm (.ofResolved _) hc hbeside
  exact ⟨d, h, o, shim, hm, .ofResolved _, hc, rfl, hcompiled, hmem, hbeside, hinv.1 hmem, hne _ hcompiled, hshim,
    hfile, hkey⟩

end ScriptHost.Host
