import Mathlib.Data.List.Basic
import ScriptHost.Path.Script

/-!
# What script paths end with

A text ends with `tail` exactly if it is some text followed by `tail` (`hasTail_iff`, `beforeTail?_eq_some_iff`).  The
path by which a script is known ends with `.ts` (`hasTail_sourcePath`, `Identity.WellFormed.isEngineName`), and a
compiled script and the shim of its declarations are never known by the same path (`shimPath_ne_sourcePath`).
-/

namespace ScriptHost.Text

theorem hasTail_iff {tail s : String} : hasTail tail s = true ↔ ∃ body, s = body ++ tail := by
  unfold hasTail
  rw [List.isSuffixOf_iff_suffix]
  constructor
  · rintro ⟨body, h⟩
    exact ⟨String.ofList body, String.toList_inj.1 (by simp [h])⟩
  · rintro ⟨body, rfl⟩
    exact ⟨body.toList, by simp⟩

theorem beforeTail?_eq_some_iff {tail s body : String} : beforeTail? tail s = some body ↔ s = body ++ tail := by
  unfold beforeTail?
  rw [Option.map_eq_some_iff]
  constructor
  · rintro ⟨cs, h, rfl⟩
    rw [List.isSuffixOf?_eq_some_iff_append_eq] at h
    exact String.toList_inj.1 (by simp [h])
  · rintro rfl
    exact ⟨body.toList, List.isSuffixOf?_eq_some_iff_append_eq.2 (by simp), String.ofList_toList⟩

@[simp] theorem hasTail_append (body tail : String) : hasTail tail (body ++ tail) = true := hasTail_iff.2 ⟨body, rfl⟩

@[simp] theorem beforeTail?_append (body tail : String) : beforeTail? tail (body ++ tail) = some body :=
  beforeTail?_eq_some_iff.2 rfl

theorem hasTail_append_append (lead tail body : String) : hasTail (lead ++ tail) (body ++ tail) = hasTail lead body := by
  rw [Bool.eq_iff_iff, hasTail_iff, hasTail_iff]
  constructor
  · rintro ⟨front, h⟩
    exact ⟨front, (String.append_left_inj tail).1 (h.trans String.append_assoc.symm)⟩
  · rintro ⟨front, rfl⟩
    exact ⟨front, String.append_assoc⟩

theorem hasTail_of_hasTail_append {lead tail s : String} (h : hasTail (lead ++ tail) s = true) :
    hasTail tail s = true := by
  obtain ⟨body, rfl⟩ := hasTail_iff.1 h
  exact hasTail_iff.2 ⟨body ++ lead, by rw [String.append_assoc]⟩

end ScriptHost.Text

namespace ScriptHost.Path

open ScriptHost.Text

/-! ### Source paths and shims -/

@[simp] theorem shimPath_declaration (base : String) :
    shimPath (base ++ declarationExtension) = base ++ shimEnding := by
  simp [shimPath]

/-- A shim path stands for the declaration file that it was made from. -/
@[simp] theorem declarationPath_shimPath (base : String) :
    declarationPath (shimPath (base ++ declarationExtension)) = base ++ declarationExtension := by
  simp [declarationPath]

@[simp] theorem isShim_shimPath (declaration : String) : isShim (shimPath declaration) = true := by
  simp [isShim, shimPath]

theorem sourcePath_eq (path : String) : sourcePath path = clearExtension path ++ sourceExtension := by
  unfold sourcePath setExtension clearExtension
  split <;> rfl

theorem hasTail_sourcePath (path : String) : hasTail sourceExtension (sourcePath path) = true := by
  rw [sourcePath_eq]
  exact hasTail_append ..

theorem hasTail_of_isShim {path : String} (h : isShim path = true) : hasTail sourceExtension path = true :=
  hasTail_of_hasTail_append (show hasTail ("-temp" ++ sourceExtension) path = true from h)

theorem isEngineName_of_hasTail {path : String} (h : hasTail sourceExtension path = true) :
    isEngineName path = true := by
  rw [isEngineName, Bool.or_eq_true]
  exact .inl h

theorem beforeTail?_declaration_of_compiled {path : String} (h : hasTail compiledExtension path = true) :
    beforeTail? declarationExtension path = none := by
  obtain ⟨body, rfl⟩ := hasTail_iff.1 h
  refine Option.eq_none_iff_forall_ne_some.2 fun base hb => ?_
  have heq := congrArg (fun s => s.toList.reverse.take 2) (beforeTail?_eq_some_iff.1 hb)
  simp [compiledExtension, declarationExtension] at heq

/-- While a compiled file is merged with its declarations, the two are known by different paths. -/
theorem shimPath_ne_sourcePath (path : String) :
    shimPath (clearExtension path ++ declarationExtension) ≠ sourcePath path := by
  rw [shimPath_declaration, sourcePath_eq]
  intro heq
  have hlen := congrArg String.length heq
  rw [String.length_append, String.length_append] at hlen
  exact absurd (Nat.add_left_cancel hlen) (by decide)

/-! ### Identities -/

/-- An identity is well formed if it is that of a shim or that of a file. -/
inductive Identity.WellFormed : Identity → Prop where
  | shim {path : String} (h : isShim path = true) : WellFormed (.shim path)
  | ofResolved (path : String) : WellFormed (.ofResolved path)

theorem Identity.WellFormed.endsWithSource {i : Identity} (h : i.WellFormed) :
    hasTail sourceExtension i.normalized = true := by
  cases h with
  | shim h => exact hasTail_of_isShim h
  | ofResolved path => exact hasTail_sourcePath path

theorem Identity.WellFormed.isEngineName {i : Identity} (h : i.WellFormed) : isEngineName i.normalized = true :=
  isEngineName_of_hasTail h.endsWithSource

/-- A compiled script is known by the source path of its file. -/
theorem Identity.WellFormed.of_isCompiled {i : Identity} (h : i.WellFormed) (hc : i.isCompiled = true) :
    i = .ofResolved i.resolved ∧ hasTail compiledExtension i.resolved = true := by
  cases h with
  | shim h => exact absurd hc (by simp [isCompiled, Identity.shim])
  | ofResolved path => exact ⟨rfl, by simpa [isCompiled, Identity.ofResolved] using hc⟩

/-- A compiled script is not known by the shim path of the declarations beside it. -/
theorem Identity.WellFormed.shimPath_ne {i : Identity} (h : i.WellFormed) (hc : i.isCompiled = true) :
    shimPath (clearExtension i.resolved ++ declarationExtension) ≠ i.normalized := by
  obtain ⟨hid, -⟩ := h.of_isCompiled hc
  rw [hid]
  exact shimPath_ne_sourcePath _

end ScriptHost.Path
