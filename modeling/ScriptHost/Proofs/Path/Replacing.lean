import ScriptHost.Proofs.Path.Extension

/-!
# Replaced extensions

Taking the extension away, or another one in its place, happens within the last name.  The directory stays unless the
new extension brings separators of its own (`directory_setExtension_iff`), and something of the last name stays unless
the whole of it is the extension of declaration files, whose dot at the start is taken for that of an extension
(`clearExtension_spares_name_iff`).
-/

namespace ScriptHost.Path

variable {path extension body ending : String}

private theorem not_isSeparator_of_mem_lastName {c : Char} (h : c ∈ (lastName path).toList) :
    isSeparator c = false := by
  rw [lastName, String.toList_ofList] at h
  simpa using List.mem_rtakeWhile_imp h

/-- What is added to a path leaves the directory as it is if and only if it is part of the last name. -/
private theorem directory_append_iff :
    directory (body ++ ending) = directory body ↔ ∀ c ∈ ending.toList, isSeparator c = false := by
  refine ⟨fun h => ?_, directory_append⟩
  have hlast : lastName (body ++ ending) = lastName body ++ ending := by
    apply (String.append_right_inj (directory body)).1
    rw [← String.append_assoc, directory_append_lastName, ← h, directory_append_lastName]
  intro c hc
  have hmem : c ∈ (lastName (body ++ ending)).toList := by
    rw [hlast, String.toList_append]
    exact List.mem_append_right _ hc
  exact not_isSeparator_of_mem_lastName hmem

theorem directory_setExtension_iff :
    directory (setExtension path extension) = directory path ↔ ∀ c ∈ extension.toList, isSeparator c = false := by
  rw [setExtension, ← directory_clearExtension path]
  exact directory_append_iff

/-- All of the last name is the new extension if and only if there is no separator in it and nothing was left of the
last name. -/
private theorem lastName_setExtension_eq_iff : lastName (setExtension path extension) = extension ↔
    (∀ c ∈ extension.toList, isSeparator c = false) ∧ lastName (clearExtension path) = "" := by
  rw [setExtension]
  constructor
  · intro h
    have hplain : ∀ c ∈ extension.toList, isSeparator c = false := by
      intro c hc
      rw [← h] at hc
      exact not_isSeparator_of_mem_lastName hc
    rw [lastName_append hplain] at h
    exact ⟨hplain, String.append_eq_right_iff.1 h⟩
  · rintro ⟨hplain, hempty⟩
    rw [lastName_append hplain, hempty, String.empty_append]

/-- Without its extension a path is what is left of its last name in the same directory.  Of a last name something is
left, and so a new extension does not become the whole of it, unless it is the extension of declaration files; and the
directory is the same with a new extension in which there is no separator. -/
theorem clearExtension_spares_name_iff (path : String) :
    (∃ name rest, path = directory path ++ (name ++ rest) ∧ clearExtension path = directory path ++ name ∧
      lastName (clearExtension path) = name) ∧
    (lastName path ≠ "" → (lastName (clearExtension path) ≠ "" ↔ lastName path ≠ declarationExtension)) ∧
    ∀ extension,
      (directory (setExtension path extension) = directory path ↔ ∀ c ∈ extension.toList, isSeparator c = false) ∧
      (lastName path ≠ "" → (lastName (setExtension path extension) = extension ↔
        (∀ c ∈ extension.toList, isSeparator c = false) ∧ lastName path = declarationExtension)) := by
  have hempty : lastName path ≠ "" → (lastName (clearExtension path) = "" ↔ lastName path = declarationExtension) := by
    intro hname
    rw [lastName_clearExtension_eq_empty_iff, or_iff_right hname]
  have hparts : clearExtension path = directory path ++ lastName (clearExtension path) := by
    rw [← directory_clearExtension path, directory_append_lastName]
  refine ⟨?_, fun hname => not_congr (hempty hname), fun extension => ⟨directory_setExtension_iff, ?_⟩⟩
  · obtain ⟨rest, hpath, -, -⟩ := exists_eq_clearExtension_append path
    refine ⟨lastName (clearExtension path), rest, ?_, hparts, rfl⟩
    rw [← String.append_assoc, ← hparts]
    exact hpath
  · intro hname
    rw [lastName_setExtension_eq_iff, hempty hname]

/-- Of a file that is named like the extension of declaration files nothing but the directory is left, and then the new
extension is all of its name. -/
theorem clearExtension_spares_name_iff_of_hidden_declaration : ∃ path : String, path = "/a.b\\.d.ts" ∧
    lastName path = ".d.ts" ∧ lastName path ≠ "" ∧ clearExtension path = "/a.b\\" ∧
      lastName (clearExtension path) = "" ∧ directory (setExtension path ".ts") = directory path ∧
        setExtension path ".ts" = "/a.b\\.ts" ∧ lastName (setExtension path ".ts") = ".ts" := by
  have hname : lastName "/a.b\\.d.ts" = declarationExtension := by decide
  have hne : lastName "/a.b\\.d.ts" ≠ "" := by decide
  have hplain : ∀ c ∈ ".ts".toList, isSeparator c = false := by simp [isSeparator]
  obtain ⟨-, hleft, hreplaced⟩ := clearExtension_spares_name_iff "/a.b\\.d.ts"
  obtain ⟨hdirectory, hwhole⟩ := hreplaced ".ts"
  have hempty : lastName (clearExtension "/a.b\\.d.ts") = "" := by
    by_contra h
    exact (hleft hne).1 h hname
  exact ⟨_, rfl, hname, hne, by decide, hempty, hdirectory.2 hplain, by decide, (hwhole hne).2 ⟨hplain, hname⟩⟩

end ScriptHost.Path
