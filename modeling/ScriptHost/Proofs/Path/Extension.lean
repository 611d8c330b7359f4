import Mathlib.Data.List.DropRight
import ScriptHost.Proofs.Path.Ending

/-!
# Directories, last names and extensions

A path is its directory followed by its last name (`directory_append_lastName`).  The extension belongs to the last name
(`exists_eq_clearExtension_append`), so the source path of a file is in the directory of the file
(`directory_sourcePath`).  It is its own source path unless it is the path of a declaration file, or nothing was left of
the last name (`sourcePath_sourcePath_iff`).
-/

namespace ScriptHost.Path

open ScriptHost.Text

/-! ### Directories and last names -/

/-- All of a path up to its last separator, and with it. -/
def directory (path : String) : String := String.ofList (path.toList.rdropWhile fun c => !isSeparator c)

/-- All of a path that is behind its last separator. -/
def lastName (path : String) : String := String.ofList (path.toList.rtakeWhile fun c => !isSeparator c)

theorem directory_append_lastName (path : String) : directory path ++ lastName path = path := by
  apply String.toList_inj.1
  simp [directory, lastName, List.rdropWhile, List.rtakeWhile, ← List.reverse_append]

section

variable {body ending : String}

theorem directory_append (h : ∀ c ∈ ending.toList, isSeparator c = false) :
    directory (body ++ ending) = directory body := by
  have hdrop : (ending.toList.reverse ++ body.toList.reverse).dropWhile (fun c => !isSeparator c) =
      body.toList.reverse.dropWhile fun c => !isSeparator c := by
    apply List.dropWhile_append_of_pos
    intro c hc
    simp [h c (List.mem_reverse.1 hc)]
  simp [directory, List.rdropWhile, hdrop]

theorem lastName_append (h : ∀ c ∈ ending.toList, isSeparator c = false) :
    lastName (body ++ ending) = lastName body ++ ending := by
  have htake : (ending.toList.reverse ++ body.toList.reverse).takeWhile (fun c => !isSeparator c) =
      ending.toList.reverse ++ body.toList.reverse.takeWhile fun c => !isSeparator c := by
    apply List.takeWhile_append_of_pos
    intro c hc
    simp [h c (List.mem_reverse.1 hc)]
  apply String.toList_inj.1
  simp [lastName, List.rtakeWhile, htake]

end

private theorem lastName_directory (path : String) : lastName (directory path) = "" := by
  have hnil : (path.toList.rdropWhile fun c => !isSeparator c).rtakeWhile (fun c => !isSeparator c) = [] := by
    rw [List.rtakeWhile_eq_nil_iff]
    intro hne
    exact List.rdropWhile_last_not _ _ hne
  simp [lastName, directory, hnil]

/-- A path with a last name ends with a character of that name. -/
theorem exists_reverse_of_lastName {path : String} (h : lastName path ≠ "") :
    ∃ c cs, path.toList.reverse = c :: cs ∧ isSeparator c = false := by
  cases hreverse : path.toList.reverse with
  | nil => exact absurd (by simp [lastName, List.rtakeWhile, hreverse]) h
  | cons c cs =>
    refine ⟨c, cs, rfl, ?_⟩
    by_contra hc
    apply h
    simp [lastName, List.rtakeWhile, hreverse, hc]

/-! ### Extensions -/

@[simp] theorem clearExtension_declaration (base : String) : clearExtension (base ++ declarationExtension) = base := by
  simp [clearExtension]

/-- What comes after the last dot can be taken away again if there is a name before it. -/
theorem clearExtension_append {base extension : String}
    (hsource : beforeTail? declarationExtension (base ++ ("." ++ extension)) = none)
    (hbase : ∃ c cs, base.toList.reverse = c :: cs ∧ isSeparator c = false)
    (hextension : ∀ c ∈ extension.toList, c ≠ '.' ∧ isSeparator c = false) :
    clearExtension (base ++ ("." ++ extension)) = base := by
  obtain ⟨c, cs, hreverse, hc⟩ := hbase
  have hparts : (base ++ ("." ++ extension)).toList.reverse = extension.toList.reverse ++ '.' :: c :: cs := by
    rw [String.toList_append, String.toList_append, List.reverse_append, List.reverse_append, hreverse]
    simp
  have hname : (extension.toList.reverse ++ '.' :: c :: cs).takeWhile (fun c => !isSeparator c) =
      extension.toList.reverse ++ '.' :: c :: cs.takeWhile fun c => !isSeparator c := by
    rw [List.takeWhile_append_of_pos fun c hc => by simp [(hextension c (List.mem_reverse.1 hc)).2]]
    simp [hc, show isSeparator '.' = false by decide]
  have hstem : (extension.toList.reverse ++ '.' :: c :: cs.takeWhile fun c => !isSeparator c).dropWhile (· ≠ '.') =
      '.' :: c :: cs.takeWhile fun c => !isSeparator c := by
    rw [List.dropWhile_append_of_pos fun c hc => by simp [(hextension c (List.mem_reverse.1 hc)).1]]
    simp
  unfold clearExtension
  rw [hsource]
  dsimp only
  rw [hparts, hname, hstem]
  -- what is before the last name is added again
  have hrest : cs.takeWhile (fun c => !isSeparator c) ++ cs.drop (cs.takeWhile fun c => !isSeparator c).length = cs :=
    List.prefix_iff_eq_append.1 (List.takeWhile_prefix _)
  have hdrop : (extension.toList.reverse ++ '.' :: c :: cs).drop
      (extension.toList.reverse ++ '.' :: c :: cs.takeWhile fun c => !isSeparator c).length =
        cs.drop (cs.takeWhile fun c => !isSeparator c).length := by
    rw [List.length_append, List.drop_length_add_append]
    rfl
  refine String.toList_inj.1 ?_
  simp only [hdrop, List.cons_append, hrest, String.toList_ofList]
  rw [← hreverse, List.reverse_reverse]

/-- A dot at the start of the last name does not begin an extension. -/
private theorem clearExtension_of_hidden {path hidden : String} (hsource : beforeTail? declarationExtension path = none)
    (hname : lastName path = "." ++ hidden) (hplain : ∀ c ∈ hidden.toList, c ≠ '.') : clearExtension path = path := by
  have hreverse : path.toList.reverse.takeWhile (fun c => !isSeparator c) = hidden.toList.reverse ++ ['.'] := by
    have hchars := congrArg (fun s => s.toList.reverse) hname
    simpa [lastName, List.rtakeWhile] using hchars
  have hstem : (hidden.toList.reverse ++ ['.']).dropWhile (· ≠ '.') = ['.'] := by
    rw [List.dropWhile_append_of_pos fun c hc => by simp [hplain c (List.mem_reverse.1 hc)]]
    simp
  unfold clearExtension
  rw [hsource]
  dsimp only
  rw [hreverse, hstem]
  rfl

/-- If a path is not that of a declaration file, the last dot of the last name begins the extension, unless there is no
character of the name before it. -/
private theorem clearExtension_eq_self_or {path : String} (hsource : beforeTail? declarationExtension path = none) :
    clearExtension path = path ∨ ∃ front c extension, path.toList = front ++ c :: '.' :: extension ∧
      clearExtension path = String.ofList (front ++ [c]) ∧ isSeparator c = false ∧
        ∀ d ∈ extension, isSeparator d = false := by
  unfold clearExtension
  rw [hsource]
  dsimp only
  generalize hname : path.toList.reverse.takeWhile (fun c => !isSeparator c) = name
  have hseparator : ∀ c ∈ name, isSeparator c = false := by
    intro c hc
    rw [← hname] at hc
    have hnot := List.mem_takeWhile_imp hc
    simpa using hnot
  split
  · rename_i c cs hstem
    right
    obtain ⟨extension, hparts⟩ : ∃ extension, extension ++ '.' :: c :: cs = name :=
      ⟨_, hstem ▸ List.takeWhile_append_dropWhile⟩
    have hreverse : name ++ path.toList.reverse.drop name.length = path.toList.reverse :=
      hname ▸ List.prefix_iff_eq_append.1 (List.takeWhile_prefix _)
    generalize path.toList.reverse.drop name.length = before at hreverse
    refine ⟨before.reverse ++ cs.reverse, c, extension.reverse, ?_, by simp, ?_, ?_⟩
    · rw [← path.toList.reverse_reverse, ← hreverse, ← hparts]
      simp
    · exact hseparator c (by simp [← hparts])
    · intro d hd
      exact hseparator d (by simp [← hparts, List.mem_reverse.1 hd])
  · exact .inl rfl

/-- The extension belongs to the last name, and it is all of that name only in a file that is named like the extension
of declaration files. -/
theorem exists_eq_clearExtension_append (path : String) : ∃ extension, path = clearExtension path ++ extension ∧
    (∀ c ∈ extension.toList, isSeparator c = false) ∧
      (lastName (clearExtension path) = "" → lastName path = "" ∨ lastName path = declarationExtension) := by
  have hdeclaration : ∀ c ∈ declarationExtension.toList, isSeparator c = false := by
    simp [declarationExtension, isSeparator]
  cases hbase : beforeTail? declarationExtension path with
  | some base =>
    obtain rfl := beforeTail?_eq_some_iff.1 hbase
    rw [clearExtension_declaration]
    refine ⟨declarationExtension, rfl, hdeclaration, ?_⟩
    intro hempty
    right
    rw [lastName_append hdeclaration, hempty, String.empty_append]
  | none =>
    rcases clearExtension_eq_self_or hbase with hself | ⟨front, c, extension, hpath, hclear, hc, hextension⟩
    · rw [hself]
      exact ⟨"", by simp, by simp, .inl⟩
    · refine ⟨String.ofList ('.' :: extension), ?_, ?_, ?_⟩
      · apply String.toList_inj.1
        simp [hclear, hpath]
      · rw [String.toList_ofList, List.forall_mem_cons]
        exact ⟨by decide, hextension⟩
      · -- the last character before the extension stays
        intro hempty
        simp [hclear, lastName, List.rtakeWhile, hc] at hempty

theorem directory_clearExtension (path : String) : directory (clearExtension path) = directory path := by
  obtain ⟨extension, hpath, hseparator, -⟩ := exists_eq_clearExtension_append path
  conv_rhs => rw [hpath, directory_append hseparator]

/-- Nothing is left of the last name only if there is none, or if it is all extension. -/
theorem lastName_clearExtension_eq_empty_iff (path : String) :
    lastName (clearExtension path) = "" ↔ lastName path = "" ∨ lastName path = declarationExtension := by
  obtain ⟨extension, hpath, hseparator, hempty⟩ := exists_eq_clearExtension_append path
  constructor
  · exact hempty
  · intro h
    rcases h with h | h
    · rw [hpath, lastName_append hseparator, String.append_eq_empty_iff] at h
      exact h.1
    · have hwhole : path = directory path ++ declarationExtension := by rw [← h, directory_append_lastName]
      rw [hwhole, clearExtension_declaration, lastName_directory]

/-! ### Source paths -/

theorem directory_sourcePath (path : String) : directory (sourcePath path) = directory path := by
  rw [sourcePath_eq, directory_append (by simp [sourceExtension, isSeparator]), directory_clearExtension]

/-- The extension of a source can be taken away again if there is a name before it, and this with the extension is not
that of a declaration file. -/
private theorem clearExtension_source_iff (base : String) :
    clearExtension (base ++ sourceExtension) = base ↔ lastName base ≠ "" ∧ hasTail ".d" base = false := by
  have hne : ∀ front ending : String, 0 < ending.length → front ++ ending ≠ front := by
    intro front ending hpos heq
    have hlen := congrArg String.length heq
    rw [String.length_append] at hlen
    omega
  cases hd : hasTail ".d" base with
  | true =>
    obtain ⟨front, rfl⟩ := hasTail_iff.1 hd
    rw [String.append_assoc, show ".d" ++ sourceExtension = declarationExtension by decide,
      clearExtension_declaration]
    simp [(hne front ".d" (by decide)).symm]
  | false =>
    have hsource : beforeTail? declarationExtension (base ++ sourceExtension) = none := by
      rw [Option.eq_none_iff_forall_ne_some]
      intro front hfront
      have heq : base ++ sourceExtension = front ++ ".d" ++ sourceExtension := by
        rw [String.append_assoc]
        exact beforeTail?_eq_some_iff.1 hfront
      have : hasTail ".d" base = true := hasTail_iff.2 ⟨front, (String.append_left_inj _).1 heq⟩
      simp [hd] at this
    by_cases hname : lastName base = ""
    · have hhidden : lastName (base ++ sourceExtension) = "." ++ "ts" := by
        rw [lastName_append (by simp [sourceExtension, isSeparator]), hname]
        rfl
      have hwhole : clearExtension (base ++ sourceExtension) = base ++ sourceExtension :=
        clearExtension_of_hidden hsource hhidden (by simp)
      simp [hname, hwhole, hne base sourceExtension (by decide)]
    · have hback : clearExtension (base ++ ("." ++ "ts")) = base :=
        clearExtension_append hsource (exists_reverse_of_lastName hname) (by simp [isSeparator])
      exact iff_of_true hback ⟨hname, rfl⟩

theorem sourcePath_sourcePath_iff (path : String) :
    sourcePath (sourcePath path) = sourcePath path ↔
      lastName (clearExtension path) ≠ "" ∧ hasTail declarationExtension (sourcePath path) = false := by
  have htail : hasTail declarationExtension (sourcePath path) = hasTail ".d" (clearExtension path) := by
    rw [sourcePath_eq]
    exact hasTail_append_append ".d" sourceExtension (clearExtension path)
  rw [htail, sourcePath_eq (sourcePath path)]
  rw [sourcePath_eq path, String.append_left_inj, clearExtension_source_iff]

/-- A shim path stands for itself as a source, too. -/
theorem sourcePath_of_isShim {path : String} (h : isShim path = true) : sourcePath path = path := by
  obtain ⟨body, rfl⟩ := hasTail_iff.1 h
  have hending : body ++ shimEnding = body ++ "-temp" ++ sourceExtension := by
    rw [String.append_assoc]
    rfl
  have hlast : lastName (body ++ "-temp") ≠ "" := by
    rw [lastName_append (by simp [isSeparator])]
    simp
  have hplain : hasTail ".d" (body ++ "-temp") = false := by
    rw [Bool.eq_false_iff, Ne, hasTail_iff]
    rintro ⟨front, heq⟩
    have htail := congrArg (fun s => s.toList.reverse.take 1) heq
    simp at htail
  rw [sourcePath_eq, hending, (clearExtension_source_iff _).2 ⟨hlast, hplain⟩]

/-- What was found is known by the source path of its file. -/
theorem Identity.WellFormed.normalized_eq {i : Identity} (hi : i.WellFormed) :
    i.normalized = sourcePath i.resolved := by
  cases hi with
  | shim h => exact (sourcePath_of_isShim h).symm
  | ofResolved path => rfl

/-- Files have the same source path if and only if their paths differ in their extensions alone. -/
theorem sourcePath_eq_sourcePath_iff {path other : String} :
    sourcePath path = sourcePath other ↔ clearExtension path = clearExtension other := by
  rw [sourcePath_eq, sourcePath_eq, String.append_left_inj]

/-- The source path of a file with a name is in the same directory and ends with the extension of a source.  Unless all
of the name is the extension, it is its own source path exactly if it is not the path of a declaration file. -/
theorem sourcePath_settled_iff {path : String} (hname : lastName path ≠ "") :
    directory (sourcePath path) = directory path ∧ hasTail sourceExtension (sourcePath path) = true ∧
      (lastName path ≠ declarationExtension →
        (sourcePath (sourcePath path) = sourcePath path ↔ hasTail declarationExtension (sourcePath path) = false)) := by
  refine ⟨directory_sourcePath path, hasTail_sourcePath path, ?_⟩
  intro hwhole
  have hleft : lastName (clearExtension path) ≠ "" := by
    rw [Ne, lastName_clearExtension_eq_empty_iff]
    simp [hname, hwhole]
  simp [sourcePath_sourcePath_iff, hleft]

/-- The last dot begins the extension, also behind another separator and other dots. -/
theorem sourcePath_settled_iff_of_dots : ∃ path : String, path = "/lib.d\\.eslint.min.js" ∧ lastName path ≠ "" ∧
    lastName path ≠ declarationExtension ∧ directory (sourcePath path) = "/lib.d\\" ∧
      hasTail sourceExtension (sourcePath path) = true ∧ sourcePath (sourcePath path) = sourcePath path := by
  have hname : lastName "/lib.d\\.eslint.min.js" ≠ "" := by decide
  have hwhole : lastName "/lib.d\\.eslint.min.js" ≠ declarationExtension := by decide
  obtain ⟨hdirectory, hsource, hsettled⟩ := sourcePath_settled_iff hname
  refine ⟨_, rfl, hname, hwhole, hdirectory.trans (by decide), hsource, (hsettled hwhole).2 (by decide)⟩

/-- The source path of a script can be the path of a declaration file, which has another source path.  That of a file
that is named like the extension of declaration files has another one, too. -/
theorem not_sourcePath_settled :
    (lastName "/a/x.d.js" ≠ "" ∧ sourcePath "/a/x.d.js" = "/a/x.d.ts" ∧
      sourcePath (sourcePath "/a/x.d.js") = "/a/x.ts" ∧
        sourcePath (sourcePath "/a/x.d.js") ≠ sourcePath "/a/x.d.js") ∧
      lastName "/a/.d.ts" ≠ "" ∧ sourcePath "/a/.d.ts" = "/a/.ts" ∧ sourcePath (sourcePath "/a/.d.ts") = "/a/.ts.ts" ∧
        sourcePath (sourcePath "/a/.d.ts") ≠ sourcePath "/a/.d.ts" := by
  decide

end ScriptHost.Path
