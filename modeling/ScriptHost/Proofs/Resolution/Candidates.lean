import ScriptHost.Proofs.Path.Beside
import ScriptHost.Proofs.Path.Spelling
import ScriptHost.Proofs.Resolution.Lookup

/-!
# Candidates

Looking a module up is going through a list of paths and taking the first that leads to a file.  `candidates` is that
list: what a path stands for, a file before a directory (`locateCandidates`), once for every directory in which the
module may be.  The directories of packages come from the nearest to the one furthest out (`Outwards`).  Which paths are
in the list depends on the directories and manifests that there are, but not on which of its paths are files, so no
fallback can get in front of another one (`nodeResolver_firstMatch`).  Names are looked up from the directory of the
origin, which is the one above a file (`originDirectory_spec`).
-/

namespace ScriptHost.Path

/-! ### The directories above -/

private theorem dropTrailing_suffix (cs : List Char) : dropTrailing cs <:+ cs := by
  induction cs using dropTrailing.induct with
  | case1 => exact List.suffix_rfl
  | case2 rest hne ih => rw [dropTrailing]; exacts [ih.trans (List.suffix_cons ..), hne]
  | case3 => exact ⟨['.'], rfl⟩
  | case4 rest hne ih => rw [dropTrailing]; exacts [ih.trans ⟨['.', '/'], rfl⟩, hne]
  | case5 cs =>
    have hdone : dropTrailing cs = cs := by rw [dropTrailing] <;> assumption
    exact ⟨[], hdone⟩

private theorem length_parent?_lt {path above : String} (h : parent? path = some above) :
    above.length < path.length := by
  have hsuffix : above.toList.reverse <:+ path.toList.reverse := by
    unfold parent? at h
    split at h
    · cases h
    · cases h
    · rw [← Option.some.inj h, String.toList_ofList, List.reverse_reverse]
      exact (dropTrailing_suffix _).trans ((List.dropWhile_suffix _).trans (dropTrailing_suffix _))
  have hle := hsuffix.length_le
  rw [List.length_reverse, List.length_reverse, String.length_toList, String.length_toList] at hle
  refine lt_of_le_of_ne hle fun hlength => ?_
  -- a path that is not shorter is the same, but it lacks a part
  have hsame : above = path := by
    refine String.toList_inj.1 (List.reverse_inj.1 (hsuffix.eq_of_length ?_))
    rw [List.length_reverse, List.length_reverse, String.length_toList, String.length_toList, hlength]
  have hparts := congrArg List.length (components_of_parent? h)
  rw [hsame, List.length_dropLast] at hparts
  have hnone : components path = [] := List.eq_nil_of_length_eq_zero (by omega)
  rw [parent?, hnone] at h
  cases h

/-- The directories from one outwards, each the parent of the one before, to the last that has none. -/
inductive Outwards : String → List String → Prop
  | last {dir : String} (hlast : parent? dir = none) : Outwards dir [dir]
  | up {dir above : String} {dirs : List String} (hup : parent? dir = some above) (habove : Outwards above dirs) :
    Outwards dir (dir :: dirs)

theorem outwards_ancestors (path : String) : Outwards path (ancestors path) := by
  have hgo : ∀ fuel dir, dir.length < fuel → Outwards dir (ancestors.go fuel dir) := by
    intro fuel
    induction fuel with
    | zero => exact fun dir hlt => absurd hlt (Nat.not_lt_zero _)
    | succ fuel ih =>
      intro dir hlt
      rw [ancestors.go]
      cases hup : parent? dir with
      | none => exact .last hup
      | some above => exact .up hup (ih above (by have := length_parent?_lt hup; omega))
  exact hgo _ path (Nat.lt_succ_self _)

end ScriptHost.Path

namespace ScriptHost.Resolution

open ScriptHost.Path ScriptHost.Text

variable {d : Disk}

/-! ### The list -/

/-- The paths of a file whose extension may be missing. -/
def fileCandidates (base : String) : List String :=
  base :: [".ts", ".tsx", ".js", ".jsx", ".mjs", ".cjs", ".d.ts"].map (base ++ ·)

/-- What an entry of a manifest may stand for: a file, or the index of a directory. -/
def entryCandidates (d : Disk) (entry : String) : List String :=
  fileCandidates entry ++ if d.isDirectory entry then fileCandidates (join entry "index") else []

/-- The entries in the manifest of a directory, if it is well formed: those of its members `main`, `types` and
`typings`, in this order, that are texts. -/
def packageEntries (d : Disk) (dir : String) : List String :=
  ["main", "types", "typings"].filterMap fun field =>
    ((d.text? (join dir "package.json")).bind Json.parse?).bind fun manifest => (manifest.get? field).bind Json.text?

/-- What a directory may stand for: the entries in its manifest, and last its index. -/
def directoryCandidates (d : Disk) (dir : String) : List String :=
  if d.isDirectory dir then
    ((packageEntries d dir).flatMap fun entry => entryCandidates d (clean (join dir entry))) ++
      fileCandidates (join dir "index")
  else []

/-- What a path may stand for: a file, or else a directory. -/
def locateCandidates (d : Disk) (base : String) : List String := fileCandidates base ++ directoryCandidates d base

/-- The paths that are tried for a name, as seen from a directory.  `dirs` are the directories in which there may be
packages. -/
def candidates (d : Disk) (name dir : String) (dirs : List String) : List String :=
  if isAbsolute name then locateCandidates d (clean name)
  else if name ∈ [".", ".."] ∨ hasLead "./" name ∨ hasLead "../" name then locateCandidates d (clean (join dir name))
  else (dirs.flatMap fun above => locateCandidates d (join (join above "node_modules") name)) ++
    locateCandidates d (clean (join dir name))

/-! ### Each fallback takes the first file of its part of the list -/

private theorem orElse_eq_find? {α : Type} {p : α → Bool} {first second : List α} {a b : Option α}
    (ha : a = first.find? p) (hb : b = second.find? p) : (a.orElse fun _ => b) = (first ++ second).find? p := by
  rw [List.find?_append, ← ha, ← hb]
  cases a <;> rfl

private theorem findSome?_eq_find? {α β : Type} {p : β → Bool} {parts : α → List β} {f : α → Option β}
    (hf : ∀ a, f a = (parts a).find? p) (as : List α) : as.findSome? f = (as.flatMap parts).find? p := by
  rw [List.find?_flatMap, funext hf]

private theorem locateFile_eq (base : String) : locateFile d base = (fileCandidates base).find? d.isFile := by
  unfold locateFile fileCandidates
  rw [List.find?_cons]
  cases d.isFile base <;> rfl

private theorem locateEntry_eq (entry : String) : locateEntry d entry = (entryCandidates d entry).find? d.isFile := by
  refine orElse_eq_find? (locateFile_eq entry) ?_
  split
  · exact locateFile_eq _
  · rfl

private theorem manifestEntries_eq (dir : String) : manifestEntries d dir = packageEntries d dir := by
  unfold manifestEntries packageEntries
  cases (d.text? (join dir "package.json")).bind Json.parse? <;> rfl

private theorem locateDirectory_eq (dir : String) : locateDirectory d dir =
    (directoryCandidates d dir).find? d.isFile := by
  unfold locateDirectory directoryCandidates
  rw [manifestEntries_eq]
  split
  · exact orElse_eq_find? (findSome?_eq_find? (fun entry => locateEntry_eq _) _) (locateFile_eq _)
  · rfl

private theorem locate_eq (base : String) : locate d base = (locateCandidates d base).find? d.isFile :=
  orElse_eq_find? (locateFile_eq base) (locateDirectory_eq base)

theorem isRelative_iff {name : String} :
    isRelative name = true ↔ name ∈ [".", ".."] ∨ hasLead "./" name ∨ hasLead "../" name := by
  simp [isRelative, or_assoc]

theorem lookup_eq (name dir : String) :
    lookup d name dir = (candidates d name dir (ancestors dir)).find? d.isFile := by
  unfold lookup candidates
  simp only [← isRelative_iff]
  split
  · exact locate_eq _
  · split
    · exact locate_eq _
    · rw [List.findSome?_map]
      exact orElse_eq_find? (findSome?_eq_find? (fun above => locate_eq _) _) (locate_eq _)

/-! ### Where names are looked up -/

/-- What is above a file, and above a path with an extension. -/
private theorem exists_parent? {origin : String} (h : d.isFile origin = true ∨ Extended origin) :
    ∃ above, parent? origin = some above := by
  rcases h with hfile | ⟨stem, extension, hname, -, -⟩
  · obtain ⟨head, part, rfl, hpart⟩ := exists_part_of_ended (Disk.isAbsolute_of_isFile hfile) (Disk.ended_of_isFile hfile)
    exact ⟨_, parent?_below head hpart⟩
  · unfold fileName? at hname
    unfold parent?
    split at hname
    · rename_i hlast
      rw [hlast]
      exact ⟨_, rfl⟩
    · cases hname

/-- An origin is taken for a file if it is one, or if it has an extension and is no directory.  Names are then relative
to the directory above it, and otherwise to the origin itself. -/
theorem originDirectory_spec (d : Disk) (origin : String) :
    (d.isFile origin = true ∨ (Extended origin ∧ d.isDirectory origin = false) →
      parent? origin = some (originDirectory d origin)) ∧
    (¬ (d.isFile origin = true ∨ (Extended origin ∧ d.isDirectory origin = false)) →
      originDirectory d origin = origin) := by
  have htaken : (d.isFile origin || ((extension? origin).isSome && !d.isDirectory origin)) = true ↔
      d.isFile origin = true ∨ (Extended origin ∧ d.isDirectory origin = false) := by
    rw [Bool.or_eq_true, Bool.and_eq_true, isSome_extension?_iff, Bool.not_eq_true']
  constructor
  · intro h
    obtain ⟨above, habove⟩ := exists_parent? (h.imp_right (·.1))
    rw [originDirectory, if_pos (htaken.2 h), habove, Option.getD_some]
  · intro h
    rw [originDirectory, if_neg fun h' => h (htaken.1 h')]

/-! ### What is found -/

/-- A name is refused if and only if it is blank.  Any other name leads to the first file among its candidates, and to
nothing if and only if none of them is a file. -/
theorem nodeResolver_firstMatch (d : Disk) (name origin : String) :
    ∃ dirs, Outwards (originDirectory d origin) dirs ∧
      (nodeResolver.resolve d name origin = .error (.blank name) ↔ ∀ c ∈ name.toList, isBlank c = true) ∧
      (∀ path, nodeResolver.resolve d name origin = .ok path ↔ (∃ c ∈ name.toList, isBlank c = false) ∧
        (candidates d name (originDirectory d origin) dirs).find? d.isFile = some path) ∧
      (nodeResolver.resolve d name origin = .error (.notFound name origin) ↔ (∃ c ∈ name.toList, isBlank c = false) ∧
        ∀ path ∈ candidates d name (originDirectory d origin) dirs, d.isFile path = false) := by
  refine ⟨_, outwards_ancestors _, ?_⟩
  simp only [nodeResolver]
  rw [resolveOnDisk, lookup_eq]
  generalize candidates d name (originDirectory d origin) (ancestors (originDirectory d origin)) = paths
  have hnotBlank : (∃ c ∈ name.toList, isBlank c = false) ↔ ¬ (trim name).isEmpty = true := by
    rw [isEmpty_trim]
    push Not
    simp only [Bool.not_eq_true]
  have hnone : (∀ path ∈ paths, d.isFile path = false) ↔ paths.find? d.isFile = none := by
    simp only [List.find?_eq_none, Bool.not_eq_true]
  rw [hnotBlank, hnone, ← isEmpty_trim]
  by_cases hblank : (trim name).isEmpty = true
  · simp [hblank]
  · rw [if_neg hblank]
    cases paths.find? d.isFile <;> simp [hblank]

end ScriptHost.Resolution
