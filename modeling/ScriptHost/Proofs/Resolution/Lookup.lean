import Mathlib.Data.List.TakeWhile
import ScriptHost.Path.Script
import ScriptHost.Proofs.Path.Canonical
import ScriptHost.Resolution.Lookup

/-!
# The paths that are looked up

Modules that are named by names alone, and paths that do not lead above the root, are found under paths that consist of
names alone (`canonical_of_resolveOnDisk`).  Such a path is the only one of its kind for a file: its names are those that
lead to the file on the disk (`Disk.locate_pathOf`).
-/

namespace ScriptHost.Disk

open ScriptHost.Path

variable {d : Disk} {place : Place}

theorem follow_eq_ok {start q : Place} {names : List String} (hnames : Named names)
    (hq : d.follow start names = .ok q) : q = names.reverse ++ start ∧ (d.entry? q).isSome := by
  induction names generalizing start with
  | nil =>
    unfold follow at hq
    split at hq
    · cases hq
      exact ⟨rfl, ‹_›⟩
    · cases hq
  | cons name names ih =>
    obtain ⟨⟨hpart, hup⟩, hnames⟩ := List.forall_mem_cons.1 hnames
    unfold follow at hq
    split at hq
    · cases hq
    · cases hq
    · rw [if_neg (by simp [hpart.ne_empty, hpart.ne_dot]), if_neg hup] at hq
      obtain ⟨rfl, hsome⟩ := ih hnames hq
      exact ⟨by simp, hsome⟩

/-- The parts of a path are followed from the root. -/
theorem locate_pathOf_cons {part : String} (hplace : ∀ p ∈ part :: place, Part p) :
    d.locate (pathOf (part :: place)) = d.follow [] (part :: place).reverse := by
  unfold locate
  rw [segments_pathOf hplace]
  cases hr : (part :: place).reverse with
  | nil => simp at hr
  | cons first rest => rfl

theorem locate_pathOf (hplace : Named place) {q : Place} (hq : d.locate (pathOf place) = .ok q) : q = place := by
  cases place with
  | nil =>
    have hroot : d.locate (pathOf []) = .ok [] := by
      show d.follow [] [""] = _
      simp [follow, entry?]
    rw [hroot] at hq
    cases hq
    rfl
  | cons name place =>
    have hreverse : Named (name :: place).reverse := fun part hpart => hplace part (List.mem_reverse.1 hpart)
    rw [locate_pathOf_cons hplace.parts] at hq
    simpa using (follow_eq_ok hreverse hq).1

private theorem entry?_of_lookup (hplace : Named place) {e : Entry} (he : d.lookup (pathOf place) = .ok e) :
    d.entry? place = some e := by
  unfold lookup at he
  cases hq : d.locate (pathOf place) with
  | error cause =>
    rw [hq] at he
    cases he
  | ok q =>
    rw [hq, locate_pathOf hplace hq] at he
    change ((d.entry? place).map Except.ok).getD _ = _ at he
    cases hentry : d.entry? place with
    | none =>
      rw [hentry] at he
      cases he
    | some e' =>
      rw [hentry] at he
      cases he
      rfl

theorem lookup_of_load {path text : String} (h : d.load path = .ok text) :
    d.lookup path = .ok (.file (.text text)) := by
  unfold load read at h
  cases hl : d.lookup path with
  | error cause => rw [hl] at h; cases h
  | ok e =>
    rw [hl] at h
    obtain (content | _) := e
    · cases content <;> cases h
      rfl
    · cases h

theorem entry?_of_load (hplace : Named place) {text : String} (h : d.load (pathOf place) = .ok text) :
    d.entry? place = some (.file (.text text)) :=
  entry?_of_lookup hplace (lookup_of_load h)

theorem isFile_of_load {path text : String} (h : d.load path = .ok text) : d.isFile path = true := by
  rw [isFile, lookup_of_load h]

private theorem entry?_of_isDirectory (hplace : Named place) (h : d.isDirectory (pathOf place) = true) :
    d.entry? place = some .directory := by
  unfold isDirectory at h
  split at h
  · exact entry?_of_lookup hplace ‹_›
  · cases h

/-- The files on a disk that hold texts, each with its text. -/
def texts (d : Disk) : List (Place × String) :=
  d.entries.entries.filterMap fun x => match x with
    | (place, .file (.text s)) => some (place, s)
    | _ => none

/-- The directories on a disk. -/
def directories (d : Disk) : List Place :=
  [] :: d.entries.entries.filterMap fun x => match x with
    | (place, .directory) => some place
    | _ => none

theorem mem_texts {text : String} (h : d.entry? place = some (.file (.text text))) : (place, text) ∈ d.texts := by
  cases place with
  | nil => cases h
  | cons name above => exact List.mem_filterMap.2 ⟨_, Table.mem_entries_of_get? h, rfl⟩

private theorem mem_directories (h : d.entry? place = some .directory) : place ∈ d.directories := by
  cases place with
  | nil => exact List.mem_cons_self
  | cons name above =>
    exact List.mem_cons_of_mem _ (List.mem_filterMap.2 ⟨_, Table.mem_entries_of_get? h, rfl⟩)

end ScriptHost.Disk

namespace ScriptHost.Resolution

open ScriptHost.Path ScriptHost.Text
open ScriptHost.Disk (pathOf)

/-- A path that spells a place by names alone. -/
def Canonical (path : String) : Prop := ∃ place : Place, Named place ∧ path = pathOf place

/-- A path that does not lead above the root. -/
def Grounded (path : String) : Prop := Component.parent ∉ components (clean path)

instance (path : String) : Decidable (Grounded path) := inferInstanceAs (Decidable (¬ _))

/-- As seen from a directory, a name leads to files in one way only: it is no shim path, and it is either a path that
does not lead above the root or that of a package or of something in a package, without dots between its slashes. -/
def Direct (dir name : String) : Prop :=
  isShim name = false ∧
    if isAbsolute name || isRelative name then Grounded (join dir name)
    else ∀ part ∈ segments name, part ∉ ["", ".", ".."]

instance (dir name : String) : Decidable (Direct dir name) := inferInstanceAs (Decidable (_ ∧ ite _ _ _))

/-- No manifest on a disk leads above the root. -/
def ManifestsGrounded (d : Disk) : Prop :=
  ∀ place ∈ d.directories, ∀ entry ∈ manifestEntries d (pathOf place), Grounded (join (pathOf place) entry)

instance (d : Disk) : Decidable (ManifestsGrounded d) := inferInstanceAs (Decidable (∀ place ∈ d.directories, _))

variable {d : Disk}

/-! ### Canonical paths -/

private theorem canonical_clean {path : String} (ha : isAbsolute path = true) (hg : Grounded path) : Canonical
    (clean path) :=
  clean_eq_pathOf_named ha hg

theorem named_append {part ending : String} (hpart : '/' ∉ part.toList) (hlen : 2 < ending.length)
    (hslash : '/' ∉ ending.toList) : Part (part ++ ending) ∧ part ++ ending ≠ ".." := by
  have hne : ∀ s : String, s.length ≤ 2 → part ++ ending ≠ s := by
    rintro s hs rfl
    rw [String.length_append] at hs
    omega
  refine ⟨⟨hne "" (by decide), hne "." (by decide), ?_⟩, hne ".." (by decide)⟩
  rw [String.toList_append, List.mem_append, not_or]
  exact ⟨hpart, hslash⟩

/-- With an ending that is more than dots, the last part of a path is a name. -/
theorem exists_pathOf_append {place : Place} (hplace : ∀ part ∈ place, Part part) {ending : String}
    (hlen : 2 < ending.length) (hslash : '/' ∉ ending.toList) :
    ∃ name, (Part name ∧ name ≠ "..") ∧ pathOf place ++ ending = pathOf (name :: place.tail) := by
  cases place with
  | nil =>
    have hname := @named_append "" ending (by decide) hlen hslash
    rw [String.empty_append] at hname
    refine ⟨ending, hname, String.toList_inj.1 ?_⟩
    rw [String.toList_append, Path.toList_pathOf_nil, toList_pathOf_cons, List.tail_nil, spelled_cons]
    rfl
  | cons part place =>
    obtain ⟨hpart, -⟩ := List.forall_mem_cons.1 hplace
    exact ⟨part ++ ending, named_append hpart.slash hlen hslash, pathOf_append part ending place⟩

theorem Canonical.append {path ending : String} (hp : Canonical path) (hlen : 2 < ending.length)
    (hslash : '/' ∉ ending.toList) : Canonical (path ++ ending) := by
  obtain ⟨place, hplace, rfl⟩ := hp
  obtain ⟨name, hname, heq⟩ := exists_pathOf_append hplace.parts hlen hslash
  refine ⟨name :: place.tail, List.forall_mem_cons.2 ⟨hname, fun part hpart => ?_⟩, heq⟩
  exact hplace part (List.mem_of_mem_tail hpart)

theorem named_segments {name : String} (hname : ∀ part ∈ segments name, part ∉ ["", ".", ".."]) :
    Named (segments name) := by
  intro part hpart
  have hdots := hname part hpart
  simp only [List.mem_cons, List.not_mem_nil, or_false, not_or] at hdots
  obtain ⟨cs, hcs, rfl⟩ := List.mem_map.1 hpart
  exact ⟨⟨hdots.1, hdots.2.1, by simpa using not_mem_of_mem_splitSlashes hcs⟩, hdots.2.2⟩

private theorem Canonical.join {path : String} (hp : Canonical path) {name : String} (ha : isAbsolute name = false)
    (hname : ∀ part ∈ segments name, part ∉ ["", ".", ".."]) : Canonical (join path name) := by
  obtain ⟨place, hplace, rfl⟩ := hp
  refine ⟨(segments name).reverse ++ place, fun part hpart => ?_, join_pathOf hplace.parts ha⟩
  rcases List.mem_append.1 hpart with hpart | hpart
  · exact named_segments hname part (List.mem_reverse.1 hpart)
  · exact hplace part hpart

private theorem Canonical.clean {path : String} (hp : Canonical path) : Canonical (Path.clean path) := by
  obtain ⟨place, hplace, rfl⟩ := hp
  exact ⟨place, hplace, clean_pathOf hplace⟩

private theorem Canonical.isAbsolute_join {path : String} (hp : Canonical path) (name : String) :
    isAbsolute (Path.join path name) = true := by
  obtain ⟨place, hplace, rfl⟩ := hp
  cases ha : isAbsolute name with
  | true => rwa [Path.join, if_pos ha]
  | false =>
    unfold isAbsolute
    rw [toList_join_pathOf hplace.parts ha]
    cases place with
    | nil => rfl
    | cons part place =>
      obtain ⟨rest, hrest⟩ := exists_spelled_cons part place
      rw [hrest]
      rfl

/-! ### Looking up -/

/-- Every part of the lookup takes canonical paths to canonical paths. -/
private theorem canonical_of_locateFile {base path : String} (hb : Canonical base) (h : locateFile d base = some path) :
    Canonical path := by
  unfold locateFile at h
  split at h
  · cases h
    exact hb
  · obtain ⟨ending, hending, rfl⟩ := List.mem_map.1 (List.mem_of_find?_eq_some h)
    have htried : ∀ ending ∈ triedExtensions, 2 < ending.length ∧ '/' ∉ ending.toList := by decide
    exact hb.append (htried ending hending).1 (htried ending hending).2

private theorem of_orElse {α : Type} {a : Option α} {b : Unit → Option α} {x : α} (h : a.orElse b = some x) :
    a = some x ∨ b () = some x := by
  cases a with
  | none => exact .inr h
  | some _ => exact .inl h

private theorem canonical_of_locateEntry {entry path : String} (he : Canonical entry)
    (h : locateEntry d entry = some path) : Canonical path := by
  unfold locateEntry at h
  rcases of_orElse h with h | h
  · exact canonical_of_locateFile he h
  · split at h
    · exact canonical_of_locateFile (he.join (by decide) (by decide)) h
    · cases h

private theorem canonical_of_locateDirectory (hd : ManifestsGrounded d) {dir path : String} (hdir : Canonical dir)
    (h : locateDirectory d dir = some path) : Canonical path := by
  unfold locateDirectory at h
  split at h
  · rename_i hdirectory
    rcases of_orElse h with h | h
    · obtain ⟨entry, hentry, h⟩ := List.exists_of_findSome?_eq_some h
      obtain ⟨place, hplace, rfl⟩ := hdir
      have hgrounded := hd place (Disk.mem_directories (Disk.entry?_of_isDirectory hplace hdirectory)) entry hentry
      have habsolute := Canonical.isAbsolute_join ⟨place, hplace, rfl⟩ entry
      exact canonical_of_locateEntry (canonical_clean habsolute hgrounded) h
    · exact canonical_of_locateFile (hdir.join (by decide) (by decide)) h
  · cases h

private theorem canonical_of_locate (hd : ManifestsGrounded d) {base path : String} (hb : Canonical base)
    (h : locate d base = some path) : Canonical path := by
  unfold locate at h
  rcases of_orElse h with h | h
  · exact canonical_of_locateFile hb h
  · exact canonical_of_locateDirectory hd hb h

private theorem canonical_of_lookup (hd : ManifestsGrounded d) {name dir path : String} (hdir : Canonical dir)
    (hname : Direct dir name) (h : lookup d name dir = some path) : Canonical path := by
  obtain ⟨-, hname⟩ := hname
  unfold lookup at h
  cases ha : isAbsolute name with
  | true =>
    rw [ha, Bool.true_or, if_pos rfl, join, if_pos ha] at hname
    rw [if_pos ha] at h
    exact canonical_of_locate hd (canonical_clean ha hname) h
  | false =>
    rw [ha, if_neg (by decide)] at h
    cases hr : isRelative name with
    | true =>
      rw [ha, hr, if_pos (by decide)] at hname
      rw [hr, if_pos rfl] at h
      exact canonical_of_locate hd (canonical_clean (hdir.isAbsolute_join name) hname) h
    | false =>
      rw [ha, hr, if_neg (by decide)] at hname
      rw [hr, if_neg (by decide)] at h
      rcases of_orElse h with h | h
      · -- a package in a directory above
        obtain ⟨candidate, hcandidate, h⟩ := List.exists_of_findSome?_eq_some h
        obtain ⟨above, habove, rfl⟩ := List.mem_map.1 hcandidate
        obtain ⟨place, hplace, rfl⟩ := hdir
        obtain ⟨q, hq, rfl⟩ := mem_ancestors_pathOf hplace.parts habove
        have hcanonical : Canonical (pathOf q) := ⟨q, fun part hpart => hplace part (hq.subset hpart), rfl⟩
        exact canonical_of_locate hd ((hcanonical.join (by decide) (by decide)).join ha hname) h
      · exact canonical_of_locate hd (hdir.join ha hname).clean h

theorem canonical_of_resolveOnDisk (hd : ManifestsGrounded d) {name origin path : String}
    (hdir : Canonical (originDirectory d origin)) (hname : Direct (originDirectory d origin) name)
    (h : resolveOnDisk d name origin = .ok path) : Canonical path := by
  unfold resolveOnDisk at h
  split at h
  · cases h
  · cases hl : lookup d name (originDirectory d origin) with
    | none =>
      rw [hl] at h
      cases h
    | some found =>
      rw [hl] at h
      cases h
      exact canonical_of_lookup hd hdir hname hl

theorem canonical_of_nodeResolver (hd : ManifestsGrounded d) {name origin path : String}
    (hdir : Canonical (originDirectory d origin)) (hname : Direct (originDirectory d origin) name)
    (h : nodeResolver.resolve d name origin = .ok path) : Canonical path := by
  simp only [nodeResolver] at h
  exact canonical_of_resolveOnDisk hd hdir hname h

/-- The names in a file are seen from the directory that it is in. -/
theorem originDirectory_of_isFile {name : String} {place : Place} (hplace : ∀ part ∈ name :: place, Part part)
    (h : d.isFile (pathOf (name :: place)) = true) : originDirectory d (pathOf (name :: place)) = pathOf place := by
  rw [originDirectory, h, Bool.true_or, if_pos rfl, parent?_pathOf hplace, Option.getD_some]

/-! ### Files -/

private theorem Canonical.isAbsolute {path : String} (hp : Canonical path) : Path.isAbsolute path = true := by
  obtain ⟨place, hplace, rfl⟩ := hp
  cases place with
  | nil => decide
  | cons part place =>
    obtain ⟨rest, hrest⟩ := exists_spelled_cons part place
    rw [Path.isAbsolute, toList_pathOf_cons, hrest]
    rfl

theorem isEmpty_trim {name : String} : (trim name).isEmpty = true ↔ ∀ c ∈ name.toList, isBlank c = true := by
  have hend : ∀ cs, dropEndWhile isBlank cs = [] ↔ ∀ c ∈ cs, isBlank c = true := by
    intro cs
    unfold dropEndWhile
    rw [List.reverse_eq_nil_iff, List.dropWhile_eq_nil_iff]
    simp only [List.mem_reverse]
  rw [String.isEmpty_iff, ← String.toList_eq_nil_iff, trim, trimEnd, trimEndWhile, String.toList_ofList, hend, trimStart,
    trimStartWhile, String.toList_ofList]
  constructor
  · intro hblank c hc
    -- what is dropped at the start is blank, and so is the rest
    rw [← List.takeWhile_append_dropWhile (p := isBlank) (l := name.toList), List.mem_append] at hc
    exact hc.elim List.mem_takeWhile_imp (hblank c)
  · exact fun hblank c hc => hblank c ((List.dropWhile_suffix isBlank).subset hc)

/-- An absolute path is not blank, because of the slash at its start. -/
private theorem not_blank_of_isAbsolute {path : String} (ha : isAbsolute path = true) :
    (trim path).isEmpty = false := by
  have hslash : '/' ∈ path.toList := List.mem_of_mem_head? (by simpa [isAbsolute] using ha)
  rw [Bool.eq_false_iff, Ne, isEmpty_trim]
  exact fun hblank => absurd (hblank '/' hslash) (by decide)

/-- The path of a file stands for that file if it is clean. -/
theorem nodeResolver_of_clean {path : String} (ha : Path.isAbsolute path = true) (hc : Path.clean path = path)
    (hf : d.isFile path = true) (origin : String) : nodeResolver.resolve d path origin = .ok path := by
  have hlookup : lookup d path (originDirectory d origin) = some path := by
    rw [lookup, if_pos ha, hc, locate, locateFile, if_pos hf]
    rfl
  simp only [nodeResolver]
  rw [resolveOnDisk, not_blank_of_isAbsolute ha, if_neg (by decide), hlookup]
  rfl

theorem nodeResolver_of_isFile {path : String} (hp : Canonical path) (hf : d.isFile path = true) (origin : String) :
    nodeResolver.resolve d path origin = .ok path := by
  refine nodeResolver_of_clean hp.isAbsolute ?_ hf origin
  obtain ⟨place, hplace, rfl⟩ := hp
  exact clean_pathOf hplace

end ScriptHost.Resolution
