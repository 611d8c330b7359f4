import Mathlib.Data.List.Basic
import ScriptHost.Path.Script
import ScriptHost.Proofs.Path.Canonical
import ScriptHost.Proofs.Path.Ending
import ScriptHost.Resolution.Lookup

/-!
# Texts that are not looked at

Where modules are found depends on which files there are and on the texts of manifests, and on no other text.  So the
same is found on two disks that differ in the text of a declaration file (`Disk.Retold`, `resolveOnDisk_of_retold`).
-/

namespace ScriptHost

open ScriptHost.Path ScriptHost.Text

namespace Disk

variable {d d' : Disk} {place : Place}

/-- Two disks have the same files and directories, and the same texts but for that of one file. -/
structure Retold (place : Place) (d d' : Disk) : Prop where
  elsewhere : ∀ q, q ≠ place → d'.entry? q = d.entry? q
  there : ∃ s s', d.entry? place = some (.file (.text s)) ∧ d'.entry? place = some (.file (.text s'))

namespace Retold

private theorem follow (hd : Retold place d d') (start : Place) (parts : List String) :
    d'.follow start parts = d.follow start parts := by
  obtain ⟨s, s', hs, hs'⟩ := hd.there
  induction parts generalizing start with
  | nil =>
    by_cases hq : start = place
    · subst hq
      simp [Disk.follow, hs, hs']
    · simp only [Disk.follow, hd.elsewhere start hq]
  | cons part rest ih =>
    by_cases hq : start = place
    · subst hq
      simp [Disk.follow, hs, hs']
    · simp only [Disk.follow, hd.elsewhere start hq, ih]

private theorem locate (hd : Retold place d d') (path : String) : d'.locate path = d.locate path := by
  unfold Disk.locate
  split
  · exact hd.follow _ _
  · rfl

/-- Paths that lead to other places lead to the same things. -/
private theorem lookup (hd : Retold place d d') {path : String} (hpath : d.locate path ≠ .ok place) :
    d'.lookup path = d.lookup path := by
  unfold Disk.lookup
  rw [hd.locate]
  cases hq : d.locate path with
  | error cause => rfl
  | ok q =>
    have hne : q ≠ place := fun heq => hpath (heq ▸ hq)
    show ((d'.entry? q).map Except.ok).getD _ = ((d.entry? q).map Except.ok).getD _
    rw [hd.elsewhere q hne]

private theorem lookup_there (hd : Retold place d d') {path : String} (hpath : d.locate path = .ok place) :
    ∃ s s', d.lookup path = .ok (.file (.text s)) ∧ d'.lookup path = .ok (.file (.text s')) := by
  obtain ⟨s, s', hs, hs'⟩ := hd.there
  have hpath' : d'.locate path = .ok place := (hd.locate path).trans hpath
  refine ⟨s, s', ?_, ?_⟩
  · rw [Disk.lookup, hpath]
    show ((d.entry? place).map Except.ok).getD _ = _
    rw [hs]
    rfl
  · rw [Disk.lookup, hpath']
    show ((d'.entry? place).map Except.ok).getD _ = _
    rw [hs']
    rfl

theorem isFile (hd : Retold place d d') : d'.isFile = d.isFile := by
  funext path
  unfold Disk.isFile
  by_cases hpath : d.locate path = .ok place
  · obtain ⟨s, s', hs, hs'⟩ := hd.lookup_there hpath
    rw [hs, hs']
  · rw [hd.lookup hpath]

private theorem isDirectory (hd : Retold place d d') : d'.isDirectory = d.isDirectory := by
  funext path
  unfold Disk.isDirectory
  by_cases hpath : d.locate path = .ok place
  · obtain ⟨s, s', hs, hs'⟩ := hd.lookup_there hpath
    rw [hs, hs']
  · rw [hd.lookup hpath]

private theorem read (hd : Retold place d d') {path : String} (hpath : d.locate path ≠ .ok place) :
    d'.read path = d.read path := by
  rw [Disk.read, Disk.read, hd.lookup hpath]

theorem load (hd : Retold place d d') {path : String} (hpath : d.locate path ≠ .ok place) :
    d'.load path = d.load path := by
  rw [Disk.load, Disk.load, hd.read hpath]

end Retold

/-- An entry that is put below a directory is there, and nothing else changes. -/
private theorem entry_of_place {name : String} {above : Place} (hdir : d.entry? above = some .directory)
    (hnew : d.entry? (name :: above) ≠ some .directory) (e : Entry) (q : Place) :
    Disk.entry? (d.place name above e) q = if q = name :: above then some e else d.entry? q := by
  unfold place
  rw [dif_pos ⟨hdir, hnew⟩]
  cases q with
  | nil => rfl
  | cons n rest => exact Table.get?_insert ..

/-- Different texts that are written to a file make for disks that differ in its text. -/
theorem retold_write {path name : String} {above : Place} (hfile : path.toList.getLast? ≠ some '/')
    (hplace : placeOf path = name :: above) (hdir : Disk.entry? (d.makeDirectories above) above = some .directory)
    (hnew : Disk.entry? (d.makeDirectories above) (name :: above) ≠ some .directory) (s s' : String) :
    Retold (name :: above) (d.write path (.text s)) (d.write path (.text s')) := by
  unfold write
  rw [if_neg hfile, if_neg hfile, hplace]
  unfold writePlace
  refine ⟨fun q hq => ?_, s, s', ?_, ?_⟩
  · rw [entry_of_place hdir hnew, entry_of_place hdir hnew, if_neg hq, if_neg hq]
  · rw [entry_of_place hdir hnew, if_pos rfl]
  · rw [entry_of_place hdir hnew, if_pos rfl]

/-! ### The last names of paths -/

/-- Names lead to a place that has the last of them. -/
private theorem head?_of_follow {start q : Place} {before : List String} {name : String}
    (hname : name ≠ "" ∧ name ≠ "." ∧ name ≠ "..") (hq : d.follow start (before ++ [name]) = .ok q) :
    q.head? = some name := by
  induction before generalizing start with
  | nil =>
    rw [List.nil_append] at hq
    unfold follow at hq
    split at hq
    · cases hq
    · cases hq
    · rw [if_neg (by simp [hname.1, hname.2.1]), if_neg hname.2.2] at hq
      unfold follow at hq
      split at hq
      · cases hq
        rfl
      · cases hq
  | cons part rest ih =>
    rw [List.cons_append] at hq
    unfold follow at hq
    split at hq
    · cases hq
    · cases hq
    · split at hq
      · exact ih hq
      · split at hq <;> exact ih hq

private theorem head?_of_locate {base tail : List Char} (hslash : '/' ∉ tail) (hlong : 2 < tail.length) {q : Place}
    (hq : d.locate (String.ofList (base ++ tail)) = .ok q) :
    ∃ name, q.head? = some (String.ofList (name ++ tail)) := by
  unfold locate segments at hq
  rw [String.toList_ofList] at hq
  by_cases hbase : '/' ∈ base
  · obtain ⟨last, rest, hsplit, hlast⟩ := List.eq_append_cons_of_mem (List.mem_reverse.2 hbase)
    have hreverse : base = rest.reverse ++ '/' :: last.reverse := by
      rw [← List.reverse_reverse base, hsplit]
      simp
    have hname : '/' ∉ last.reverse ++ tail := by simp [hlast, hslash]
    rw [hreverse, List.append_assoc, List.cons_append, splitSlashes_append, splitSlashes_of_not_mem hname,
      List.map_append] at hq
    refine ⟨last.reverse, ?_⟩
    -- the name is too long to be one of those that do not count
    have hcounts : String.ofList (last.reverse ++ tail) ≠ "" ∧ String.ofList (last.reverse ++ tail) ≠ "." ∧
        String.ofList (last.reverse ++ tail) ≠ ".." := by
      have hlength : ∀ s : String, s.toList.length ≤ 2 → String.ofList (last.reverse ++ tail) ≠ s := by
        rintro s hs rfl
        rw [String.toList_ofList, List.length_append] at hs
        omega
      exact ⟨hlength _ (by decide), hlength _ (by decide), hlength _ (by decide)⟩
    obtain ⟨s, more, hs⟩ := exists_splitSlashes_cons rest.reverse
    rw [hs, List.map_cons, List.map_cons, List.cons_append] at hq
    split at hq
    · rename_i parts rest' heq
      obtain ⟨-, heq⟩ := List.cons.inj heq
      rw [← heq] at hq
      exact head?_of_follow hcounts hq
    · cases hq
  · -- a path without slashes leads nowhere
    have hnone : '/' ∉ base ++ tail := by simp [hbase, hslash]
    rw [splitSlashes_of_not_mem hnone] at hq
    split at hq
    · rename_i heq
      simp at heq
    · cases hq

private theorem locate_manifest_ne {declaration : String} (hdecl : hasTail declarationExtension declaration = true)
    (hplace : d.locate declaration = .ok place) (dir : String) : d.locate (join dir "package.json") ≠ .ok place := by
  intro hmanifest
  obtain ⟨base, rfl⟩ := hasTail_iff.1 hdecl
  have hbase : base ++ declarationExtension = String.ofList (base.toList ++ declarationExtension.toList) := by simp
  rw [hbase] at hplace
  obtain ⟨name, hname⟩ := head?_of_locate (by decide) (by decide) hplace
  obtain ⟨above, habove⟩ : ∃ above, join dir "package.json" = String.ofList (above ++ "package.json".toList) := by
    unfold join
    rw [if_neg (by decide)]
    split
    · exact ⟨dir.toList, by simp⟩
    · exact ⟨dir.toList ++ ['/'], by simp [← String.toList_inj]⟩
  rw [habove] at hmanifest
  obtain ⟨name', hname'⟩ := head?_of_locate (by decide) (by decide) hmanifest
  rw [hname] at hname'
  -- the names end differently
  have hlast := congrArg List.getLast? (String.ofList_injective (Option.some.inj hname'))
  simp [declarationExtension] at hlast

end Disk

namespace Resolution

variable {d d' : Disk} {place : Place}

/-- No module is found elsewhere because a declaration file has another text. -/
theorem resolveOnDisk_of_retold (hd : d.Retold place d') {declaration : String}
    (hdecl : hasTail declarationExtension declaration = true) (hplace : d.locate declaration = .ok place) :
    resolveOnDisk d' = resolveOnDisk d := by
  have hmanifest : manifestEntries d' = manifestEntries d := by
    funext dir
    unfold manifestEntries Disk.text?
    rw [hd.read (Disk.locate_manifest_ne hdecl hplace dir)]
  have hfile : locateFile d' = locateFile d := by
    funext base
    simp only [locateFile, Disk.firstExisting, hd.isFile]
  have hentry : locateEntry d' = locateEntry d := by
    funext entry
    simp only [locateEntry, hfile, hd.isDirectory]
  have hdirectory : locateDirectory d' = locateDirectory d := by
    funext dir
    simp only [locateDirectory, hmanifest, hentry, hfile, hd.isDirectory]
  have hlocate : locate d' = locate d := by
    funext base
    simp only [locate, hfile, hdirectory]
  have horigin : originDirectory d' = originDirectory d := by
    funext origin
    simp only [originDirectory, hd.isFile, hd.isDirectory]
  funext name origin
  simp only [resolveOnDisk, lookup, hlocate, horigin]

end Resolution

end ScriptHost
