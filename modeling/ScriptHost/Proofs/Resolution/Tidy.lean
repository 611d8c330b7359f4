import ScriptHost.Proofs.Path.Normal
import ScriptHost.Proofs.Path.Stem
import ScriptHost.Proofs.Resolution.Origin

/-!
# How found paths are spelled

A found path that is clean stands for itself, and there is one such path for a file, or two if one of them leads above
the root first.  Every path that is looked up has been cleaned, except those of packages: they are joined as they are
named.  So the path of a file in a package is not clean if the name of the package, or the directory in which it is, is
spelled with more than names (`Misspelled`), and those are the only ones (`found_tidy_iff`).
-/

namespace ScriptHost.Path

open ScriptHost.Disk (pathOf)
open ScriptHost.Resolution (exists_pathOf_append named_segments)

/-! ### Clean paths -/

/-- An absolute path that is clean. -/
structure Tidy (path : String) : Prop where
  absolute : isAbsolute path = true
  clean : clean path = path

private theorem tidy_clean {path : String} (ha : isAbsolute path = true) : Tidy (clean path) := by
  refine ⟨isAbsolute_clean.trans ha, ?_⟩
  rw [clean_eq_clean_iff isAbsolute_clean, course_clean]
  exact ⟨Nat.mod_mod _ 2, rfl⟩

/-- A clean path leads over names, and before that above the root at most once. -/
private theorem tidy_iff {path : String} :
    Tidy path ↔ ∃ k inward, k ≤ 1 ∧ Named inward ∧ path = pathOf (inward ++ List.replicate k "..") := by
  have hreverse : ∀ k (inward : Place), (inward ++ List.replicate k "..").reverse =
      List.replicate k ".." ++ inward.reverse := by
    simp
  constructor
  · rintro ⟨ha, hc⟩
    refine ⟨(course path).ups % 2, (course path).inward, by omega, fun part hpart => ?_, ?_⟩
    · refine ⟨part_of_mem_inward hpart, ?_⟩
      rintro rfl
      exact not_mem_inward (names path) hpart
    · rw [← written_true, hreverse, ← ha, ← clean_eq_written, hc]
  · rintro ⟨k, inward, hk, hinward, rfl⟩
    have hparts : ∀ part ∈ List.replicate k ".." ++ inward.reverse, Part part := by
      intro part hpart
      rw [← hreverse, List.mem_reverse] at hpart
      exact part_of_mem_ups hinward.parts k part hpart
    have habsolute := isAbsolute_written hparts true
    have hcourse : course (written true (List.replicate k ".." ++ inward.reverse)) = ⟨k, inward⟩ := by
      rw [course, names_written hparts]
      exact courseOver_replicate_append k fun hmem => (hinward _ hmem).2 rfl
    rw [← written_true, hreverse]
    refine ⟨habsolute, ?_⟩
    rw [clean_eq_written, habsolute, hcourse, Nat.mod_eq_of_lt (by omega : k < 2)]

private theorem Tidy.append {path ending : String} (hp : Tidy path) (hlen : 2 < ending.length)
    (hslash : '/' ∉ ending.toList) : Tidy (path ++ ending) := by
  obtain ⟨k, inward, hk, hinward, rfl⟩ := tidy_iff.1 hp
  obtain ⟨name, hname, heq⟩ := exists_pathOf_append (part_of_mem_ups hinward.parts k) hlen hslash
  rw [heq, tidy_iff]
  cases inward with
  | nil =>
    -- a step above the root becomes a name
    refine ⟨0, [name], by omega, by simpa [Named] using hname, ?_⟩
    obtain rfl | rfl : k = 0 ∨ k = 1 := by omega
    · rfl
    · rfl
  | cons first rest =>
    exact ⟨k, name :: rest, hk, List.forall_mem_cons.2 ⟨hname, (List.forall_mem_cons.1 hinward).2⟩, rfl⟩

private theorem isAbsolute_join_of_isAbsolute {base : String} (hb : isAbsolute base = true) (path : String) :
    isAbsolute (join base path) = true := by
  cases hp : isAbsolute path with
  | true => rwa [join, if_pos hp]
  | false => rw [isAbsolute_join hp, hb]

/-! ### Joined paths -/

private theorem segments_injective {path path' : String} (h : segments path = segments path') : path = path' := by
  have hsplit : splitSlashes path.toList = splitSlashes path'.toList :=
    List.map_injective_iff.2 (fun _ _ => String.ofList_injective) h
  have hslash := flatMap_splitSlashes path.toList
  rw [hsplit, flatMap_splitSlashes] at hslash
  exact (String.toList_inj.1 (List.cons.inj hslash).2).symm

private theorem eq_pathOf_iff {path : String} {place : Place} (hne : place ≠ []) (hplace : ∀ part ∈ place, Part part) :
    path = pathOf place ↔ segments path = "" :: place.reverse := by
  obtain ⟨part, above, rfl⟩ := List.exists_cons_of_ne_nil hne
  rw [← segments_pathOf hplace]
  exact ⟨congrArg segments, segments_injective⟩

private theorem Part.segments {part : String} (hpart : Part part) : segments part = [part] := by
  rw [Path.segments, splitSlashes_of_not_mem hpart.slash]
  simp

private theorem exists_segments_join (base : String) {name : String} (hname : Part name) :
    ∃ front, segments (join base name) = front ++ [name] := by
  by_cases hbase : base = ""
  · subst hbase
    have hjoined : join "" name = name := by simp [join]
    exact ⟨[], by rw [hjoined, hname.segments, List.nil_append]⟩
  · obtain ⟨head, hjoined, -⟩ := join_eq_below hbase hname.isAbsolute
    exact ⟨segments head, by rw [hjoined, segments_below, hname.segments]⟩

/-- What is joined to a path that ends in a name comes after it. -/
private theorem segments_join_of_part {base file : String} {front : List String} {name : String} (hname : Part name)
    (hbase : segments base = front ++ [name]) (hfile : isAbsolute file = false) :
    segments (join base file) = segments base ++ segments file := by
  have hne : base ≠ "" := by
    rintro rfl
    have hlast := congrArg List.getLast? hbase
    rw [List.getLast?_concat] at hlast
    exact hname.ne_empty (Option.some.inj hlast).symm
  obtain ⟨head, hjoined, rfl | rfl⟩ := join_eq_below hne hfile
  · rw [hjoined, segments_below]
  · -- nothing comes after a slash at the end
    have hend : segments (head ++ "/") = segments head ++ [""] := by
      rw [← @String.append_empty (head ++ "/"), segments_below]
      rfl
    rw [hend] at hbase
    exact absurd (List.append_inj' hbase rfl).2 (by simpa using Ne.symm hname.ne_empty)

private theorem Tidy.join {base file : String} (hb : Tidy base) (hfile : isAbsolute file = false)
    (hnames : ∀ part ∈ segments file, part ∉ ["", ".", ".."]) : Tidy (join base file) := by
  obtain ⟨k, inward, hk, hinward, rfl⟩ := tidy_iff.1 hb
  rw [join_pathOf (part_of_mem_ups hinward.parts k) hfile, tidy_iff]
  refine ⟨k, (segments file).reverse ++ inward, hk, fun part hpart => ?_, by rw [List.append_assoc]⟩
  rcases List.mem_append.1 hpart with hpart | hpart
  · exact named_segments hnames part (List.mem_reverse.1 hpart)
  · exact hinward part hpart

/-- Where steps up come first and then names, all that comes after a name is a name. -/
private theorem named_after_name {k : Nat} {inward : Place} (hinward : Named inward) {front rest : List String}
    {name : String} (hup : name ≠ "..") (h : List.replicate k ".." ++ inward.reverse = front ++ [name] ++ rest) :
    Named rest ∧ ∃ above, Named above ∧ front ++ [name] = (above ++ List.replicate k "..").reverse := by
  rcases List.append_eq_append_iff.1 h with ⟨between, hfront, hrest⟩ | ⟨between, hups, -⟩
  · have hnamed : Named (between ++ rest) := fun part hpart => hinward part (List.mem_reverse.1 (hrest ▸ hpart))
    refine ⟨fun part hpart => hnamed part (List.mem_append_right _ hpart), between.reverse, fun part hpart => ?_, ?_⟩
    · exact hnamed part (List.mem_append_left _ (List.mem_reverse.1 hpart))
    · rw [hfront]
      simp
  · have hmem : name ∈ List.replicate k ".." := by
      rw [hups]
      simp
    exact absurd (List.mem_replicate.1 hmem).2 hup

/-- A file below a directory with a name is spelled cleanly if the directory is and all parts of the file are names. -/
private theorem tidy_join_iff (base : String) {name file : String} (hname : Part name) (hup : name ≠ "..")
    (hfile : isAbsolute file = false) :
    Tidy (join (join base name) file) ↔
      Tidy (join base name) ∧ ∀ part ∈ segments file, part ∉ ["", ".", ".."] := by
  constructor
  · intro htidy
    obtain ⟨k, inward, hk, hinward, hpath⟩ := tidy_iff.1 htidy
    obtain ⟨front, hfront⟩ := exists_segments_join base hname
    have hsegments := segments_join_of_part hname hfront hfile
    rw [hfront] at hsegments
    have hne : inward ++ List.replicate k ".." ≠ [] := by
      intro hnil
      have hroot : segments (pathOf []) = ["", ""] := by decide +kernel
      have hmem : name ∈ segments (pathOf []) := by
        rw [← hnil, ← hpath, hsegments]
        simp
      rw [hroot] at hmem
      exact hname.ne_empty (by simpa using hmem)
    rw [(eq_pathOf_iff hne (part_of_mem_ups hinward.parts k)).1 hpath, List.reverse_append, List.reverse_replicate]
      at hsegments
    -- the first text is the empty one before the root
    obtain ⟨front', rfl⟩ : ∃ front', front = "" :: front' := by
      cases front with
      | nil => exact absurd (List.cons.inj hsegments).1.symm hname.ne_empty
      | cons first front' => exact ⟨front', by rw [(List.cons.inj hsegments).1]⟩
    obtain ⟨hnames, above, habove, hbase⟩ := named_after_name hinward hup (List.cons.inj hsegments).2
    have hsome : above ++ List.replicate k ".." ≠ [] := by
      intro hnil
      rw [hnil] at hbase
      simp at hbase
    refine ⟨tidy_iff.2 ⟨k, above, hk, habove, (eq_pathOf_iff hsome (part_of_mem_ups habove.parts k)).2 ?_⟩,
      fun part hpart => ?_⟩
    · rw [hfront, List.cons_append, hbase]
    · simp [(hnames part hpart).1.ne_empty, (hnames part hpart).1.ne_dot, (hnames part hpart).2]
  · rintro ⟨htidy, hnames⟩
    exact htidy.join hfile hnames

/-- All that is joined to a path comes after the same text. -/
private theorem exists_front (base : String) :
    ∃ front, ∀ path, isAbsolute path = false → join base path = front ++ path := by
  by_cases hend : (base.isEmpty || base.toList.getLast? == some '/') = true
  · exact ⟨base, fun path hpath => by rw [join, hpath, if_neg (by decide), if_pos hend]⟩
  · exact ⟨base ++ "/", fun path hpath => by rw [join, hpath, if_neg (by decide), if_neg hend]⟩

/-- What is joined one after the other can be joined at once. -/
private theorem join_join (base : String) {name path : String} (hname : isAbsolute name = false) (hne : name ≠ "")
    (hpath : isAbsolute path = false) : join (join base name) path = join base (join name path) := by
  obtain ⟨front, hfront⟩ := exists_front base
  rw [hfront name hname, hfront _ ((isAbsolute_join hpath).trans hname)]
  have hlist : name.toList ≠ [] := fun h => hne (String.toList_eq_nil_iff.1 h)
  have hempty : (front ++ name).isEmpty = name.isEmpty := by
    rw [Bool.eq_iff_iff, String.isEmpty_iff, String.isEmpty_iff, String.append_eq_empty_iff]
    exact ⟨fun h => h.2, fun h => absurd h hne⟩
  have hlast : (front ++ name).toList.getLast? = name.toList.getLast? := by
    rw [String.toList_append, List.getLast?_append_of_ne_nil _ hlist]
  simp only [join, hpath, hempty, hlast, Bool.false_eq_true, if_false]
  split <;> simp only [String.append_assoc]

end ScriptHost.Path

namespace ScriptHost.Disk

open ScriptHost.Path

variable {d : Disk}

/-- Above the root is the root. -/
private theorem follow_ups (d : Disk) (k : Nat) (parts : List String) :
    d.follow [] (List.replicate k ".." ++ parts) = d.follow [] parts := by
  induction k with
  | zero => rfl
  | succ k ih =>
    rw [List.replicate_succ, List.cons_append, follow, ← ih]
    rfl

private theorem locate_ups {inward : Place} (hinward : Named inward) {k : Nat} {q : Place}
    (hq : d.locate (pathOf (inward ++ List.replicate k "..")) = .ok q) : q = inward := by
  have hparts := part_of_mem_ups hinward.parts k
  have hreverse : (inward ++ List.replicate k "..").reverse = List.replicate k ".." ++ inward.reverse := by
    simp
  cases hplace : inward ++ List.replicate k ".." with
  | nil =>
    obtain ⟨rfl, -⟩ := List.append_eq_nil_iff.1 hplace
    exact locate_pathOf hinward (hplace ▸ hq)
  | cons part place =>
    rw [hplace] at hparts hq hreverse
    rw [locate_pathOf_cons hparts, hreverse, follow_ups] at hq
    simpa using (follow_eq_ok (fun part hpart => hinward part (List.mem_reverse.1 hpart)) hq).1

private theorem pathOf_above {inward : Place} (hne : inward ≠ []) : pathOf
    (inward ++ [".."]) = "/.." ++ pathOf inward := by
  refine String.toList_inj.1 ?_
  rw [String.toList_append, toList_pathOf hne, toList_pathOf (by simp)]
  simp [spelled]

/-- Two clean paths of one file are the same, but for a step above the root before one of them. -/
private theorem eq_or_above {path path' : String} (hp : Tidy path) (hp' : Tidy path') (hf : d.isFile path = true)
    (h : d.locate path' = d.locate path) : path' = path ∨ path' = "/.." ++ path ∨ path = "/.." ++ path' := by
  obtain ⟨k, inward, hk, hinward, rfl⟩ := tidy_iff.1 hp
  obtain ⟨k', inward', hk', hinward', rfl⟩ := tidy_iff.1 hp'
  obtain ⟨content, hcontent⟩ := lookup_of_isFile hf
  obtain ⟨q, hq⟩ : ∃ q, d.locate (pathOf (inward ++ List.replicate k "..")) = .ok q := by
    unfold lookup at hcontent
    cases hq : d.locate (pathOf (inward ++ List.replicate k "..")) with
    | error e =>
      rw [hq] at hcontent
      cases hcontent
    | ok q => exact ⟨q, rfl⟩
  obtain rfl : q = inward := locate_ups hinward hq
  obtain rfl : q = inward' := locate_ups hinward' (h.trans hq)
  -- the root is no file
  have hne : q ≠ [] := by
    rintro rfl
    rw [lookup, hq] at hcontent
    cases hcontent
  rcases (by omega : k' = k ∨ k' = 1 ∧ k = 0 ∨ k = 1 ∧ k' = 0) with rfl | ⟨rfl, rfl⟩ | ⟨rfl, rfl⟩
  · exact .inl rfl
  · rw [List.replicate_zero, List.append_nil]
    exact .inr (.inl (pathOf_above hne))
  · rw [List.replicate_zero, List.append_nil]
    exact .inr (.inr (pathOf_above hne))

end ScriptHost.Disk

namespace ScriptHost.Resolution

open ScriptHost.Path

variable {d : Disk} {base name path : String}

/-! ### Candidates -/

private theorem slash_not_mem_of_tried : ∀ ending ∈ triedExtensions, '/' ∉ ending.toList := by decide

private theorem tidy_of_mem_fileCandidates (hb : Tidy base) (hpath : path ∈ fileCandidates base) : Tidy path := by
  have hlength : ∀ ending ∈ triedExtensions, 2 < ending.length := by decide
  rcases List.mem_cons.1 hpath with rfl | hpath
  · exact hb
  · obtain ⟨ending, hending, rfl⟩ := List.mem_map.1 hpath
    exact hb.append (hlength ending hending) (slash_not_mem_of_tried ending hending)

private theorem isAbsolute_of_mem_fileCandidates (hpath : path ∈ fileCandidates base) :
    isAbsolute path = isAbsolute base := by
  rcases List.mem_cons.1 hpath with rfl | hpath
  · rfl
  · obtain ⟨ending, hending, rfl⟩ := List.mem_map.1 hpath
    exact isAbsolute_append (slash_not_mem_of_tried ending hending) base

/-- The files that a joined name may stand for are joined from those that the name may stand for. -/
private theorem exists_of_mem_fileCandidates_join (hname : isAbsolute name = false)
    (hpath : path ∈ fileCandidates (join base name)) : ∃ file ∈ fileCandidates name, path = join base file := by
  rcases List.mem_cons.1 hpath with rfl | hpath
  · exact ⟨name, List.mem_cons_self, rfl⟩
  · obtain ⟨ending, hending, rfl⟩ := List.mem_map.1 hpath
    obtain ⟨front, hfront⟩ := exists_front base
    have hended : isAbsolute (name ++ ending) = false :=
      (isAbsolute_append (slash_not_mem_of_tried ending hending) name).trans hname
    exact ⟨name ++ ending, List.mem_cons_of_mem _ (List.mem_map_of_mem hending),
      by rw [hfront name hname, hfront _ hended, String.append_assoc]⟩

/-- What a path may stand for unless a manifest says something else: a file, or the index of a directory. -/
def plainCandidates (base : String) : List String := fileCandidates base ++ fileCandidates (join base "index")

private theorem tidy_of_mem_plainCandidates (hb : Tidy base) (hpath : path ∈ plainCandidates base) : Tidy path := by
  rcases List.mem_append.1 hpath with hpath | hpath
  · exact tidy_of_mem_fileCandidates hb hpath
  · exact tidy_of_mem_fileCandidates (hb.join (by decide) (by decide)) hpath

private theorem isAbsolute_of_mem_plainCandidates (hpath : path ∈ plainCandidates base) :
    isAbsolute path = isAbsolute base := by
  rcases List.mem_append.1 hpath with hpath | hpath
  · exact isAbsolute_of_mem_fileCandidates hpath
  · exact (isAbsolute_of_mem_fileCandidates hpath).trans (isAbsolute_join (by decide))

private theorem exists_of_mem_plainCandidates_join (hname : isAbsolute name = false) (hne : name ≠ "")
    (hpath : path ∈ plainCandidates (join base name)) : ∃ file ∈ plainCandidates name, path = join base file := by
  rcases List.mem_append.1 hpath with hpath | hpath
  · obtain ⟨file, hfile, heq⟩ := exists_of_mem_fileCandidates_join hname hpath
    exact ⟨file, List.mem_append_left _ hfile, heq⟩
  · rw [join_join _ hname hne (by decide)] at hpath
    obtain ⟨file, hfile, heq⟩ := exists_of_mem_fileCandidates_join ((isAbsolute_join (by decide)).trans hname) hpath
    exact ⟨file, List.mem_append_right _ hfile, heq⟩

/-- The entries of manifests are cleaned. -/
private theorem tidy_or_of_mem_locateCandidates (hb : isAbsolute base = true) (hpath : path ∈ locateCandidates d base) :
    Tidy path ∨ path ∈ plainCandidates base := by
  rcases List.mem_append.1 hpath with hpath | hpath
  · exact .inr (List.mem_append_left _ hpath)
  · unfold directoryCandidates at hpath
    split at hpath
    · rcases List.mem_append.1 hpath with hpath | hpath
      · obtain ⟨entry, -, hpath⟩ := List.mem_flatMap.1 hpath
        have hentry : Tidy (clean (join base entry)) := tidy_clean (isAbsolute_join_of_isAbsolute hb entry)
        refine .inl (tidy_of_mem_plainCandidates hentry ?_)
        rcases List.mem_append.1 hpath with hpath | hpath
        · exact List.mem_append_left _ hpath
        · split at hpath
          · exact List.mem_append_right _ hpath
          · cases hpath
      · exact .inr (List.mem_append_right _ hpath)
    · cases hpath

private theorem tidy_of_mem_locateCandidates (hb : Tidy base) (hpath : path ∈ locateCandidates d base) : Tidy path :=
  (tidy_or_of_mem_locateCandidates hb.absolute hpath).elim id (tidy_of_mem_plainCandidates hb)

private theorem isAbsolute_of_mem_locateCandidates (ha : isAbsolute path = true)
    (hpath : path ∈ locateCandidates d base) : isAbsolute base = true := by
  by_contra hb
  rw [Bool.not_eq_true] at hb
  rcases List.mem_append.1 hpath with hpath | hpath
  · rw [isAbsolute_of_mem_fileCandidates hpath, hb] at ha
    cases ha
  · -- a relative path leads to no directory
    unfold directoryCandidates Disk.isDirectory Disk.lookup at hpath
    rw [Disk.locate_of_relative hb] at hpath
    cases hpath

/-! ### Names of packages -/

/-- The path of something in a package that is not clean as it is spelled, because of the directory in which packages
are looked for, or because of a dot or a missing name between the slashes of what is looked for there. -/
def Misspelled (name dir path : String) : Prop :=
  isAbsolute name = false ∧ isRelative name = false ∧
    ∃ above ∈ ancestors dir, ∃ file ∈ plainCandidates name, path = join (join above "node_modules") file ∧
      (clean (join above "node_modules") ≠ join above "node_modules" ∨ ∃ part ∈ segments file, part ∈ ["", ".", ".."])

private theorem not_tidy_of_misspelled {dir : String} (h : Misspelled name dir path) : ¬ Tidy path := by
  obtain ⟨hname, -, above, -, file, hfile, rfl, hspelling⟩ := h
  rw [tidy_join_iff above (by decide) (by decide) ((isAbsolute_of_mem_plainCandidates hfile).trans hname)]
  rintro ⟨hmodules, hnames⟩
  rcases hspelling with hunclean | ⟨part, hpart, hdots⟩
  · exact hunclean hmodules.clean
  · exact hnames part hpart hdots

private theorem misspelled_of_not_tidy {dir : String} (hne : name ≠ "") (ha : isAbsolute path = true) (ht : ¬ Tidy path)
    (hpath : path ∈ candidates d name dir (ancestors dir)) : Misspelled name dir path := by
  have hcleaned : ∀ {other}, path ∉ locateCandidates d (clean other) := by
    intro other hmem
    have hother : isAbsolute other = true := isAbsolute_clean.symm.trans (isAbsolute_of_mem_locateCandidates ha hmem)
    exact ht (tidy_of_mem_locateCandidates (tidy_clean hother) hmem)
  unfold candidates at hpath
  simp only [← isRelative_iff] at hpath
  split at hpath
  · exact absurd hpath hcleaned
  · rename_i hname
    rw [Bool.not_eq_true] at hname
    split at hpath
    · exact absurd hpath hcleaned
    · rename_i hrelative
      rw [Bool.not_eq_true] at hrelative
      obtain ⟨above, habove, hmem⟩ := List.mem_flatMap.1 ((List.mem_append.1 hpath).resolve_right hcleaned)
      have hplain := (tidy_or_of_mem_locateCandidates (isAbsolute_of_mem_locateCandidates ha hmem) hmem).resolve_left ht
      obtain ⟨file, hfile, rfl⟩ := exists_of_mem_plainCandidates_join hname hne hplain
      have hjoined : isAbsolute file = false := (isAbsolute_of_mem_plainCandidates hfile).trans hname
      refine ⟨hname, hrelative, above, habove, file, hfile, rfl, ?_⟩
      by_contra hspelling
      push Not at hspelling
      rw [isAbsolute_join hjoined] at ha
      exact ht ((tidy_join_iff above (by decide) (by decide) hjoined).2 ⟨⟨ha, hspelling.1⟩, hspelling.2⟩)

/-! ### Found paths -/

/-- A path that is found is absolute.  It is clean, and stands for itself as seen from everywhere, unless it is the path
of something in a package whose name is not spelled cleanly.  Two clean paths of one file differ at most in a step above
the root before one of them. -/
theorem found_tidy_iff {origin : String} (h : nodeResolver.resolve d name origin = .ok path) :
    isAbsolute path = true ∧
      (clean path = path ↔ ∀ origin', nodeResolver.resolve d path origin' = .ok path) ∧
      (clean path = path ↔ ¬ Misspelled name (originDirectory d origin) path) ∧
      ∀ name' origin' path', nodeResolver.resolve d name' origin' = .ok path' → d.locate path' = d.locate path →
        clean path = path → clean path' = path' →
          path' = path ∨ path' = "/.." ++ path ∨ path = "/.." ++ path' := by
  have hresolve : nodeResolver.resolve = resolveOnDisk := by rw [nodeResolver]
  rw [hresolve] at h
  have hcandidate := List.mem_of_find?_eq_some (find?_of_resolveOnDisk h)
  have hfile : d.isFile path = true := isFile_of_resolveOnDisk h
  have ha : isAbsolute path = true := Disk.isAbsolute_of_isFile hfile
  have hne : name ≠ "" := by
    rintro rfl
    rw [resolveOnDisk, if_pos (by decide)] at h
    cases h
  have htidy : clean path = path ↔ Tidy path := ⟨fun hc => ⟨ha, hc⟩, Tidy.clean⟩
  refine ⟨ha, ⟨fun hc => nodeResolver_of_clean ha hc hfile, fun hself => ?_⟩, ?_, ?_⟩
  · -- as seen from anywhere, an absolute path is cleaned first
    have hagain := List.mem_of_find?_eq_some (find?_of_resolveOnDisk (hresolve ▸ hself origin))
    rw [candidates, if_pos ha] at hagain
    exact (tidy_of_mem_locateCandidates (tidy_clean ha) hagain).clean
  · rw [htidy, ← not_iff_not, not_not]
    exact ⟨fun ht => misspelled_of_not_tidy hne ha ht hcandidate, not_tidy_of_misspelled⟩
  · intro name' origin' path' hfound' hlocate hc hc'
    have ha' := Disk.isAbsolute_of_isFile (isFile_of_resolveOnDisk (hresolve ▸ hfound'))
    exact Disk.eq_or_above ⟨ha, hc⟩ ⟨ha', hc'⟩ hfile hlocate

/-- A slash too many in the name of a package leads to a second spelling of a file. -/
theorem found_tidy_iff_of_extra_slash :
    let d := (Disk.empty.write "/r/x.ts" (.text "")).write "/r/node_modules/p/z.ts" (.text "1")
    nodeResolver.resolve d "p/z" "/r/x.ts" = .ok "/r/node_modules/p/z.ts" ∧
      nodeResolver.resolve d "p//z" "/r/x.ts" = .ok "/r/node_modules/p//z.ts" ∧
      d.locate "/r/node_modules/p//z.ts" = d.locate "/r/node_modules/p/z.ts" ∧
      Misspelled "p//z" (originDirectory d "/r/x.ts") "/r/node_modules/p//z.ts" := by
  intro d
  have hfound : nodeResolver.resolve d "p//z" "/r/x.ts" = .ok "/r/node_modules/p//z.ts" := by decide +kernel
  refine ⟨by decide +kernel, hfound, by decide +kernel, ?_⟩
  have hunclean : clean "/r/node_modules/p//z.ts" ≠ "/r/node_modules/p//z.ts" := by decide +kernel
  exact not_not.1 fun h => hunclean ((found_tidy_iff hfound).2.2.1.2 h)

end ScriptHost.Resolution
