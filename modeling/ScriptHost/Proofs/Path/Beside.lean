import ScriptHost.Proofs.Path.Normal
import ScriptHost.Proofs.Path.Stem
import ScriptHost.Proofs.Path.Way

/-!
# The source beside a file

The path by which a script is known differs from that of its file in the last name alone (`sourcePath_below`), so both
are in the same directory (`parent?_sourcePath`).  It has an extension unless all of that name is the extension, which
is so only for a file that is named `.d.ts` (`isSome_extension?_sourcePath`).
-/

namespace ScriptHost.Path

open ScriptHost.Text

/-! ### The last name of a path -/

/-- An absolute path that does not end in a slash or a dot is a name below some other path. -/
theorem exists_part_of_ended {path : String} (ha : isAbsolute path = true) (he : Ended path) :
    ∃ head part, path = head ++ "/" ++ part ∧ Part part := by
  have hmem : '/' ∈ path.toList.reverse := by
    unfold isAbsolute at ha
    cases hp : path.toList with
    | nil => simp [hp] at ha
    | cons c cs => simp [show c = '/' by simpa [hp] using ha]
  obtain ⟨last, front, hreverse, hslash⟩ := List.eq_append_cons_of_mem hmem
  have hpath : path = String.ofList front.reverse ++ "/" ++ String.ofList last.reverse := by
    refine String.toList_inj.1 ?_
    rw [← path.toList.reverse_reverse, hreverse]
    simp
  refine ⟨_, _, hpath, ?_⟩
  have hname : segments (String.ofList last.reverse) = [String.ofList last.reverse] := by
    rw [segments, String.toList_ofList, splitSlashes_of_not_mem (by simpa using hslash), List.map_singleton]
  have hleads : leads (String.ofList last.reverse) = true := by
    rw [hpath] at he
    exact (ended_iff (by rw [segments_below, hname])).1 he
  simp only [leads, decide_eq_true_eq] at hleads
  exact ⟨hleads.1, hleads.2, by simpa using hslash⟩

private theorem getLast?_components_below (head : String) {part : String} (hpart : Part part) :
    (components (head ++ "/" ++ part)).getLast? = some (.ofPart part) := by
  have hname : names part = [part] := by
    rw [names, segments, splitSlashes_of_not_mem hpart.slash, List.map_singleton, String.ofList_toList,
      List.filter_cons_of_pos hpart.leads]
    rfl
  exact components_getLast?_of_names (by rw [names_below, hname])

private theorem fileName?_below (head : String) {part : String} (hpart : Part part) :
    fileName? (head ++ "/" ++ part) = if part = ".." then none else some part := by
  rw [fileName?, getLast?_components_below head hpart, Component.ofPart]
  by_cases hup : part = ".."
  · rw [if_pos hup, if_pos hup]
  · rw [if_neg hup, if_neg hup]

/-- What is above a path does not depend on the last name. -/
theorem parent?_below (head : String) {part : String} (hpart : Part part) :
    parent? (head ++ "/" ++ part) = some (String.ofList (dropTrailing ('/' :: head.toList.reverse)).reverse) := by
  have hreverse : (head ++ "/" ++ part).toList.reverse = part.toList.reverse ++ '/' :: head.toList.reverse := by
    simp
  rw [parent?_of_part (getLast?_components_below head hpart), hreverse, dropTrailing_of_part hpart,
    dropWhile_part hpart, List.dropWhile_cons_of_neg (by simp)]

/-! ### Extensions -/

/-- The last name of a path has an extension, which is what is behind its last dot, if there is something before it. -/
def Extended (path : String) : Prop := ∃ stem extension,
  fileName? path = some (stem ++ ("." ++ extension)) ∧ stem ≠ "" ∧ '.' ∉ extension.toList

theorem isSome_extension?_iff {path : String} : (extension? path).isSome = true ↔ Extended path := by
  rw [extension?]
  constructor
  · intro h
    obtain ⟨extension, h⟩ := Option.isSome_iff_exists.1 h
    obtain ⟨name, hname, hextension⟩ := Option.bind_eq_some_iff.1 h
    obtain ⟨stem, hstem, rfl, hdot⟩ := splitExtension_eq_some_iff.1 hextension
    exact ⟨stem, extension, hname, hstem, hdot⟩
  · rintro ⟨stem, extension, hname, hstem, hdot⟩
    rw [hname, Option.bind_some, splitExtension_append hstem rfl hdot]
    rfl

section

variable {head stem extension : String}

private theorem withoutExtension_name (hpart : Part (stem ++ ("." ++ extension)))
    (hup : stem ++ ("." ++ extension) ≠ "..") (hstem : stem ≠ "") (hdot : '.' ∉ extension.toList) :
    withoutExtension (head ++ "/" ++ (stem ++ ("." ++ extension))) = head ++ "/" ++ stem := by
  have htrailing : dropTrailing (head ++ "/" ++ (stem ++ ("." ++ extension))).toList.reverse =
      (head ++ "/" ++ (stem ++ ("." ++ extension))).toList.reverse := by
    rw [String.toList_append, List.reverse_append, dropTrailing_of_part hpart]
  have hwhole : (head ++ "/" ++ (stem ++ ("." ++ extension))).toList.reverse =
      (extension.toList.reverse ++ ['.']) ++ (head ++ "/" ++ stem).toList.reverse := by simp
  have hlength : extension.length + 1 = (extension.toList.reverse ++ ['.']).length := by
    simp [String.length_toList]
  rw [withoutExtension, fileName?_below head hpart, if_neg hup]
  dsimp only
  rw [splitExtension_append hstem rfl hdot]
  dsimp only
  rw [htrailing, hwhole, hlength, List.drop_left, List.reverse_reverse, String.ofList_toList]

private theorem clearExtension_name
    (hdeclaration : beforeTail? declarationExtension (head ++ "/" ++ (stem ++ ("." ++ extension))) = none)
    (hseparator : ∀ c ∈ (stem ++ ("." ++ extension)).toList, isSeparator c = false) (hstem : stem ≠ "")
    (hdot : '.' ∉ extension.toList) :
    clearExtension (head ++ "/" ++ (stem ++ ("." ++ extension))) = head ++ "/" ++ stem := by
  obtain ⟨c, cs, hreverse⟩ := List.exists_cons_of_ne_nil fun hnil : stem.toList.reverse = [] =>
    hstem (String.toList_eq_nil_iff.1 (List.reverse_eq_nil_iff.1 hnil))
  have hlast : c ∈ stem.toList := List.mem_reverse.1 (hreverse ▸ List.mem_cons_self)
  rw [← String.append_assoc] at hdeclaration ⊢
  refine clearExtension_append hdeclaration ⟨c, cs ++ '/' :: head.toList.reverse, ?_, hseparator c (by simp [hlast])⟩
    fun x hx => ⟨fun hx' => hdot (hx' ▸ hx), hseparator x (by simp [hx])⟩
  simp [hreverse]

end

/-- The two ways of taking an extension away agree on a file that is no declaration file.  Only one of them takes a
backslash for a separator. -/
theorem withoutExtension_eq_clearExtension {path : String} (ha : isAbsolute path = true) (he : Ended path)
    (hbackslash : '\\' ∉ path.toList) (hdeclaration : beforeTail? declarationExtension path = none)
    (hextended : Extended path) : withoutExtension path = clearExtension path := by
  obtain ⟨head, part, rfl, hpart⟩ := exists_part_of_ended ha he
  obtain ⟨stem, extension, hname, hstem, hdot⟩ := hextended
  rw [fileName?_below head hpart] at hname
  split at hname
  · cases hname
  · rename_i hup
    obtain rfl := Option.some.inj hname
    rw [withoutExtension_name hpart hup hstem hdot, clearExtension_name hdeclaration (fun c hc => ?_) hstem hdot]
    have hslash : c ≠ '/' := fun h => hpart.slash (h ▸ hc)
    have hother : c ≠ '\\' := by
      rintro rfl
      exact hbackslash (by rw [String.toList_append]; exact List.mem_append_right _ hc)
    simp [isSeparator, hslash, hother]

/-! ### Source paths -/

/-- An ending without a slash is looked for in the last name. -/
private theorem beforeTail?_below (head part : String) {tail : String} (htail : '/' ∉ tail.toList) :
    beforeTail? tail (head ++ "/" ++ part) = (beforeTail? tail part).map (head ++ "/" ++ ·) := by
  refine Option.ext fun body => ?_
  rw [beforeTail?_eq_some_iff, Option.map_eq_some_iff]
  simp only [beforeTail?_eq_some_iff]
  constructor
  · intro heq
    have hlist := congrArg String.toList heq
    rw [String.toList_append, String.toList_append, String.toList_append] at hlist
    obtain ⟨rest, hbody, hpart⟩ | ⟨rest, hhead, hlonger⟩ := List.append_eq_append_iff.1 hlist
    · exact ⟨String.ofList rest, String.toList_inj.1 (by simpa using hpart),
        String.toList_inj.1 (by simpa using hbody.symm)⟩
    · -- the slash does not belong to the ending
      obtain rfl | ⟨front, c, rfl⟩ := List.eq_nil_or_concat rest
      · exact ⟨"", String.toList_inj.1 (by simpa using hlonger.symm), String.toList_inj.1 (by simpa using hhead)⟩
      · rw [List.concat_eq_append] at hhead hlonger
        rw [← List.append_assoc] at hhead
        have hc : ['/'] = [c] := (List.append_inj' hhead rfl).2
        exact absurd (by simp [hlonger, ← hc]) htail
  · rintro ⟨rest, rfl, rfl⟩
    exact String.append_assoc.symm

private theorem clearExtension_below (head part : String) :
    clearExtension (head ++ "/" ++ part) = head ++ "/" ++ clearExtension part := by
  unfold clearExtension
  rw [beforeTail?_below head part (by decide)]
  cases beforeTail? declarationExtension part with
  | some base => rfl
  | none =>
    have hreverse : (head ++ "/" ++ part).toList.reverse = part.toList.reverse ++ '/' :: head.toList.reverse := by simp
    have hname : (part.toList.reverse ++ '/' :: head.toList.reverse).takeWhile (fun c => !isSeparator c) =
        part.toList.reverse.takeWhile fun c => !isSeparator c := by
      rw [List.takeWhile_append, List.takeWhile_cons_of_neg (by decide), List.append_nil]
      split
      · rename_i hall
        exact ((List.takeWhile_prefix _).eq_of_length hall).symm
      · rfl
    generalize part.toList.reverse = reversed at hreverse hname ⊢
    have hrest : (reversed ++ '/' :: head.toList.reverse).drop (reversed.takeWhile fun c => !isSeparator c).length =
        reversed.drop (reversed.takeWhile fun c => !isSeparator c).length ++ '/' :: head.toList.reverse :=
      List.drop_append_of_le_length (List.takeWhile_prefix _).length_le
    dsimp only [Option.map_none]
    rw [hreverse, hname, hrest]
    split
    · refine String.toList_inj.1 ?_
      simp
    · rfl

theorem sourcePath_below (head part : String) :
    sourcePath (head ++ "/" ++ part) = head ++ "/" ++ sourcePath part := by
  rw [sourcePath_eq, sourcePath_eq, clearExtension_below, String.append_assoc]

/-- The source path of a name is a name that ends in the extension; it is nothing else only for one file. -/
private theorem exists_sourcePath_of_part {part : String} (hpart : Part part) :
    ∃ body, sourcePath part = body ++ sourceExtension ∧ '/' ∉ body.toList ∧
      (body = "" ↔ part = declarationExtension) := by
  obtain ⟨extension, hwhole, hseparator, hempty⟩ := exists_eq_clearExtension_append part
  refine ⟨clearExtension part, sourcePath_eq part, ?_, ?_⟩
  · intro hmem
    apply hpart.slash
    rw [hwhole, String.toList_append]
    exact List.mem_append_left _ hmem
  · constructor
    · intro hnothing
      have hextension : part = "" ++ extension := by rwa [hnothing] at hwhole
      have hlast : lastName part = part := by
        rw [hextension, lastName_append hseparator]
        rfl
      rcases hempty (by rw [hnothing]; rfl) with hnone | hall
      · exact absurd (hlast.symm.trans hnone) hpart.ne_empty
      · exact hlast.symm.trans hall
    · rintro rfl
      decide

/-! ### Files and their sources -/

/-- The source path of a file is in the directory of the file. -/
theorem parent?_sourcePath {path : String} (ha : isAbsolute path = true) (he : Ended path) :
    parent? (sourcePath path) = parent? path := by
  obtain ⟨head, part, rfl, hpart⟩ := exists_part_of_ended ha he
  obtain ⟨body, hsource, hslash, -⟩ := exists_sourcePath_of_part hpart
  have hpart' : Part (sourcePath part) := by
    rw [hsource]
    exact (Resolution.named_append hslash (by decide) (by decide)).1
  rw [sourcePath_below, parent?_below head hpart', parent?_below head hpart]

/-- It has an extension unless the file is named as if it were nothing but one. -/
theorem isSome_extension?_sourcePath {path : String} (ha : isAbsolute path = true) (he : Ended path) :
    (extension? (sourcePath path)).isSome = true ↔ fileName? path ≠ some declarationExtension := by
  obtain ⟨head, part, rfl, hpart⟩ := exists_part_of_ended ha he
  obtain ⟨body, hsource, hslash, hbody⟩ := exists_sourcePath_of_part hpart
  obtain ⟨hpart', hup⟩ : Part (body ++ sourceExtension) ∧ body ++ sourceExtension ≠ ".." :=
    Resolution.named_append hslash (by decide) (by decide)
  have hname : fileName? (head ++ "/" ++ part) = some declarationExtension ↔ part = declarationExtension := by
    rw [fileName?_below head hpart]
    by_cases hparent : part = ".."
    · rw [if_pos hparent, hparent]
      decide
    · rw [if_neg hparent, Option.some.injEq]
  rw [sourcePath_below, hsource, extension?, fileName?_below head hpart', if_neg hup, Option.bind_some, Ne, hname,
    ← hbody]
  by_cases hempty : body = ""
  · rw [hempty, String.empty_append]
    decide +kernel
  · have hextension : (splitExtension (body ++ sourceExtension)).2 = some "ts" :=
      splitExtension_append hempty rfl (by decide)
    rw [hextension]
    simpa using hempty

end ScriptHost.Path
