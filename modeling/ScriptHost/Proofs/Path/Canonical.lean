import Mathlib.Data.List.Basic
import ScriptHost.Disk

/-!
# The paths of places

A path that is made of parts alone (`Disk.pathOf`) keeps that form when a part is joined to it or taken away from it,
and cleaning an absolute path always gives such a path (`clean_eq_pathOf`).  The parts may be `..`, where a path has led
above the root; if they are names, there is one path only for every place.
-/

namespace ScriptHost.Path

open ScriptHost.Disk (pathOf)

/-! ### Slashes -/

theorem splitSlashes_cons_slash (cs : List Char) : splitSlashes ('/' :: cs) = [] :: splitSlashes cs := by
  rw [splitSlashes]
  cases hs : splitSlashes cs with
  | nil =>
    cases cs with
    | nil => cases hs
    | cons c rest =>
      rw [splitSlashes] at hs
      split at hs
      · cases hs
      · split at hs <;> cases hs
  | cons s more => simp

theorem splitSlashes_cons_of_ne {c : Char} (hc : c ≠ '/') {cs s : List Char} {more : List (List Char)}
    (hs : splitSlashes cs = s :: more) : splitSlashes (c :: cs) = (c :: s) :: more := by
  rw [splitSlashes, hs]
  simp [hc]

theorem exists_splitSlashes_cons (cs : List Char) : ∃ s more, splitSlashes cs = s :: more := by
  induction cs with
  | nil => exact ⟨[], [], rfl⟩
  | cons c cs ih =>
    obtain ⟨s, more, hs⟩ := ih
    by_cases hc : c = '/'
    · subst hc
      exact ⟨[], _, splitSlashes_cons_slash cs⟩
    · exact ⟨c :: s, more, splitSlashes_cons_of_ne hc hs⟩

theorem splitSlashes_append (as bs : List Char) :
    splitSlashes (as ++ '/' :: bs) = splitSlashes as ++ splitSlashes bs := by
  induction as with
  | nil => rw [List.nil_append, splitSlashes_cons_slash]; rfl
  | cons c as ih =>
    by_cases hc : c = '/'
    · subst hc
      rw [List.cons_append, splitSlashes_cons_slash, splitSlashes_cons_slash, ih, List.cons_append]
    · obtain ⟨s, more, hs⟩ := exists_splitSlashes_cons as
      rw [hs] at ih
      rw [List.cons_append, splitSlashes_cons_of_ne hc ih, splitSlashes_cons_of_ne hc hs]
      rfl

theorem splitSlashes_of_not_mem {cs : List Char} (hcs : '/' ∉ cs) : splitSlashes cs = [cs] := by
  induction cs with
  | nil => rfl
  | cons c cs ih =>
    obtain ⟨hc, hcs⟩ := List.ne_and_not_mem_of_not_mem_cons hcs
    exact splitSlashes_cons_of_ne (Ne.symm hc) (ih hcs)

theorem not_mem_of_mem_splitSlashes {cs s : List Char} (hs : s ∈ splitSlashes cs) : '/' ∉ s := by
  induction cs generalizing s with
  | nil => simp_all [splitSlashes]
  | cons c cs ih =>
    by_cases hc : c = '/'
    · subst hc
      rw [splitSlashes_cons_slash, List.mem_cons] at hs
      rcases hs with rfl | hs
      · exact List.not_mem_nil
      · exact ih hs
    · obtain ⟨t, more, ht⟩ := exists_splitSlashes_cons cs
      rw [ht] at ih
      rw [splitSlashes_cons_of_ne hc ht, List.mem_cons] at hs
      rcases hs with rfl | hs
      · exact List.not_mem_cons_of_ne_of_not_mem (Ne.symm hc) (ih List.mem_cons_self)
      · exact ih (List.mem_cons_of_mem _ hs)

/-- A slash before each of the texts between slashes gives back the text that was divided, after a slash. -/
theorem flatMap_splitSlashes (cs : List Char) : (splitSlashes cs).flatMap ('/' :: ·) = '/' :: cs := by
  induction cs with
  | nil => rfl
  | cons c cs ih =>
    by_cases hc : c = '/'
    · subst hc
      rw [splitSlashes_cons_slash, List.flatMap_cons, ih]
      rfl
    · obtain ⟨s, more, hs⟩ := exists_splitSlashes_cons cs
      rw [hs, List.flatMap_cons] at ih
      rw [splitSlashes_cons_of_ne hc hs, List.flatMap_cons]
      simpa using ih

/-! ### Parts -/

/-- A text that counts between slashes. -/
structure Part (s : String) : Prop where
  ne_empty : s ≠ ""
  ne_dot : s ≠ "."
  slash : '/' ∉ s.toList

instance (s : String) : Decidable (Part s) :=
  decidable_of_iff (s ≠ "" ∧ s ≠ "." ∧ '/' ∉ s.toList) ⟨fun ⟨h, h', h''⟩ => ⟨h, h', h''⟩, fun h => ⟨h.1, h.2, h.3⟩⟩

/-- The part of a path that a text is. -/
def Component.ofPart (s : String) : Component := if s = ".." then .parent else .normal s

private theorem component?_of_part {s : String} (hs : Part s) : component? s.toList = some (.ofPart s) := by
  unfold component? Component.ofPart
  split <;> rename_i h
  · exact absurd (String.toList_eq_nil_iff.1 h) hs.ne_empty
  · exact absurd (String.toList_inj.1 (h.trans (by decide : ['.'] = ".".toList))) hs.ne_dot
  · rw [if_pos (String.toList_inj.1 (h.trans (by decide : ['.', '.'] = "..".toList)))]
  · rw [if_neg fun hs => h (by rw [hs]; decide), String.ofList_toList]

/-- What counts between slashes is a part or leads nowhere. -/
theorem part_of_component? {s : List Char} (hslash : '/' ∉ s) {c : Component} (hc : component? s = some c) :
    Part (String.ofList s) ∧ c = .ofPart (String.ofList s) := by
  have hpart : Part (String.ofList s) := by
    refine ⟨fun h => ?_, fun h => ?_, by simpa using hslash⟩
    · rw [String.ofList_eq_empty_iff.1 h] at hc
      cases hc
    · have : s = ['.'] := by simpa using congrArg String.toList h
      rw [this] at hc
      cases hc
  have heq := component?_of_part hpart
  rw [String.toList_ofList, hc] at heq
  exact ⟨hpart, Option.some.inj heq⟩

/-! ### The path of a place -/

/-- A slash before each part, the outermost first. -/
def spelled (place : Place) : List Char := place.reverse.flatMap fun part => '/' :: part.toList

@[simp] theorem spelled_nil : spelled [] = [] := rfl

@[simp] theorem spelled_cons (part : String) (place : Place) :
    spelled (part :: place) = spelled place ++ '/' :: part.toList := by
  simp [spelled]

theorem toList_pathOf_nil : (pathOf []).toList = ['/'] := by decide

theorem toList_pathOf {place : Place} (hplace : place ≠ []) : (pathOf place).toList = spelled place := by
  rw [pathOf, List.isEmpty_eq_false_iff.2 hplace, if_neg (by decide), String.toList_join, List.flatMap_map]
  simp [spelled]

theorem toList_pathOf_cons (part : String) (place : Place) :
    (pathOf (part :: place)).toList = spelled (part :: place) :=
  toList_pathOf (List.cons_ne_nil part place)

theorem pathOf_append (name ending : String) (above : Place) :
    pathOf (name :: above) ++ ending = pathOf ((name ++ ending) :: above) := by
  refine String.toList_inj.1 ?_
  rw [String.toList_append, toList_pathOf_cons, toList_pathOf_cons, spelled_cons, spelled_cons, String.toList_append]
  simp

theorem splitSlashes_spelled {place : Place} (hplace : ∀ part ∈ place, Part part) :
    splitSlashes (spelled place) = [] :: place.reverse.map String.toList := by
  induction place with
  | nil => rfl
  | cons part place ih =>
    obtain ⟨hpart, hplace⟩ := List.forall_mem_cons.1 hplace
    rw [spelled_cons, splitSlashes_append, ih hplace, splitSlashes_of_not_mem hpart.slash]
    simp

theorem exists_spelled_cons (part : String) (place : Place) : ∃ rest, spelled (part :: place) = '/' :: rest := by
  induction place generalizing part with
  | nil => exact ⟨part.toList, by simp⟩
  | cons part' place ih =>
    obtain ⟨rest, hrest⟩ := ih part'
    exact ⟨rest ++ '/' :: part.toList, by rw [spelled_cons, hrest, List.cons_append]⟩

theorem components_cons_slash {path : String} {rest : List Char} (hpath : path.toList = '/' :: rest) :
    components path = .root :: (splitSlashes path.toList).filterMap component? := by
  unfold components
  rw [hpath, splitSlashes_cons_slash]
  rfl

theorem segments_pathOf {part : String} {place : Place} (hplace : ∀ p ∈ part :: place, Part p) :
    segments (pathOf (part :: place)) = "" :: (part :: place).reverse := by
  rw [segments, toList_pathOf_cons, splitSlashes_spelled hplace, List.map_cons, List.map_map]
  simp

theorem components_pathOf {place : Place} (hplace : ∀ part ∈ place, Part part) :
    components (pathOf place) = .root :: place.reverse.map .ofPart := by
  cases place with
  | nil => rfl
  | cons part place =>
    obtain ⟨rest, hrest⟩ := exists_spelled_cons part place
    rw [components_cons_slash ((toList_pathOf_cons part place).trans hrest), toList_pathOf_cons,
      splitSlashes_spelled hplace, List.filterMap_cons_none rfl, List.filterMap_map]
    congr 1
    rw [← List.filterMap_eq_map]
    refine List.filterMap_congr fun p hp => ?_
    exact component?_of_part (hplace p (List.mem_reverse.1 hp))

/-! ### Above and below a place -/

theorem Part.exists_reverse {part : String} (hpart : Part part) :
    ∃ c cs, part.toList.reverse = c :: cs ∧ c ≠ '/' ∧ (c = '.' → ∃ c' cs', cs = c' :: cs' ∧ c' ≠ '/') := by
  have hslash : '/' ∉ part.toList.reverse := fun h => hpart.slash (List.mem_reverse.1 h)
  cases hr : part.toList.reverse with
  | nil => exact absurd (String.toList_eq_nil_iff.1 (List.reverse_eq_nil_iff.1 hr)) hpart.ne_empty
  | cons c cs =>
    rw [hr] at hslash
    obtain ⟨hc, hcs⟩ := List.ne_and_not_mem_of_not_mem_cons hslash
    refine ⟨c, cs, rfl, Ne.symm hc, ?_⟩
    rintro rfl
    cases cs with
    | nil =>
      have hdot : part.toList = ['.'] := by simpa using congrArg List.reverse hr
      exact absurd (String.toList_inj.1 (hdot.trans (by decide : ['.'] = ".".toList))) hpart.ne_dot
    | cons c' cs' => exact ⟨c', cs', rfl, Ne.symm (List.ne_and_not_mem_of_not_mem_cons hcs).1⟩

theorem dropTrailing_of_part {part : String} (hpart : Part part) (rest : List Char) :
    dropTrailing (part.toList.reverse ++ rest) = part.toList.reverse ++ rest := by
  obtain ⟨c, cs, hr, hc, hdot⟩ := hpart.exists_reverse
  rw [hr, List.cons_append]
  by_cases hcdot : c = '.'
  · obtain ⟨c', cs', rfl, hc'⟩ := hdot hcdot
    subst hcdot
    unfold dropTrailing
    split <;> simp_all
  · unfold dropTrailing
    split <;> simp_all

private theorem dropTrailing_slash {place : Place} (hplace : ∀ part ∈ place, Part part) :
    dropTrailing ('/' :: (spelled place).reverse) = (pathOf place).toList.reverse := by
  cases place with
  | nil => rfl
  | cons part place =>
    obtain ⟨hpart, -⟩ := List.forall_mem_cons.1 hplace
    have hspelled : (spelled (part :: place)).reverse = part.toList.reverse ++ '/' :: (spelled place).reverse := by
      simp
    rw [toList_pathOf_cons, hspelled, dropTrailing]
    · exact dropTrailing_of_part hpart _
    · simp

@[simp] theorem parent?_pathOf_nil : parent? (pathOf []) = none := by decide

/-- A path whose last part is not the root has a path above it. -/
theorem parent?_of_part {path part : String} (hlast : (components path).getLast? = some (.ofPart part)) :
    parent? path = some (String.ofList (dropTrailing ((dropTrailing path.toList.reverse).dropWhile
      (· ≠ '/'))).reverse) := by
  unfold parent?
  rw [hlast]
  by_cases hup : part = ".."
  · rw [Component.ofPart, if_pos hup]
  · rw [Component.ofPart, if_neg hup]

theorem dropWhile_part {part : String} (hpart : Part part) (rest : List Char) :
    (part.toList.reverse ++ rest).dropWhile (· ≠ '/') = rest.dropWhile (· ≠ '/') := by
  refine List.dropWhile_append_of_pos fun c hc => ?_
  simpa using fun h : c = '/' => hpart.slash (h ▸ List.mem_reverse.1 hc)

theorem parent?_pathOf {part : String} {place : Place} (hplace : ∀ p ∈ part :: place, Part p) :
    parent? (pathOf (part :: place)) = some (pathOf place) := by
  obtain ⟨hpart, habove⟩ := List.forall_mem_cons.1 hplace
  have hlast : (components (pathOf (part :: place))).getLast? = some (.ofPart part) := by
    rw [components_pathOf hplace, List.reverse_cons, List.map_append, ← List.cons_append]
    exact List.getLast?_concat
  have hreverse : (pathOf (part :: place)).toList.reverse = part.toList.reverse ++ '/' :: (spelled place).reverse := by
    rw [toList_pathOf_cons]
    simp
  rw [parent?_of_part hlast, hreverse, dropTrailing_of_part hpart, dropWhile_part hpart,
    List.dropWhile_cons_of_neg (by simp), dropTrailing_slash habove, List.reverse_reverse, String.ofList_toList]

/-- What is joined to the path of a place comes after a slash. -/
theorem toList_join_pathOf {place : Place} (hplace : ∀ part ∈ place, Part part) {path : String}
    (hpath : isAbsolute path = false) : (join (pathOf place) path).toList = spelled place ++ '/' :: path.toList := by
  unfold join
  rw [hpath, if_neg (by decide)]
  cases place with
  | nil =>
    rw [if_pos (by decide), String.toList_append, toList_pathOf_nil]
    rfl
  | cons part place =>
    obtain ⟨hpart, -⟩ := List.forall_mem_cons.1 hplace
    obtain ⟨c, cs, hr, hc, -⟩ := hpart.exists_reverse
    have hlast : (pathOf (part :: place)).toList.getLast? = some c := by
      rw [toList_pathOf_cons, spelled_cons, ← List.head?_reverse]
      simp [hr]
    have hne : (pathOf (part :: place)).isEmpty = false := by
      rw [Bool.eq_false_iff, ne_eq, String.isEmpty_iff, ← String.toList_eq_nil_iff]
      intro h
      rw [h] at hlast
      cases hlast
    rw [hne, hlast, if_neg (by simpa using hc), String.toList_append, String.toList_append, toList_pathOf_cons]
    simp

theorem join_pathOf {place : Place} (hplace : ∀ part ∈ place, Part part) {path : String}
    (hpath : isAbsolute path = false) : join (pathOf place) path = pathOf ((segments path).reverse ++ place) := by
  have hne : (segments path).reverse ++ place ≠ [] := by
    obtain ⟨s, more, hs⟩ := exists_splitSlashes_cons path.toList
    simp [segments, hs]
  refine String.toList_inj.1 ?_
  rw [toList_join_pathOf hplace hpath, toList_pathOf hne, ← flatMap_splitSlashes path.toList]
  simp [spelled, segments, List.flatMap_map]

theorem Part.isAbsolute {part : String} (hpart : Part part) : isAbsolute part = false := by
  unfold Path.isAbsolute
  cases hs : part.toList with
  | nil => rfl
  | cons c cs =>
    have hslash := hpart.slash
    rw [hs] at hslash
    simpa using Ne.symm (List.ne_and_not_mem_of_not_mem_cons hslash).1

theorem join_pathOf_part {part : String} {place : Place} (hplace : ∀ p ∈ part :: place, Part p) :
    join (pathOf place) part = pathOf (part :: place) := by
  obtain ⟨hpart, habove⟩ := List.forall_mem_cons.1 hplace
  rw [join_pathOf habove hpart.isAbsolute, segments, splitSlashes_of_not_mem hpart.slash]
  simp

theorem mem_ancestors_pathOf {place : Place} (hplace : ∀ part ∈ place, Part part) {path : String}
    (hpath : path ∈ ancestors (pathOf place)) : ∃ above, above <:+ place ∧ path = pathOf above := by
  unfold ancestors at hpath
  generalize (pathOf place).length + 1 = fuel at hpath
  induction fuel generalizing place with
  | zero => cases hpath
  | succ fuel ih =>
    rw [ancestors.go, List.mem_cons] at hpath
    rcases hpath with rfl | hpath
    · exact ⟨place, List.suffix_rfl, rfl⟩
    · cases place with
      | nil =>
        rw [parent?_pathOf_nil] at hpath
        cases hpath
      | cons part place =>
        rw [parent?_pathOf hplace] at hpath
        obtain ⟨above, habove, rfl⟩ := ih (List.forall_mem_cons.1 hplace).2 hpath
        exact ⟨above, habove.trans (List.suffix_cons part place), rfl⟩

/-! ### Cleaning -/

/-- Where a part of a path leads by its name alone: `..` leads out of a place, or above the root. -/
def climb (place : Place) : Component → Place
  | .parent => if place.isEmpty then [".."] else place.tail
  | .normal name => name :: place
  | _ => place

theorem part_parent : Part ".." := by decide

private theorem part_of_mem_climb {place : Place} (hplace : ∀ part ∈ place, Part part) {s : String} (hs : Part s) :
    ∀ part ∈ climb place (.ofPart s), Part part := by
  unfold Component.ofPart
  split
  · cases place with
    | nil => simpa [climb] using part_parent
    | cons part place => exact (List.forall_mem_cons.1 hplace).2
  · exact List.forall_mem_cons.2 ⟨hs, hplace⟩

theorem stepInto_pathOf {place : Place} (hplace : ∀ part ∈ place, Part part) {s : String} (hs : Part s) :
    stepInto (pathOf place) (.ofPart s) = pathOf (climb place (.ofPart s)) := by
  unfold Component.ofPart
  split
  · show (parent? (pathOf place)).getD (join (pathOf place) "..") = _
    cases place with
    | nil => rfl
    | cons part place => rw [parent?_pathOf hplace]; rfl
  · exact join_pathOf_part (List.forall_mem_cons.2 ⟨hs, hplace⟩)

/-- Steps from a place, where `text` spells places. -/
theorem foldl_stepInto {text : Place → String}
    (hstep : ∀ {place}, (∀ part ∈ place, Part part) → ∀ {s}, Part s →
      stepInto (text place) (.ofPart s) = text (climb place (.ofPart s)))
    {parts : List String} (hparts : ∀ part ∈ parts, Part part) {place : Place} (hplace : ∀ part ∈ place, Part part) :
    (parts.map Component.ofPart).foldl stepInto (text place) = text ((parts.map .ofPart).foldl climb place) ∧
      ∀ part ∈ (parts.map .ofPart).foldl climb place, Part part := by
  induction parts generalizing place with
  | nil => exact ⟨rfl, hplace⟩
  | cons part parts ih =>
    obtain ⟨hpart, hparts⟩ := List.forall_mem_cons.1 hparts
    rw [List.map_cons, List.foldl_cons, List.foldl_cons, hstep hplace hpart]
    exact ih hparts (part_of_mem_climb hplace hpart)

private theorem exists_parts (path : String) : ∃ parts : List String, (∀ part ∈ parts, Part part) ∧
    (splitSlashes path.toList).filterMap component? = parts.map .ofPart := by
  have hslash : ∀ s ∈ splitSlashes path.toList, '/' ∉ s := fun s => not_mem_of_mem_splitSlashes
  generalize splitSlashes path.toList = texts at hslash ⊢
  induction texts with
  | nil => exact ⟨[], by simp, rfl⟩
  | cons s more ih =>
    obtain ⟨hs, hmore⟩ := List.forall_mem_cons.1 hslash
    obtain ⟨parts, hparts, heq⟩ := ih hmore
    cases hc : component? s with
    | none => exact ⟨parts, hparts, by rw [List.filterMap_cons_none hc, heq]⟩
    | some c =>
      obtain ⟨hpart, rfl⟩ := part_of_component? hs hc
      exact ⟨String.ofList s :: parts, List.forall_mem_cons.2 ⟨hpart, hparts⟩,
        by rw [List.filterMap_cons_some hc, heq, List.map_cons]⟩

/-- An absolute path without dots is made of parts. -/
theorem clean_eq_pathOf {path : String} (hpath : isAbsolute path = true) :
    ∃ place : Place, (∀ part ∈ place, Part part) ∧ clean path = pathOf place := by
  obtain ⟨rest, hrest⟩ : ∃ rest, path.toList = '/' :: rest := by
    unfold isAbsolute at hpath
    cases hs : path.toList with
    | nil => rw [hs] at hpath; cases hpath
    | cons c cs =>
      rw [hs] at hpath
      exact ⟨cs, by simpa using hpath⟩
  obtain ⟨parts, hparts, heq⟩ := exists_parts path
  obtain ⟨hfold, hplace⟩ := foldl_stepInto stepInto_pathOf hparts (List.forall_mem_nil _)
  refine ⟨_, hplace, ?_⟩
  rw [clean, components_cons_slash hrest, heq, List.foldl_cons, ← hfold]
  rfl

/-! ### Names -/

/-- A place whose parts are names. -/
def Named (place : Place) : Prop := ∀ part ∈ place, Part part ∧ part ≠ ".."

theorem Named.parts {place : Place} (h : Named place) : ∀ part ∈ place, Part part := fun part hpart => (h part hpart).1

/-- A path from which all dots can be removed leads to a place by names alone. -/
theorem clean_eq_pathOf_named {path : String} (hpath : isAbsolute path = true)
    (hdots : Component.parent ∉ components (clean path)) : ∃ place, Named place ∧ clean path = pathOf place := by
  obtain ⟨place, hplace, heq⟩ := clean_eq_pathOf hpath
  refine ⟨place, fun part hpart => ⟨hplace part hpart, ?_⟩, heq⟩
  rintro rfl
  rw [heq, components_pathOf hplace] at hdots
  exact hdots (List.mem_cons_of_mem _ (List.mem_map.2 ⟨"..", List.mem_reverse.2 hpart, rfl⟩))

theorem clean_pathOf {place : Place} (hplace : Named place) : clean (pathOf place) = pathOf place := by
  have hclimb : ∀ parts : List String, Named parts → ∀ place,
      (parts.map Component.ofPart).foldl climb place = parts.reverse ++ place := by
    intro parts hparts
    induction parts with
    | nil => exact fun _ => rfl
    | cons part parts ih =>
      obtain ⟨hpart, hparts⟩ := List.forall_mem_cons.1 hparts
      intro place
      rw [List.map_cons, List.foldl_cons, Component.ofPart, if_neg hpart.2, climb, ih hparts]
      simp
  have hreverse : Named place.reverse := fun part hpart => hplace part (List.mem_reverse.1 hpart)
  obtain ⟨hfold, -⟩ := foldl_stepInto stepInto_pathOf hreverse.parts (List.forall_mem_nil _)
  rw [hclimb _ hreverse, List.reverse_reverse, List.append_nil] at hfold
  rw [clean, components_pathOf hplace.parts, List.foldl_cons, ← hfold]
  rfl

end ScriptHost.Path
