import ScriptHost.Proofs.Path.Way

/-!
# Removing dots

By its names alone, a path leads some directories up and then into directories: every `..` takes back the name before
it, and those that find no name lead up (`Course`).  The normal form of a path is the shortest one with its course,
where the root is above itself (`normal`).  Cleaning a path gives that form as long as at most one step leads up from
where a relative path begins, and an even number of them from the root; two steps up cancel each other
(`clean_eq_written`, `clean_eq_normal_iff`).
-/

namespace ScriptHost.Path

open ScriptHost.Disk (pathOf)

/-! ### Courses -/

/-- Where a path leads by its names alone. -/
structure Course where
  /-- How many directories it leads up from where it begins. -/
  ups : Nat
  /-- The directories that it enters after that, the innermost first. -/
  inward : Place
  deriving DecidableEq

/-- A name leads into a directory; `..` leads out of the last one that was entered, or up if there is none. -/
def Course.next (c : Course) (part : String) : Course :=
  if part = ".." then
    match c.inward with
    | [] => ⟨c.ups + 1, []⟩
    | _ :: above => ⟨c.ups, above⟩
  else ⟨c.ups, part :: c.inward⟩

/-- The course over parts, one after the other. -/
def courseOver (parts : List String) : Course := parts.foldl Course.next ⟨0, []⟩

/-- The course of a path. -/
def course (path : String) : Course := courseOver (names path)

/-- The parts with slashes between them, after a slash if the path is absolute. -/
def written (absolute : Bool) (parts : List String) : String :=
  (if absolute then "/" else "") ++ String.intercalate "/" parts

/-- The path without dots: no step leads up from the root, and from elsewhere those that are left come first. -/
def normal (path : String) : String :=
  written (isAbsolute path)
    (List.replicate (if isAbsolute path then 0 else (course path).ups) ".." ++ (course path).inward.reverse)

namespace Course

/-- One course after another: the second one leads out of what the first has entered, and then up. -/
def followedBy (c c' : Course) : Course :=
  ⟨c.ups + (c'.ups - c.inward.length), c'.inward ++ c.inward.drop c'.ups⟩

private theorem next_followedBy (c c' : Course) (part : String) : (c.followedBy c').next part = c.followedBy
    (c'.next part) := by
  obtain ⟨k, inward⟩ := c'
  unfold next
  by_cases hup : part = ".."
  · simp only [if_pos hup]
    cases inward with
    | cons name above => rfl
    | nil =>
      simp only [followedBy, List.nil_append]
      cases hdrop : c.inward.drop k with
      | nil =>
        have hlen : c.inward.length ≤ k := List.drop_eq_nil_iff.1 hdrop
        simp only [mk.injEq]
        exact ⟨by omega, (List.drop_eq_nil_of_le (by omega)).symm⟩
      | cons name above =>
        have hlen : k < c.inward.length := by
          by_contra hle
          rw [List.drop_eq_nil_of_le (by omega)] at hdrop
          cases hdrop
        have habove : c.inward.drop (k + 1) = above := by
          rw [← List.tail_drop, hdrop]
          rfl
        simp only [mk.injEq, habove, and_true]
        omega
  · simp only [if_neg hup]
    rfl

private theorem foldl_next (c : Course) (parts : List String) : parts.foldl next c = c.followedBy
    (courseOver parts) := by
  have hstart : ∀ c', parts.foldl next (c.followedBy c') = c.followedBy (parts.foldl next c') := by
    induction parts with
    | nil => exact fun _ => rfl
    | cons part parts ih =>
      intro c'
      rw [List.foldl_cons, List.foldl_cons, next_followedBy, ih]
  have hnone : c.followedBy ⟨0, []⟩ = c := by simp [followedBy]
  have hall := hstart ⟨0, []⟩
  rwa [hnone] at hall

private theorem not_mem_inward_next {c : Course} (hc : ".." ∉ c.inward) (part : String) : ".." ∉
    (c.next part).inward := by
  unfold next
  split
  · split
    · exact List.not_mem_nil
    · rename_i hinward
      rw [hinward] at hc
      exact fun hmem => hc (List.mem_cons_of_mem _ hmem)
  · rename_i hup
    exact List.not_mem_cons_of_ne_of_not_mem (Ne.symm hup) hc

end Course

private theorem courseOver_append (parts parts' : List String) :
    courseOver (parts ++ parts') = (courseOver parts).followedBy (courseOver parts') := by
  rw [courseOver, List.foldl_append, Course.foldl_next]
  rfl

/-- What is entered has a name. -/
theorem not_mem_inward (parts : List String) : ".." ∉ (courseOver parts).inward := by
  have hall : ∀ c : Course, ".." ∉ c.inward → ".." ∉ (parts.foldl Course.next c).inward := by
    induction parts with
    | nil => exact fun _ hc => hc
    | cons part parts ih => exact fun c hc => ih _ (Course.not_mem_inward_next hc part)
  exact hall _ List.not_mem_nil

private theorem mem_inward {parts : List String} {name : String} (h : name ∈ (courseOver parts).inward) :
    name ∈ parts := by
  have hall : ∀ c : Course, name ∈ (parts.foldl Course.next c).inward → name ∈ c.inward ∨ name ∈ parts := by
    clear h
    induction parts with
    | nil => exact fun _ hc => .inl hc
    | cons part parts ih =>
      intro c hc
      rcases ih _ hc with hc | hc
      · unfold Course.next at hc
        split at hc
        · split at hc
          · cases hc
          · rename_i hinward
            rw [hinward]
            exact .inl (List.mem_cons_of_mem _ hc)
        · rcases List.mem_cons.1 hc with rfl | hc
          · exact .inr List.mem_cons_self
          · exact .inl hc
      · exact .inr (List.mem_cons_of_mem _ hc)
  exact (hall _ h).resolve_left List.not_mem_nil

/-- First up and then inward is a course as it stands. -/
theorem courseOver_replicate_append (k : Nat) {inward : Place} (hinward : ".." ∉ inward) :
    courseOver (List.replicate k ".." ++ inward.reverse) = ⟨k, inward⟩ := by
  have hups : courseOver (List.replicate k "..") = ⟨k, []⟩ := by
    induction k with
    | zero => rfl
    | succ k ih =>
      rw [List.replicate_succ', courseOver_append, ih]
      rfl
  have hnames : courseOver inward.reverse = ⟨0, inward⟩ := by
    induction inward with
    | nil => rfl
    | cons name above ih =>
      obtain ⟨hname, habove⟩ := List.ne_and_not_mem_of_not_mem_cons hinward
      rw [List.reverse_cons, courseOver_append, ih habove]
      simp [courseOver, Course.next, Course.followedBy, Ne.symm hname]
  rw [courseOver_append, hups, hnames]
  simp [Course.followedBy]

/-! ### Paths that are written from parts -/

private theorem part_of_mem_names {path part : String} (h : part ∈ names path) : Part part := by
  obtain ⟨hmem, hleads⟩ := List.mem_filter.1 h
  obtain ⟨cs, hcs, rfl⟩ := List.mem_map.1 hmem
  have hne : String.ofList cs ≠ "" ∧ String.ofList cs ≠ "." := by simpa [leads] using hleads
  exact ⟨hne.1, hne.2, by simpa using not_mem_of_mem_splitSlashes hcs⟩

theorem Part.leads {part : String} (h : Part part) : leads part = true := by
  simp [Path.leads, h.ne_empty, h.ne_dot]

private theorem written_cons_cons (part next : String) (rest : List String) :
    (written false (part :: next :: rest)).toList = part.toList ++ '/' :: (written false (next :: rest)).toList := by
  simp [written, String.toList_intercalate]

private theorem written_singleton (part : String) : written false [part] = part := by
  refine String.toList_inj.1 ?_
  simp [written]

private theorem slash_written {part : String} (parts : List String) :
    '/' :: (written false (part :: parts)).toList = spelled (part :: parts).reverse := by
  induction parts generalizing part with
  | nil => simp [written_singleton]
  | cons next rest ih =>
    rw [written_cons_cons, ih]
    simp [spelled]

theorem written_true (place : Place) : written true place.reverse = pathOf place := by
  refine String.toList_inj.1 ?_
  cases hparts : place.reverse with
  | nil =>
    rw [List.reverse_eq_nil_iff.1 hparts]
    decide
  | cons part parts =>
    have hne : place ≠ [] := by
      rintro rfl
      cases hparts
    rw [toList_pathOf hne, ← List.reverse_reverse place, hparts, ← slash_written]
    simp [written]

private theorem segments_written {part : String} {parts : List String} (hparts : ∀ p ∈ part :: parts, Part p) :
    segments (written false (part :: parts)) = part :: parts := by
  have hspelled := @splitSlashes_spelled (part :: parts).reverse
    fun p hp => hparts p (List.mem_reverse.1 hp)
  rw [← slash_written, splitSlashes_cons_slash, List.reverse_reverse] at hspelled
  rw [segments, (List.cons.inj hspelled).2, List.map_map]
  simp

theorem names_written {parts : List String} (hparts : ∀ p ∈ parts, Part p) (absolute : Bool) :
    names (written absolute parts) = parts := by
  have hleads : parts.filter leads = parts := List.filter_eq_self.2 fun p hp => (hparts p hp).leads
  cases absolute with
  | true =>
    rw [← List.reverse_reverse parts, written_true]
    cases hplace : parts.reverse with
    | nil => rfl
    | cons part place =>
      have hplaceParts : ∀ p ∈ part :: place, Part p := fun p hp => hparts p (List.mem_reverse.1 (hplace ▸ hp))
      rw [names, segments_pathOf hplaceParts, ← hplace, List.reverse_reverse, List.filter_cons_of_neg (by decide), hleads]
  | false =>
    cases parts with
    | nil => rfl
    | cons part parts => rw [names, segments_written hparts, hleads]

theorem isAbsolute_written {parts : List String} (hparts : ∀ p ∈ parts, Part p) (absolute : Bool) :
    isAbsolute (written absolute parts) = absolute := by
  cases absolute with
  | true => simp [isAbsolute, written]
  | false =>
    cases parts with
    | nil => rfl
    | cons part parts =>
      obtain ⟨hpart, -⟩ := List.forall_mem_cons.1 hparts
      cases parts with
      | nil => rw [written_singleton, hpart.isAbsolute]
      | cons next rest =>
        have hhead : part.toList ≠ [] := fun h => hpart.ne_empty (String.toList_eq_nil_iff.1 h)
        rw [isAbsolute, written_cons_cons, List.head?_append_of_ne_nil _ hhead]
        exact hpart.isAbsolute

/-- Different parts are written differently. -/
private theorem written_inj {parts parts' : List String} (hparts : ∀ p ∈ parts, Part p) (hparts' : ∀ p ∈ parts', Part p)
    (absolute : Bool) : written absolute parts = written absolute parts' ↔ parts = parts' := by
  refine ⟨fun heq => ?_, fun heq => by rw [heq]⟩
  rw [← names_written hparts absolute, heq, names_written hparts']

/-! ### Steps from a relative path -/

private theorem toList_written_concat {parts : List String} (hne : parts ≠ []) (part : String) :
    (written false (parts ++ [part])).toList = (written false parts).toList ++ '/' :: part.toList := by
  obtain ⟨first, rest, rfl⟩ := List.exists_cons_of_ne_nil hne
  have hlonger := @slash_written first (rest ++ [part])
  rw [← List.cons_append, List.reverse_append, List.reverse_singleton, List.singleton_append, spelled_cons,
    ← slash_written, List.cons_append] at hlonger
  exact (List.cons.inj hlonger).2

private theorem exists_reverse_written (parts : List String) (part : String) :
    ∃ before, (written false (parts ++ [part])).toList.reverse = part.toList.reverse ++ before := by
  by_cases hne : parts = []
  · subst hne
    exact ⟨[], by rw [List.nil_append, written_singleton, List.append_nil]⟩
  · exact ⟨'/' :: (written false parts).toList.reverse, by rw [toList_written_concat hne]; simp⟩

private theorem parent?_written {parts : List String} {part : String} (hparts : ∀ p ∈ parts ++ [part], Part p) :
    parent? (written false (parts ++ [part])) = some (written false parts) := by
  have hpart : Part part := hparts part (by simp)
  rw [parent?_of_part (components_getLast?_of_names (names_written hparts false))]
  rcases List.eq_nil_or_concat parts with rfl | ⟨front, last, rfl⟩
  · have htrailing := dropTrailing_of_part hpart []
    have hnone := dropWhile_part hpart []
    rw [List.append_nil] at htrailing hnone
    rw [List.nil_append, written_singleton, htrailing, hnone]
    rfl
  · rw [List.concat_eq_append] at hparts ⊢
    have hlast : Part last := hparts last (by simp)
    -- what stands before the slash ends in a part too, so nothing else is dropped
    obtain ⟨before, hbefore⟩ := exists_reverse_written front last
    have hreverse : (written false (front ++ [last] ++ [part])).toList.reverse =
        part.toList.reverse ++ '/' :: (written false (front ++ [last])).toList.reverse := by
      rw [toList_written_concat (by simp)]
      simp
    obtain ⟨c, cs, hc, -, -⟩ := hlast.exists_reverse
    rw [hreverse, dropTrailing_of_part hpart, dropWhile_part hpart, List.dropWhile_cons_of_neg (by simp), dropTrailing]
    · rw [hbefore, dropTrailing_of_part hlast, ← hbefore, List.reverse_reverse, String.ofList_toList]
    · simp [hbefore, hc]

private theorem join_written {parts : List String} {part : String} (hparts : ∀ p ∈ parts ++ [part], Part p) :
    join (written false parts) part = written false (parts ++ [part]) := by
  have hpart : Part part := hparts part (by simp)
  unfold join
  rw [hpart.isAbsolute, if_neg (by decide)]
  rcases List.eq_nil_or_concat parts with rfl | ⟨front, last, rfl⟩
  · rw [List.nil_append, written_singleton]
    exact String.empty_append
  · rw [List.concat_eq_append] at hparts ⊢
    have hlast : Part last := hparts last (by simp)
    obtain ⟨before, hbefore⟩ := exists_reverse_written front last
    obtain ⟨c, cs, hc, hslash, -⟩ := hlast.exists_reverse
    have hend : (written false (front ++ [last])).toList.getLast? = some c := by
      rw [← List.head?_reverse, hbefore, hc]
      rfl
    have hne : (written false (front ++ [last])).isEmpty = false := by
      rw [Bool.eq_false_iff, ne_eq, String.isEmpty_iff, ← String.toList_eq_nil_iff]
      intro hnil
      rw [hnil] at hend
      cases hend
    rw [hne, hend, if_neg (by simpa using hslash)]
    refine String.toList_inj.1 ?_
    rw [toList_written_concat (by simp)]
    simp

/-! ### Cleaning -/

private theorem stepInto_written {place : Place} (hplace : ∀ part ∈ place, Part part) {s : String} (hs : Part s) :
    stepInto (written false place.reverse) (.ofPart s) = written false (climb place (.ofPart s)).reverse := by
  unfold Component.ofPart
  split
  · show (parent? (written false place.reverse)).getD (join (written false place.reverse) "..") = _
    cases place with
    | nil => rfl
    | cons part place =>
      rw [List.reverse_cons, parent?_written fun p hp => hplace p (by simpa [or_comm] using hp)]
      rfl
  · show join (written false place.reverse) s = written false (s :: place).reverse
    rw [List.reverse_cons, join_written]
    intro p hp
    rcases List.mem_append.1 hp with hp | hp
    · exact hplace p (List.mem_reverse.1 hp)
    · rwa [List.mem_singleton.1 hp]

/-- The place to which steps lead on a course: a second step up takes back the first one. -/
def climbed (c : Course) : Place := c.inward ++ List.replicate (c.ups % 2) ".."

private theorem climb_climbed (c : Course) (part : String) : climb (climbed c) (.ofPart part) = climbed
    (c.next part) := by
  obtain ⟨k, inward⟩ := c
  unfold Course.next Component.ofPart
  split
  · cases inward with
    | cons name above => rfl
    | nil =>
      rcases Nat.mod_two_eq_zero_or_one k with hk | hk
      · have hnext : (k + 1) % 2 = 1 := by omega
        simp [climbed, climb, hk, hnext]
      · have hnext : (k + 1) % 2 = 0 := by omega
        simp [climbed, climb, hk, hnext]
  · rfl

private theorem foldl_climb (parts : List String) : (parts.map Component.ofPart).foldl climb [] = climbed
    (courseOver parts) := by
  have hall : ∀ c, (parts.map Component.ofPart).foldl climb (climbed c) = climbed (parts.foldl Course.next c) := by
    induction parts with
    | nil => exact fun _ => rfl
    | cons part parts ih =>
      intro c
      rw [List.map_cons, List.foldl_cons, List.foldl_cons, climb_climbed, ih]
  exact hall ⟨0, []⟩

/-- Cleaning a path leaves its course, but for the steps up, which cancel each other in pairs. -/
theorem clean_eq_written (path : String) :
    clean path = written (isAbsolute path)
      (List.replicate ((course path).ups % 2) ".." ++ (course path).inward.reverse) := by
  have hparts : ∀ part ∈ names path, Part part := fun part => part_of_mem_names
  have hreverse : (climbed (course path)).reverse =
      List.replicate ((course path).ups % 2) ".." ++ (course path).inward.reverse := by
    simp [climbed]
  rw [clean, components_eq_lead, counted_eq_names, List.foldl_append, ← hreverse, course, ← foldl_climb]
  cases habsolute : isAbsolute path with
  | true =>
    have hlead : lead path.toList = [.root] := by
      rw [lead, if_pos (by simpa [isAbsolute] using habsolute)]
    rw [hlead, written_true]
    exact (foldl_stepInto stepInto_pathOf hparts (List.forall_mem_nil _)).1
  | false =>
    have hlead : (lead path.toList).foldl stepInto "" = written false ([] : Place).reverse := by
      rw [lead, if_neg (by simpa [isAbsolute] using habsolute)]
      split <;> rfl
    rw [hlead]
    exact (@foldl_stepInto (fun place => written false place.reverse) stepInto_written _ hparts _
      (List.forall_mem_nil _)).1

/-- All parts of a path that leads up first, and then over names, are parts. -/
theorem part_of_mem_ups {inward : Place} (hinward : ∀ name ∈ inward, Part name) (k : Nat) :
    ∀ part ∈ inward ++ List.replicate k "..", Part part := by
  intro part hpart
  rcases List.mem_append.1 hpart with hpart | hpart
  · exact hinward part hpart
  · rw [(List.mem_replicate.1 hpart).2]
    exact part_parent

/-! ### Cleaning and the normal form -/

section

variable {path : String}

theorem part_of_mem_inward {name : String} (h : name ∈ (course path).inward) : Part name :=
  part_of_mem_names (mem_inward h)

private theorem part_of_mem_course (k : Nat) {part : String}
    (h : part ∈ List.replicate k ".." ++ (course path).inward.reverse) : Part part :=
  part_of_mem_ups (fun _ => part_of_mem_inward) k part (by simpa [or_comm] using h)

theorem isAbsolute_clean : isAbsolute (clean path) = isAbsolute path := by
  rw [clean_eq_written, isAbsolute_written fun part => part_of_mem_course _]

theorem course_clean : course (clean path) = ⟨(course path).ups % 2, (course path).inward⟩ := by
  rw [clean_eq_written, course, names_written fun part => part_of_mem_course _]
  exact courseOver_replicate_append _ (not_mem_inward (names path))

private theorem course_join (hpath : isAbsolute path = false) (dir : String) :
    course (join dir path) = (course dir).followedBy (course path) := by
  rw [course, names_join hpath, courseOver_append]
  rfl

/-- Two paths are cleaned to the same if they lead to the same place, where steps up cancel each other in pairs. -/
theorem clean_eq_clean_iff {path' : String} (habsolute : isAbsolute path = isAbsolute path') :
    clean path = clean path' ↔
      (course path).ups % 2 = (course path').ups % 2 ∧ (course path).inward = (course path').inward := by
  constructor
  · intro heq
    have hcourse := congrArg course heq
    rw [course_clean, course_clean] at hcourse
    exact Course.mk.inj hcourse
  · rintro ⟨hups, hinward⟩
    rw [clean_eq_written, clean_eq_written, habsolute, hups, hinward]

/-- What is left of a path when it is cleaned, and when that is its normal form.  Seen from a directory, a relative path
leads elsewhere after it has been cleaned, unless at most one step leads up from where it begins, or there is so little
above that directory that nothing is lost. -/
theorem clean_eq_normal_iff (path : String) :
    clean path = written (isAbsolute path)
        (List.replicate ((course path).ups % 2) ".." ++ (course path).inward.reverse) ∧
      (clean path = normal path ↔ if isAbsolute path then 2 ∣ (course path).ups else (course path).ups ≤ 1) ∧
      ∀ dir, isAbsolute dir = true → isAbsolute path = false →
        (clean (join dir (clean path)) = clean (join dir path) ↔
          (course path).ups ≤ 1 ∨ (course dir).inward.length ≤ (course path).ups % 2) := by
  refine ⟨clean_eq_written path, ?_, fun dir hdir hpath => ?_⟩
  · -- the names are the same, so it depends on how many steps lead up before them
    have hups : ∀ k, List.replicate ((course path).ups % 2) ".." ++ (course path).inward.reverse =
        List.replicate k ".." ++ (course path).inward.reverse ↔ (course path).ups % 2 = k := by
      intro k
      rw [List.append_cancel_right_eq, List.replicate_inj]
      simp
    rw [clean_eq_written, normal, written_inj (fun part => part_of_mem_course _) (fun part => part_of_mem_course _), hups]
    cases isAbsolute path with
    | true => exact Nat.dvd_iff_mod_eq_zero.symm
    | false =>
      simp only [Bool.false_eq_true, if_false]
      omega
  · have hclean : isAbsolute (clean path) = false := isAbsolute_clean.trans hpath
    rw [clean_eq_clean_iff (by rw [isAbsolute_join hclean, isAbsolute_join hpath]), course_join hclean, course_join hpath,
      course_clean]
    obtain ⟨k, inward⟩ := course path
    obtain ⟨u, above⟩ := course dir
    simp only [Course.followedBy, List.append_cancel_left_eq]
    -- what is left of the directory is told by how much is left of it
    have hdrop : above.drop (k % 2) = above.drop k ↔ above.length - k % 2 = above.length - k := by
      refine ⟨fun heq => by simpa using congrArg List.length heq, fun hlength => ?_⟩
      by_cases hk : k ≤ 1
      · rw [Nat.mod_eq_of_lt (by omega)]
      · rw [List.drop_eq_nil_of_le (by omega), List.drop_eq_nil_of_le (by omega)]
    rw [hdrop]
    omega

/-- Two steps up are lost when a path is cleaned, and a step up from the root is not. -/
theorem clean_ne_normal :
    (clean "../../x" = "x" ∧ normal "../../x" = "../../x") ∧ (clean "/../x" = "/../x" ∧ normal "/../x" = "/x") ∧
      ¬ clean (join "/a/b/c" (clean "../../x")) = clean (join "/a/b/c" "../../x") := by
  have hrelative : isAbsolute "../../x" = false := by decide
  have hups : (course "../../x").ups = 2 := by decide +kernel
  have hlength : (course "/a/b/c").inward.length = 3 := by decide +kernel
  refine ⟨⟨by decide +kernel, by decide +kernel⟩, ⟨by decide +kernel, by decide +kernel⟩, ?_⟩
  rw [(clean_eq_normal_iff "../../x").2.2 "/a/b/c" (by decide) hrelative, hups, hlength]
  decide

end

end ScriptHost.Path
