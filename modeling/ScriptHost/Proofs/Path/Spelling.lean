import Mathlib.Data.List.TakeWhile
import ScriptHost.Proofs.Path.Canonical

/-!
# Different spellings of a path

Paths with the same parts may be different texts, since repeated slashes, slashes at the end and inner dots do not
count.  What is joined to a path is seen from its parts (`components_join`), and the path above it has all of them but
the last (`components_of_parent?`), so the parts of the result do not depend on the spelling.
-/

namespace ScriptHost.Path

/-- The parts of a text between slashes, where a dot at the beginning does not count either. -/
def counted (cs : List Char) : List Component := (splitSlashes cs).filterMap component?

/-- The part that a text begins with on account of its place. -/
def lead (cs : List Char) : List Component :=
  if cs.head? = some '/' then [.root] else if (splitSlashes cs).head? = some ['.'] then [.current] else []

theorem components_eq_lead (path : String) : components path = lead path.toList ++ counted path.toList := by
  cases hp : path.toList with
  | nil =>
    rw [String.toList_eq_nil_iff.1 hp]
    rfl
  | cons c cs =>
    by_cases hc : c = '/'
    · subst hc
      rw [components_cons_slash hp, hp, lead, List.head?_cons, if_pos rfl]
      rfl
    · obtain ⟨s, more, hs⟩ := exists_splitSlashes_cons cs
      have hsplit := splitSlashes_cons_of_ne hc hs
      unfold components lead counted
      rw [hp, List.head?_cons, if_neg (by simpa using hc), hsplit, List.head?_cons]
      split
      · simp_all
      · by_cases hdot : c :: s = ['.']
        · rw [hsplit, hdot, if_pos rfl]
          rfl
        · rw [hsplit, if_neg (by simpa using hdot)]
          split
          · simp_all
          · rfl

/-! ### Texts in pieces -/

private theorem counted_append (as bs : List Char) : counted (as ++ '/' :: bs) = counted as ++ counted bs := by
  rw [counted, splitSlashes_append, List.filterMap_append]
  rfl

private theorem lead_append {as : List Char} (has : as ≠ []) (bs : List Char) : lead (as ++ '/' :: bs) = lead as := by
  obtain ⟨s, more, hs⟩ := exists_splitSlashes_cons as
  unfold lead
  rw [splitSlashes_append, hs, List.cons_append, List.head?_cons, List.head?_cons, List.head?_append_of_ne_nil _ has]

private theorem components_append {as : List Char} (has : as ≠ []) (bs : List Char) :
    components (String.ofList (as ++ '/' :: bs)) = components (String.ofList as) ++ counted bs := by
  rw [components_eq_lead, components_eq_lead, String.toList_ofList, String.toList_ofList, lead_append has,
    counted_append, List.append_assoc]

private theorem components_after_slash (as bs : List Char) :
    components (String.ofList (as ++ '/' :: bs)) = components (String.ofList (as ++ ['/'])) ++ counted bs := by
  cases as with
  | nil =>
    rw [components_eq_lead, components_eq_lead, String.toList_ofList, String.toList_ofList, counted_append]
    rfl
  | cons c cs =>
    rw [components_append (List.cons_ne_nil c cs), components_append (List.cons_ne_nil c cs), List.append_assoc]
    rfl

/-- A slash at the end does not count. -/
private theorem components_slash {as : List Char} (has : as ≠ []) :
    components (String.ofList (as ++ ['/'])) = components (String.ofList as) := by
  rw [components_append has]
  exact List.append_nil _

/-- Neither does a dot after a slash at the end. -/
private theorem components_slash_dot {as : List Char} (has : as ≠ []) :
    components (String.ofList (as ++ ['/', '.'])) = components (String.ofList as) := by
  rw [components_append has]
  exact List.append_nil _

private theorem counted_of_not_mem {cs : List Char} (hcs : '/' ∉ cs) : counted cs = (component? cs).toList := by
  rw [counted, splitSlashes_of_not_mem hcs]
  cases hc : component? cs <;> simp [hc]

private theorem components_eq_nil_iff {path : String} : components path = [] ↔ path = "" := by
  rw [components_eq_lead, List.append_eq_nil_iff]
  constructor
  · rintro ⟨hlead, hcounted⟩
    rw [← String.toList_eq_nil_iff]
    cases hp : path.toList with
    | nil => rfl
    | cons c cs =>
      rw [hp] at hlead hcounted
      by_cases hc : c = '/'
      · subst hc
        cases hlead
      · -- the first text between slashes begins with this character
        obtain ⟨s, more, hs⟩ := exists_splitSlashes_cons cs
        have hsplit := splitSlashes_cons_of_ne hc hs
        rw [lead, hsplit] at hlead
        rw [counted, hsplit, List.filterMap_eq_nil_iff] at hcounted
        have hnone := hcounted (c :: s) List.mem_cons_self
        unfold component? at hnone
        split at hnone
        · simp_all
        · simp_all
        · cases hnone
        · cases hnone
  · rintro rfl
    exact ⟨rfl, rfl⟩

/-! ### Joining -/

/-- A path is joined to another one by a slash; one that is there already does. -/
theorem join_eq_below {base path : String} (hbase : base ≠ "") (hpath : isAbsolute path = false) :
    ∃ head, join base path = head ++ "/" ++ path ∧ (head = base ∨ head ++ "/" = base) := by
  have hempty : base.isEmpty = false := by rw [Bool.eq_false_iff, Ne, String.isEmpty_iff]; exact hbase
  unfold join
  rw [hpath, if_neg (by decide), hempty, Bool.false_or]
  by_cases hend : base.toList.getLast? = some '/'
  · rw [if_pos (by simpa using hend)]
    -- the slash at the end is the one that divides
    have hbody : String.ofList base.toList.dropLast ++ "/" = base := by
      refine String.toList_inj.1 ?_
      simpa using List.dropLast_append_getLast? '/' hend
    exact ⟨_, by rw [hbody], .inr hbody⟩
  · rw [if_neg (by simpa using hend)]
    exact ⟨base, rfl, .inl rfl⟩

/-- A path that does not begin at the root adds its parts to those of another one. -/
theorem components_join {base path : String} (hbase : base ≠ "") (hpath : isAbsolute path = false) :
    components (join base path) = components base ++ counted path.toList := by
  obtain ⟨head, hjoined, hhead⟩ := join_eq_below hbase hpath
  have hlist : head ++ "/" ++ path = String.ofList (head.toList ++ '/' :: path.toList) := by
    refine String.toList_inj.1 ?_
    simp
  have hslash : String.ofList (head.toList ++ ['/']) = head ++ "/" := by
    refine String.toList_inj.1 ?_
    simp
  rw [hjoined, hlist]
  rcases hhead with rfl | rfl
  · rw [components_append (fun h => hbase (String.toList_eq_nil_iff.1 h)), String.ofList_toList]
  · rw [components_after_slash, hslash]

theorem components_join_congr {base base' : String} (hbase : components base = components base') {path : String}
    (hpath : isAbsolute path = false) : components (join base path) = components (join base' path) := by
  by_cases hempty : base = ""
  · have hempty' : base' = "" := components_eq_nil_iff.1 (hbase.symm.trans (components_eq_nil_iff.2 hempty))
    rw [hempty, hempty']
  · have hempty' : base' ≠ "" := fun h => hempty (components_eq_nil_iff.1 (hbase.trans (components_eq_nil_iff.2 h)))
    rw [components_join hempty hpath, components_join hempty' hpath, hbase]

/-! ### The path above -/

/-- Slashes and dots at the end do not count. -/
private theorem components_dropTrailing (cs : List Char) :
    components (String.ofList (dropTrailing cs).reverse) = components (String.ofList cs.reverse) := by
  induction cs using dropTrailing.induct with
  | case1 => rfl
  | case2 rest hne ih =>
    rw [dropTrailing, ih, List.reverse_cons, components_slash (by simpa using hne)]
    exact hne
  | case3 => decide
  | case4 rest hne ih =>
    rw [dropTrailing, ih, List.reverse_cons, List.reverse_cons, List.append_assoc]
    · exact (components_slash_dot (by simpa using hne)).symm
    · exact hne
  | case5 cs =>
    have hdone : dropTrailing cs = cs := by rw [dropTrailing] <;> assumption
    rw [hdone]

/-- What is left ends neither in a slash nor in a dot after a slash, unless it is the root. -/
private theorem dropTrailing_end (cs : List Char) : (∀ rest, dropTrailing cs = '/' :: rest → rest = []) ∧
    ∀ rest, dropTrailing cs ≠ '.' :: '/' :: rest := by
  induction cs using dropTrailing.induct with
  | case1 => simp [dropTrailing]
  | case2 rest hne ih => rwa [dropTrailing]; exact hne
  | case3 => simp [dropTrailing]
  | case4 rest hne ih => rwa [dropTrailing]; exact hne
  | case5 cs =>
    have hdone : dropTrailing cs = cs := by rw [dropTrailing] <;> assumption
    rw [hdone]
    exact ⟨fun rest heq => absurd heq (by simp_all), fun rest heq => absurd heq (by simp_all)⟩

/-- The last text between slashes and what is before it, both reversed. -/
private theorem exists_last_text (cs : List Char) : ∃ name before, cs = name ++ before ∧ '/' ∉ name ∧
    cs.dropWhile (· ≠ '/') = before ∧ (before = [] ∨ ∃ rest, before = '/' :: rest) := by
  refine ⟨cs.takeWhile (· ≠ '/'), cs.dropWhile (· ≠ '/'), List.takeWhile_append_dropWhile.symm, fun hmem => ?_, rfl, ?_⟩
  · simpa using List.mem_takeWhile_imp hmem
  · cases hd : cs.dropWhile (· ≠ '/') with
    | nil => exact .inl rfl
    | cons c rest =>
      have hc := List.head?_dropWhile_not (p := (· ≠ '/')) cs
      rw [hd] at hc
      exact .inr ⟨rest, by simpa using hc⟩

private theorem length_components_of_not_mem {cs : List Char} (hcs : '/' ∉ cs) :
    (components (String.ofList cs)).length ≤ 1 := by
  have hhead : cs.head? ≠ some '/' := fun h => hcs (List.mem_of_mem_head? h)
  rw [components_eq_lead, String.toList_ofList, counted_of_not_mem hcs, lead, if_neg hhead, splitSlashes_of_not_mem hcs]
  by_cases hdot : cs = ['.']
  · rw [hdot]
    decide
  · rw [List.head?_cons, if_neg (by simpa using hdot), List.nil_append]
    cases component? cs <;> simp

/-- The path above a path has all its parts but the last one. -/
theorem components_of_parent? {path above : String} (h : parent? path = some above) :
    components above = (components path).dropLast := by
  have hpath : components path = components (String.ofList (dropTrailing path.toList.reverse).reverse) := by
    rw [components_dropTrailing, List.reverse_reverse, String.ofList_toList]
  obtain ⟨name, before, hparts, hname, hbefore, hcases⟩ := exists_last_text (dropTrailing path.toList.reverse)
  have hend := dropTrailing_end path.toList.reverse
  have habove : components above = components (String.ofList before.reverse) := by
    rw [← components_dropTrailing, ← hbefore]
    unfold parent? at h
    split at h
    · cases h
    · cases h
    · rw [← Option.some.inj h]
  have hnameReverse : '/' ∉ name.reverse := fun hmem => hname (List.mem_reverse.1 hmem)
  rw [habove, hpath, hparts]
  rcases hcases with rfl | ⟨rest, rfl⟩
  · -- there is one text between slashes, so there is one part at most
    have hlength := length_components_of_not_mem hnameReverse
    have hnone : (components (String.ofList name.reverse)).dropLast.length = 0 := by
      rw [List.length_dropLast]
      omega
    rw [List.append_nil, List.eq_nil_of_length_eq_zero hnone]
    rfl
  · have hroot : components path = [.root] → False := by
      intro hroot
      unfold parent? at h
      rw [hroot] at h
      cases h
    have hdivided : (name ++ '/' :: rest).reverse = rest.reverse ++ '/' :: name.reverse := by simp
    rw [hdivided, components_after_slash, counted_of_not_mem hnameReverse, List.reverse_cons]
    -- the last text counts, since nothing else is left at the end
    obtain ⟨c, hc⟩ : ∃ c, component? name.reverse = some c := by
      unfold component?
      split
      · rename_i hnil
        rw [List.reverse_eq_nil_iff.1 hnil, List.nil_append] at hparts
        have hrest := hend.1 rest hparts
        subst hrest
        rw [hparts] at hpath
        exact absurd hpath hroot
      · rename_i hdot
        have hname : name = ['.'] := by simpa using congrArg List.reverse hdot
        rw [hname] at hparts
        exact absurd hparts (hend.2 rest)
      · exact ⟨_, rfl⟩
      · exact ⟨_, rfl⟩
    rw [hc]
    simp

theorem isSome_parent?_congr {path path' : String} (hpath : components path = components path') :
    (parent? path).isSome = (parent? path').isSome := by
  unfold parent?
  rw [hpath]
  split <;> rfl

/-- The parts of the path above do not depend on how a path is spelled. -/
theorem components_parent_congr {path path' : String} (hpath : components path = components path') :
    components ((parent? path).getD "") = components ((parent? path').getD "") := by
  have hsome := isSome_parent?_congr hpath
  cases habove : parent? path with
  | none =>
    rw [habove] at hsome
    have habove' : parent? path' = none := Option.not_isSome_iff_eq_none.1 (by rw [← hsome]; decide)
    rw [habove']
  | some above =>
    rw [habove] at hsome
    obtain ⟨above', habove'⟩ := Option.isSome_iff_exists.1 hsome.symm
    rw [habove', Option.getD_some, Option.getD_some, components_of_parent? habove, components_of_parent? habove', hpath]

end ScriptHost.Path
