import ScriptHost.Proofs.Path.Way
import ScriptHost.Proofs.Resolution.Candidates
import ScriptHost.Proofs.Resolution.Transparency

/-!
# Origins that are files

From origins with the same parts that end in names, as the paths of files do, the same names lead to files
(`resolves_congr`), but the paths that are found may still be spelled differently.  So as long as all requests come from
such origins, one that has failed fails for good (`Memo.Traced.answer`), whatever has been remembered since.
-/

namespace ScriptHost.Resolution

open ScriptHost.Path ScriptHost.Text

variable {d : Disk} {base base' : String}

private theorem any_fileCandidates (h : SameWay base base') :
    (fileCandidates base).any d.isFile = (fileCandidates base').any d.isFile := by
  have hextensions : ∀ ext ∈ triedExtensions, '/' ∉ ext.toList := by decide
  have htried : (triedExtensions.map (base ++ ·)).any d.isFile = (triedExtensions.map (base' ++ ·)).any d.isFile := by
    have hall : triedExtensions.map (fun ext => d.isFile (base ++ ext)) =
        triedExtensions.map fun ext => d.isFile (base' ++ ext) :=
      List.map_congr_left fun ext hext => Disk.isFile_congr (h.append (hextensions ext hext))
    have hany := congrArg (·.any id) hall
    rw [List.any_map, List.any_map] at hany
    rw [List.any_map, List.any_map]
    exact hany
  rw [fileCandidates, fileCandidates, List.any_cons, List.any_cons, Disk.isFile_congr h]
  exact congrArg (d.isFile base' || ·) htried

private theorem packageEntries_congr (h : components base = components base') :
    packageEntries d base = packageEntries d base' := by
  rw [packageEntries, packageEntries, Disk.text?_congr (.join h (by decide))]

private theorem clean_join_congr (h : components base = components base') (path : String) :
    clean (join base path) = clean (join base' path) := by
  cases hpath : isAbsolute path with
  | true => rw [join, join, if_pos hpath, if_pos hpath]
  | false => rw [clean, clean, components_join_congr h hpath]

private theorem any_locateCandidates (h : SameWay base base') (hparts : components base = components base') :
    (locateCandidates d base).any d.isFile = (locateCandidates d base').any d.isFile := by
  have hindex : SameWay (join base "index") (join base' "index") := .join hparts (by decide)
  have hdirectory : (directoryCandidates d base).any d.isFile = (directoryCandidates d base').any d.isFile := by
    unfold directoryCandidates
    rw [Disk.isDirectory_congr h, packageEntries_congr hparts]
    simp only [clean_join_congr hparts]
    split
    · rw [List.any_append, List.any_append, any_fileCandidates hindex]
    · rfl
  rw [locateCandidates, locateCandidates, List.any_append, List.any_append, any_fileCandidates h, hdirectory]

/-- The directories above two paths with the same parts have the same parts too. -/
private theorem components_outwards {dir dir' : String} {dirs dirs' : List String} (hdirs : Outwards dir dirs)
    (hdirs' : Outwards dir' dirs') (h : components dir = components dir') :
    List.Forall₂ (fun above above' => components above = components above') dirs dirs' := by
  induction hdirs generalizing dir' dirs' with
  | last hlast =>
    cases hdirs' with
    | last => exact .cons h .nil
    | up hup =>
      have hsome := isSome_parent?_congr h
      rw [hlast, hup] at hsome
      cases hsome
  | up hup _ ih =>
    cases hdirs' with
    | last hlast =>
      have hsome := isSome_parent?_congr h
      rw [hlast, hup] at hsome
      cases hsome
    | up hup' habove' =>
      exact .cons h (ih habove' (by rw [components_of_parent? hup, components_of_parent? hup', h]))

/-- Whether there is a file among the candidates depends only on the parts of the directory. -/
private theorem any_candidates {dir dir' : String} {dirs dirs' : List String} (hdirs : Outwards dir dirs)
    (hdirs' : Outwards dir' dirs') (h : components dir = components dir') (name : String) :
    (candidates d name dir dirs).any d.isFile = (candidates d name dir' dirs').any d.isFile := by
  unfold candidates
  rw [clean_join_congr h]
  split
  · rfl
  · rename_i ha
    split
    · rfl
    · rw [List.any_append, List.any_append]
      congr 1
      have hall := components_outwards hdirs hdirs' h
      clear hdirs hdirs'
      induction hall with
      | nil => rfl
      | cons habove _ ih =>
        have hrelative : isAbsolute name = false := by simpa using ha
        have hnode : isAbsolute "node_modules" = false := by decide
        have hmodules := components_join_congr habove hnode
        rw [List.flatMap_cons, List.flatMap_cons, List.any_append, List.any_append, ih,
          any_locateCandidates (.join hmodules hrelative) (components_join_congr hmodules hrelative)]

/-- What is found is the first file among the candidates. -/
theorem find?_of_resolveOnDisk {name origin path : String} (h : resolveOnDisk d name origin = .ok path) :
    (candidates d name (originDirectory d origin) (ancestors (originDirectory d origin))).find? d.isFile =
      some path := by
  unfold resolveOnDisk at h
  split at h
  · cases h
  · rw [lookup_eq] at h
    generalize candidates d name (originDirectory d origin) (ancestors (originDirectory d origin)) = paths at h ⊢
    cases hfound : paths.find? d.isFile with
    | none =>
      rw [hfound] at h
      cases h
    | some found =>
      rw [hfound] at h
      cases h
      rfl

theorem isFile_of_resolveOnDisk {name origin path : String} (h : resolveOnDisk d name origin = .ok path) :
    d.isFile path = true :=
  List.find?_some (find?_of_resolveOnDisk h)

/-- From origins with the same parts that end in names, the same names are found. -/
theorem resolves_congr {origin origin' : String} (h : components origin = components origin') (he : Ended origin)
    (he' : Ended origin') (name : String) :
    (resolveOnDisk d name origin).toOption.isSome = (resolveOnDisk d name origin').toOption.isSome := by
  have hway := SameWay.of_ended h he he'
  have hfile : takenForFile d origin = takenForFile d origin' := by
    rw [takenForFile, takenForFile, Disk.isFile_congr hway, Disk.isDirectory_congr hway, extension?, extension?,
      fileName?, fileName?, h]
  have hcandidates := any_candidates (d := d) (outwards_ancestors (originDirectory d origin))
    (outwards_ancestors (originDirectory d origin')) (components_originDirectory h hfile) name
  rw [← List.isSome_find?, ← List.isSome_find?, ← lookup_eq, ← lookup_eq] at hcandidates
  unfold resolveOnDisk
  split
  · rfl
  · cases hfound : lookup d name (originDirectory d origin) <;>
      cases hfound' : lookup d name (originDirectory d origin') <;> simp_all [Except.toOption]

/-! ### What is remembered of such origins -/

namespace Memo

/-- All that has been found ends in names. -/
def Ended (m : Memo) : Prop := ∀ request i, m.found.get? request = some i → Path.Ended i.resolved

/-- What has been found since a memo, but for shims, can be found as seen from origins that end in names. -/
def Traced (d : Disk) (m m' : Memo) : Prop :=
  ∀ name parts i, isShim name = false → m'.found.get? (name, parts) = some i →
    m.found.get? (name, parts) = some i ∨
      ∃ origin, components origin = parts ∧ Path.Ended origin ∧ (resolveOnDisk d name origin).toOption.isSome = true

variable {r : Resolver} {m m' : Memo}

theorem ended_empty : empty.Ended := by
  intro request i h
  cases h

private theorem ended_of_identify (hr : r.resolve = resolveOnDisk) {name origin : String} {i : Identity}
    (hi : (identify r d name origin).1 = .ok i) : Path.Ended i.resolved := by
  unfold identify at hi
  split at hi
  · rename_i hshim
    cases hi
    obtain ⟨body, rfl⟩ := hasTail_iff.1 hshim
    exact ended_append body (by decide) (by decide)
  · rw [hr] at hi
    cases hfound : resolveOnDisk d name origin with
    | error e =>
      rw [hfound] at hi
      cases hi
    | ok path =>
      rw [hfound] at hi
      cases hi
      exact Disk.ended_of_isFile (isFile_of_resolveOnDisk hfound)

theorem Learned.ended (hr : r.resolve = resolveOnDisk) (hl : Learned r d m m') (hm : m.Ended) : m'.Ended := by
  intro request i hi
  rcases hl.new hi with hold | ⟨name, origin, -, hnew⟩
  · exact hm request i hold
  · exact ended_of_identify hr hnew

theorem Traced.refl (d : Disk) (m : Memo) : Traced d m m := fun _ _ _ _ => .inl

/-- A request from an origin that ends in a name leaves a trace. -/
theorem Traced.resolve (hr : r.resolve = resolveOnDisk) (ht : Traced d m m') {origin : String}
    (ho : Path.Ended origin) (name : String) : Traced d m (m'.resolve r d name origin).2 := by
  intro other parts i hshim hi
  rw [get?_resolve] at hi
  split at hi
  · rename_i hkey
    cases hkey
    cases hold : m'.found.get? (key name origin) with
    | some j =>
      rw [resolve_of_found hold] at hi
      cases hi
      exact ht _ _ _ hshim hold
    | none =>
      rw [resolve_answer, hold, Option.map_none, Option.getD_none, identify, hshim, hr] at hi
      refine .inr ⟨origin, rfl, ho, ?_⟩
      cases hfound : resolveOnDisk d name origin with
      | error e =>
        rw [hfound] at hi
        cases hi
      | ok path => rfl
  · exact ht _ _ _ hshim hi

/-- As long as requests leave traces, the answer to a request that has been made before stays the same. -/
theorem Traced.answer (hr : r.resolve = resolveOnDisk) (ht : Traced d m m') (hl : Learned r d m m')
    {name origin : String} (ho : Path.Ended origin)
    (hasked : ∀ i, (m.resolve r d name origin).1 = .ok i → m.found.get? (key name origin) = some i) :
    (m'.resolve r d name origin).1 = (m.resolve r d name origin).1 := by
  cases hfound : m.found.get? (key name origin) with
  | some i => rw [resolve_of_found hfound, resolve_of_found (hl.kept hfound)]
  | none =>
    cases hanswer : (m.resolve r d name origin).1 with
    | ok i =>
      rw [hasked i hanswer] at hfound
      cases hfound
    | error e =>
      have hafresh : (identify r d name origin).1 = .error e := by
        rwa [resolve_answer, hfound] at hanswer
      have hshim : isShim name = false := by
        by_contra hshim
        rw [identify_of_isShim (by simpa using hshim)] at hafresh
        cases hafresh
      have hfails : (resolveOnDisk d name origin).toOption.isSome = false := by
        rw [identify, hshim, hr] at hafresh
        cases hfound : resolveOnDisk d name origin with
        | error e => rfl
        | ok path =>
          rw [hfound] at hafresh
          cases hafresh
      have hmissing : m'.found.get? (key name origin) = none := by
        refine Option.eq_none_iff_forall_ne_some.2 fun i hi => ?_
        rcases ht name _ i hshim hi with hold | ⟨origin', hparts, ho', hsome⟩
        · rw [show m.found.get? (name, components origin) = none from hfound] at hold
          cases hold
        · rw [resolves_congr hparts ho' ho, hfails] at hsome
          cases hsome
      rw [resolve_answer, hmissing]
      exact hafresh

end Memo

end ScriptHost.Resolution
