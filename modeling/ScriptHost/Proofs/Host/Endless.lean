import ScriptHost.Proofs.Host.Termination

/-!
# Walks that do not end

In the path of a package dots are not removed.  So a script that imports itself by way of the directory of a package is
found under a new path from each of its paths, and every one of them counts as another script (`walk_endless`).
-/

namespace ScriptHost.Host

open ScriptHost.Imports ScriptHost.Path ScriptHost.Resolution
open ScriptHost.Disk (pathOf)

/-- The name by which the script imports itself. -/
def spiralName : String := "p/../../x"

/-- The text of the script. -/
def spiralText : String := "import 'p/../../x'"

/-- The script and the directory of the package are on a disk, whatever else is there. -/
structure Spiral (d : Disk) : Prop where
  script : d.entry? ["x.ts"] = some (.file (.text spiralText))
  bare : d.entry? ["x"] = none
  package : d.entry? ["p", "node_modules"] = some .directory

/-- A way around to the root, by the directory of the package. -/
def around : Nat → Place
  | 0 => []
  | k + 1 => ["..", "..", "p", "node_modules"] ++ around k

/-- The path of the script after some ways around. -/
def spiralPath (k : Nat) : String := pathOf ("x.ts" :: around k)

/-! ### Ways around -/

private theorem part_of_mem_around (k : Nat) : ∀ part ∈ around k, Part part := by
  induction k with
  | zero => exact List.forall_mem_nil _
  | succ k ih =>
    have hway : ∀ part ∈ ["..", "..", "p", "node_modules"], Part part := by decide
    intro part hpart
    rcases List.mem_append.1 hpart with hpart | hpart
    · exact hway part hpart
    · exact ih part hpart

private theorem part_of_mem_below {part : String} (hpart : Part part) (k : Nat) : ∀ p ∈ part :: around k, Part p :=
  List.forall_mem_cons.2 ⟨hpart, part_of_mem_around k⟩

private theorem length_around (k : Nat) : (around k).length = 4 * k := by
  induction k with
  | zero => rfl
  | succ k ih =>
    rw [around, List.length_append, ih]
    simp only [List.length_cons, List.length_nil]
    omega

/-- The paths of the script have different numbers of parts. -/
private theorem eq_of_components {j k : Nat} (h : components (spiralPath j) = components (spiralPath k)) : j = k := by
  have hname : Part "x.ts" := by decide
  have hlength := congrArg List.length h
  simp only [spiralPath, components_pathOf (part_of_mem_below hname _), List.length_cons, List.length_map,
    List.length_reverse, length_around] at hlength
  omega

private theorem spiralPath_ne {j k : Nat} (h : k < j) : spiralPath j ≠ spiralPath k := fun heq =>
  absurd (eq_of_components (congrArg components heq)) (Nat.ne_of_gt h)

section

variable {d : Disk}

private theorem Spiral.packages (hd : Spiral d) : d.entry? ["node_modules"] = some .directory := by
  have hsome : (d.entries.get? ["p", "node_modules"]).isSome := by
    rw [show d.entries.get? ["p", "node_modules"] = some .directory from hd.package]
    rfl
  exact (d.closed "p" ["node_modules"] hsome).resolve_left (by decide)

/-- A way around leads back to the root. -/
private theorem Spiral.follow_around (hd : Spiral d) (k : Nat) (rest : List String) :
    d.follow [] ((around k).reverse ++ rest) = d.follow [] rest := by
  induction k generalizing rest with
  | zero => rfl
  | succ k ih =>
    have hreverse : (around (k + 1)).reverse ++ rest =
        (around k).reverse ++ ("node_modules" :: "p" :: ".." :: ".." :: rest) := by
      simp [around]
    rw [hreverse, ih]
    simp [Disk.follow, Disk.entry?, show d.entries.get? ["node_modules"] = some .directory from hd.packages,
      show d.entries.get? ["p", "node_modules"] = some .directory from hd.package]

private theorem Spiral.locate_below (hd : Spiral d) {name : String} (hname : Part name) (hup : name ≠ "..") (k : Nat) :
    d.locate (pathOf (name :: around k)) = if (d.entry? [name]).isSome then .ok [name] else .error .notFound := by
  rw [Disk.locate_pathOf_cons (part_of_mem_below hname k), List.reverse_cons, hd.follow_around]
  simp [Disk.follow, Disk.entry?, hname.ne_empty, hname.ne_dot, hup]

private theorem Spiral.load (hd : Spiral d) (k : Nat) : d.load (spiralPath k) = .ok spiralText := by
  have hlookup : d.lookup (spiralPath k) = .ok (.file (.text spiralText)) := by
    unfold Disk.lookup spiralPath
    rw [hd.locate_below (by decide) (by decide)]
    simp [hd.script, Except.bind]
  rw [Disk.load, Disk.read, hlookup]

private theorem Spiral.isFile_bare (hd : Spiral d) (k : Nat) : d.isFile (pathOf ("x" :: around k)) = false := by
  unfold Disk.isFile Disk.lookup
  rw [hd.locate_below (by decide) (by decide), hd.bare]
  rfl

/-! ### Looking up -/

private theorem append_extension (place : Place) : pathOf ("x" :: place) ++ ".ts" = pathOf ("x.ts" :: place) := by
  refine String.toList_inj.1 ?_
  rw [String.toList_append, toList_pathOf_cons, toList_pathOf_cons, spelled_cons, spelled_cons]
  simp

private theorem Spiral.resolve (hd : Spiral d) (k : Nat) :
    nodeResolver.resolve d spiralName (spiralPath k) = .ok (spiralPath (k + 1)) := by
  have hbase : Path.join (Path.join (pathOf (around k)) "node_modules") spiralName =
      pathOf ("x" :: around (k + 1)) := by
    have hmodules : Part "node_modules" := by decide
    have hsegments : segments spiralName = ["p", "..", "..", "x"] := by decide
    rw [join_pathOf_part (part_of_mem_below hmodules k), join_pathOf (part_of_mem_below hmodules k) (by decide),
      hsegments]
    rfl
  have hfile : locateFile d (pathOf ("x" :: around (k + 1))) = some (spiralPath (k + 1)) := by
    unfold locateFile
    rw [hd.isFile_bare, if_neg (by decide), Disk.firstExisting, triedExtensions, List.map_cons, append_extension,
      List.find?_cons_of_pos]
    · rfl
    · exact Disk.isFile_of_load (hd.load (k + 1))
  have hdir : originDirectory d (spiralPath k) = pathOf (around k) :=
    originDirectory_of_isFile (part_of_mem_below (by decide) k) (Disk.isFile_of_load (hd.load k))
  have hlookup : lookup d spiralName (pathOf (around k)) = some (spiralPath (k + 1)) := by
    unfold lookup
    rw [if_neg (by decide), if_neg (by decide), ancestors, ancestors.go, List.map_cons, hbase]
    dsimp only
    rw [List.findSome?_cons, locate, hfile]
    rfl
  simp only [nodeResolver]
  unfold resolveOnDisk
  rw [if_neg (by decide), hdir, hlookup]
  rfl

end

/-! ### Names of the script -/

private theorem toList_spiralPath (k : Nat) : (spiralPath k).toList = spelled (around k) ++ "/x.ts".toList := by
  rw [spiralPath, toList_pathOf_cons, spelled_cons]
  rfl

private theorem hasTail_spiralPath {tail : String} (hlen : tail.length ≤ 5)
    (htail : tail.toList.isSuffixOf "/x.ts".toList = false) (k : Nat) : Text.hasTail tail (spiralPath k) = false := by
  rw [Text.hasTail, toList_spiralPath, Bool.eq_false_iff]
  intro h
  rw [Bool.eq_false_iff] at htail
  refine htail (List.isSuffixOf_iff_suffix.2 ?_)
  exact List.suffix_of_suffix_length_le (List.isSuffixOf_iff_suffix.1 h) (List.suffix_append ..) hlen

private theorem sourcePath_spiralPath (k : Nat) : sourcePath (spiralPath k) = spiralPath k := by
  have hnone : Text.beforeTail? declarationExtension (spiralPath k) = none := by
    refine Option.eq_none_iff_forall_ne_some.2 fun base hbase => ?_
    have htail := @hasTail_spiralPath declarationExtension (by decide) (by decide) k
    rw [Text.beforeTail?_eq_some_iff.1 hbase, Text.hasTail_append] at htail
    cases htail
  have hreverse : (spiralPath k).toList.reverse = ['s', 't', '.', 'x', '/'] ++ (spelled (around k)).reverse := by
    rw [toList_spiralPath, List.reverse_append]
    rfl
  have hclear : clearExtension (spiralPath k) = String.ofList (spelled (around k) ++ "/x".toList) := by
    unfold clearExtension
    rw [hnone, hreverse]
    show String.ofList (['x', '/'] ++ (spelled (around k)).reverse).reverse = _
    rw [List.reverse_append, List.reverse_reverse]
    rfl
  refine String.toList_inj.1 ?_
  rw [sourcePath, hnone]
  show (setExtension (spiralPath k) sourceExtension).toList = _
  rw [setExtension, hclear, String.toList_append, String.toList_ofList, toList_spiralPath, List.append_assoc]
  rfl

/-! ### Going around -/

variable {σ : Type} {d : Disk}

/-- The script under its path after some ways around. -/
def spiralScript (k : Nat) : Identity := .ofResolved (spiralPath k)

private theorem normalized_spiralScript (k : Nat) :
    (spiralScript k).normalized = spiralPath k := sourcePath_spiralPath k

/-- Nothing waits but the script under one of its paths, and the longer ones have not been met. -/
structure Spinning (k : Nat) (w : Walk) (h : Host σ) : Prop where
  queue : w.queue = [(spiralScript k, spiralText)]
  unmet : ∀ j, k < j → w.visited.contains (spiralPath j) = false
  untracked : ∀ j, k < j → h.store.get? (spiralPath j) = none
  included : ∀ j, h.exclusions.excludes (spiralPath j) = false
  resolver : h.tools.resolver = nodeResolver
  sound : h.memo.Sound
  memo : ∀ j i, h.memo.found.get? (Memo.key spiralName (spiralPath j)) = some i → i = spiralScript (j + 1)

/-- The record of the script. -/
def spiralRecord : Record := ⟨1, spiralText, spiralText⟩

private theorem importNames_spiralText : importNames nodeResolver spiralText = [spiralName] := by decide +kernel

/-- From each of its paths, the script imports itself under the next one. -/
private theorem Spinning.identify (hd : Spiral d) {k : Nat} {w : Walk} {h : Host σ} (hs : Spinning k w h) (j : Nat) :
    (identify spiralName (some (spiralPath j)) d h).1 = .ok (spiralScript (j + 1)) := by
  rw [identify_run, Option.getD_some, Memo.resolve_answer, hs.resolver]
  cases hf : h.memo.found.get? (Memo.key spiralName (spiralPath j)) with
  | some i =>
    obtain rfl := hs.memo j i hf
    rfl
  | none =>
    rw [Option.map_none, Option.getD_none, Memo.identify, if_neg (by decide), hd.resolve]
    rfl

private theorem Spinning.trackImport (hd : Spiral d) {k : Nat} {w : Walk} {h : Host σ} (hs : Spinning k w h) :
    ∃ h', trackImport (spiralScript (k + 1)) d h = (.ok (some spiralText), h') ∧ Onward d h h' ∧
      SameNames h.memo h'.memo ∧ ∀ key, h'.store.get? key =
        if key = spiralPath (k + 1) then some spiralRecord else h.store.get? key := by
  let m : Meeting σ := ⟨spiralScript k, spiralName, spiralScript (k + 1), h⟩
  have hkey : m.key = spiralPath (k + 1) := normalized_spiralScript (k + 1)
  have hnew := hs.untracked (k + 1) (Nat.lt_succ_self k)
  have hplain : (spiralScript (k + 1)).isCompiled = false := by
    rw [Identity.isCompiled, Bool.and_eq_false_iff]
    exact .inr (hasTail_spiralPath (by decide) (by decide) (k + 1))
  have hrecord : m.record? d = some spiralRecord := by
    refine Meeting.record?_eq_some_iff.2 ⟨hkey ▸ hnew, spiralText, spiralText, hd.load (k + 1), ?_, rfl⟩
    rw [mergedContent_of_plain fun hc => absurd hc (by rw [hplain]; decide)]
  obtain ⟨h', hrun, honward, hstore⟩ := trackImport_run (d := d) (m := m) (.ofResolved _) hs.sound
  have hkeeps := trackImport_keeps_names (d := d) (m := h.memo) (spiralScript (k + 1)) h ⟨hs.sound, fun _ _ => rfl⟩
  rw [hrecord, hkey] at hstore
  rw [hrecord] at hrun
  have hrun : Host.trackImport (spiralScript (k + 1)) d h = (.ok (some spiralText), h') := hrun
  rw [hrun] at hkeeps
  exact ⟨h', hrun, honward, hkeeps.2, hstore⟩

private theorem Spinning.importsIn (hd : Spiral d) {k : Nat} {w : Walk} {h : Host σ} (hs : Spinning k w h) :
    ∃ h', importsIn spiralText (spiralScript k).resolved d h = (.ok [(spiralName, spiralScript (k + 1))], h') ∧
      Spinning k w h' := by
  have hanswer := hs.identify hd k
  have hq := identify_quiet spiralName (some (spiralPath k)) d h
  have hmemo := get?_identify spiralName (some (spiralPath k)) d h
  rcases hrun : Host.identify spiralName (some (spiralPath k)) d h with ⟨answer, h'⟩
  rw [hrun] at hanswer hq hmemo
  obtain rfl : answer = .ok (spiralScript (k + 1)) := hanswer
  refine ⟨h', ?_, hs.queue, hs.unmet, fun j hj => ?_, fun j => ?_, ?_, hq.sound hs.sound, fun j i hi => ?_⟩
  · unfold Host.importsIn
    rw [Action.bind_host_run, hs.resolver, importNames_spiralText]
    have hattempt : (Host.identify spiralName (some (spiralScript k).resolved)).attempt d h =
        (.ok (.ok (spiralScript (k + 1))), h') := by
      rw [Action.attempt_run, spiralScript, Identity.ofResolved, hrun]
    unfold identifyAll
    rw [Action.bind_run_of_ok hattempt]
    rfl
  · rw [hq.store]
    exact hs.untracked j hj
  · rw [hq.exclusions]
    exact hs.included j
  · rw [hq.tools]
    exact hs.resolver
  · rw [hmemo] at hi
    split at hi
    · rename_i hkey
      cases hi
      rw [eq_of_components (congrArg Prod.snd hkey)]
    · exact hs.memo j i hi

/-- When the import has been followed, the script waits under its next path. -/
private theorem Spinning.followImports (hd : Spiral d) {k : Nat} {graph : Graph} {visited : List String} {h : Host σ}
    (hs : Spinning k ⟨graph, visited, [(spiralScript k, spiralText)]⟩ h) :
    ∃ w' h', followImports (spiralScript k).normalized [(spiralName, spiralScript (k + 1))] ⟨graph, visited, []⟩ d h =
      (.ok w', h') ∧ Spinning (k + 1) w' h' ∧ h'.store.get? (spiralPath (k + 1)) = some spiralRecord := by
  obtain ⟨h', htrack, honward, hsame, hstore⟩ := hs.trackImport hd
  have hunmet : visited.contains (spiralPath (k + 1)) = false := hs.unmet (k + 1) (Nat.lt_succ_self k)
  refine ⟨⟨graph.addImport (spiralScript k).normalized (edgeTo spiralName (spiralScript (k + 1))),
    spiralPath (k + 1) :: visited, [(spiralScript (k + 1), spiralText)]⟩, h', ?_, ?_, ?_⟩
  · have hkey := normalized_spiralScript (k + 1)
    rw [followImports_of_tracked (hkey ▸ hs.included (k + 1)) (hkey ▸ hunmet) htrack, hkey]
    rfl
  · refine ⟨rfl, fun j hj => ?_, fun j hj => ?_, fun j => ?_, ?_, honward.sound hs.sound, fun j i hi => ?_⟩
    · rw [List.contains_cons, hs.unmet j (Nat.lt_of_succ_lt hj), Bool.or_false]
      exact beq_false_of_ne (spiralPath_ne hj)
    · rw [hstore, if_neg (spiralPath_ne hj)]
      exact hs.untracked j (Nat.lt_of_succ_lt hj)
    · rw [honward.exclusions]
      exact hs.included j
    · rw [honward.tools]
      exact hs.resolver
    · have hshim : isShim spiralName = false := by decide
      rw [hsame _ hshim] at hi
      exact hs.memo j i hi
  · rw [hstore, if_pos rfl]

private theorem Spinning.visit (hd : Spiral d) {k : Nat} {w : Walk} {h : Host σ} (hs : Spinning k w h) :
    ∃ w' h', (∀ limit, walk (limit + 1) w d h = walk limit w' d h') ∧ Spinning (k + 1) w' h' ∧
      h'.store.get? (spiralPath (k + 1)) = some spiralRecord := by
  obtain ⟨h₁, himports, hs₁⟩ := hs.importsIn hd
  obtain ⟨graph, visited, queue⟩ := w
  obtain rfl := hs.queue
  obtain ⟨w', h', hfollow, hs', hrecord⟩ := hs₁.followImports hd
  refine ⟨w', h', fun limit => ?_, hs', hrecord⟩
  conv_lhs => unfold walk
  rw [Action.bind_run_of_ok himports, Action.bind_run_of_ok hfollow]

/-- The walk is given up, whatever the limit is, and before that it has tracked the script once for each visit. -/
private theorem Spinning.walk_unfinished (hd : Spiral d) (limit : Nat) {k : Nat} {w : Walk} {h : Host σ}
    (hs : Spinning k w h) : ∃ h', walk limit w d h = (.error .unfinished, h') ∧
      ∀ j, k < j → j ≤ k + limit → h'.store.get? (spiralPath j) = some spiralRecord := by
  induction limit generalizing k w h with
  | zero =>
    obtain ⟨graph, visited, queue⟩ := w
    obtain rfl := hs.queue
    exact ⟨h, rfl, fun j hlt hle => absurd hlt (Nat.not_lt_of_ge hle)⟩
  | succ limit ih =>
    obtain ⟨w₁, h₁, hstep, hs₁, hrecord⟩ := hs.visit hd
    obtain ⟨h', hwalk, hrecords⟩ := ih hs₁
    refine ⟨h', (hstep limit).trans hwalk, fun j hlt hle => ?_⟩
    rcases Nat.eq_or_lt_of_le hlt with rfl | hlt
    · have hkept := walk_keeps_record (d := d) (spiralPath (k + 1)) spiralRecord limit w₁ h₁ ⟨hs₁.sound, hrecord⟩
      rw [hwalk] at hkept
      exact hkept.2
    · exact hrecords j hlt (by omega)

/-- A walk over the imports of a script that imports itself by way of the directory of a package does not end: however
many visits it may make, it makes all of them, and each one tracks the one file under yet another key. -/
theorem walk_endless (hd : Spiral d) {tools : Tools σ} (hr : tools.resolver = nodeResolver) (engineState : σ)
    (directory : String) (limit : Nat) :
    ∃ h', walk limit (.start .empty ⟨spiralScript 0, spiralText, true⟩) d (fresh tools engineState directory) =
        (.error .unfinished, h') ∧
      ∀ j, 0 < j → j ≤ limit → h'.store.get? (spiralPath j) = some spiralRecord := by
  have hs : Spinning 0 (.start .empty ⟨spiralScript 0, spiralText, true⟩) (fresh tools engineState directory) := by
    refine ⟨rfl, fun j hj => ?_, fun j hj => rfl, fun j => rfl, hr, Memo.sound_empty, fun j i hi => by cases hi⟩
    show List.contains [(spiralScript 0).normalized] (spiralPath j) = false
    rw [normalized_spiralScript, List.contains_cons, List.contains_nil, Bool.or_false]
    exact beq_false_of_ne (spiralPath_ne hj)
  obtain ⟨h', hwalk, hrecords⟩ := hs.walk_unfinished hd limit
  exact ⟨h', hwalk, fun j hlt hle => hrecords j hlt (by omega)⟩

/-- There is such a disk. -/
example : Spiral ((Disk.empty.write "/x.ts" (.text spiralText)).write "/node_modules/p/" (.text "")) :=
  ⟨by decide, by decide, by decide⟩

end ScriptHost.Host
