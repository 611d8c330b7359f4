import Mathlib.Data.List.Nodup
import Mathlib.Data.List.Sort
import ScriptHost.Imports.Graph

/-!
# What is recorded in graphs

A graph keeps names and indices apart.  Of the names alone, a file is mentioned behind the others unless it is one of
them, an edge is recorded behind the others (`edges_addImport`), and the edges at a file, which are collected latest
first and sorted by their indices, are those with its name (`importsOf_eq`, `importersOf_eq`).

Imports may be recorded in any number (`Graph.record`).  Their edges come one after the other, and if the importers have
been mentioned before, the files are those that were mentioned and then the targets of the edges, each at its first
mention.
-/

namespace ScriptHost.Imports.Graph

/-- Records imports one after the other, each with its importer. -/
def record (g : Graph) (imports : List (String × Edge)) : Graph := imports.foldl (fun g x => g.addImport x.1 x.2) g

@[simp] theorem record_nil (g : Graph) : g.record [] = g := rfl

@[simp] theorem record_cons (g : Graph) (x : String × Edge) (imports : List (String × Edge)) :
    g.record (x :: imports) = (g.addImport x.1 x.2).record imports := rfl

/-! ### Names and indices -/

theorem contains_eq_true_iff {g : Graph} {file : String} : g.contains file = true ↔ file ∈ g.files := by
  rw [contains, Table.contains, Option.isSome_iff_exists, List.mem_iff_getElem?]
  exact exists_congr fun i => g.indices_eq file i

theorem nodup_files (g : Graph) : g.files.Nodup := by
  refine List.nodup_iff_getElem?_ne_getElem?.2 fun i j hij hj heq => ?_
  have hi := List.getElem?_eq_getElem (hij.trans hj)
  have hindex := (g.indices_eq _ i).2 hi
  rw [(g.indices_eq _ j).2 (heq ▸ hi)] at hindex
  exact hij.ne' (Option.some.inj hindex)

private theorem exists_index {g : Graph} {file : String} (h : file ∈ g.files) : ∃ i, g.index? file = some i := by
  obtain ⟨i, hi⟩ := List.mem_iff_getElem?.1 h
  exact ⟨i, (g.indices_eq file i).2 hi⟩

private theorem index?_eq_none {g : Graph} {file : String} (h : file ∉ g.files) : g.index? file = none := by
  rw [Option.eq_none_iff_forall_ne_some]
  intro i hi
  exact h (List.mem_of_getElem? ((g.indices_eq file i).1 hi))

/-- The importer of a link has a name. -/
theorem exists_source (g : Graph) {l : Link} (hl : l ∈ g.links) : ∃ file, g.files[l.source]? = some file :=
  ⟨_, List.getElem?_eq_getElem (g.source_lt l hl)⟩

private theorem source_eq_iff {g : Graph} {l : Link} {importer file : String} {i : Nat}
    (hl : g.files[l.source]? = some importer) (hi : g.index? file = some i) : l.source = i ↔ importer = file := by
  constructor
  · rintro rfl
    exact Option.some.inj (hl.symm.trans ((g.indices_eq ..).1 hi))
  · rintro rfl
    exact Option.some.inj (((g.indices_eq ..).2 hl).symm.trans hi)

private theorem target_eq_iff {g : Graph} {l : Link} (hl : l ∈ g.links) {file : String} {i : Nat}
    (hi : g.index? file = some i) : l.target = i ↔ l.edge.normalized = file := by
  constructor
  · rintro rfl
    exact Option.some.inj ((g.target_eq l hl).symm.trans ((g.indices_eq ..).1 hi))
  · rintro rfl
    exact Option.some.inj (((g.indices_eq ..).2 (g.target_eq l hl)).symm.trans hi)

/-! ### The edges at a file -/

/-- The importers of edges have been mentioned. -/
theorem fst_mem_files {g : Graph} {x : String × Edge} (hx : x ∈ g.edges) : x.1 ∈ g.files := by
  obtain ⟨l, -, hl⟩ := List.mem_filterMap.1 hx
  obtain ⟨importer, himporter, rfl⟩ := Option.map_eq_some_iff.1 hl
  exact List.mem_of_getElem? himporter

/-- So have their targets. -/
theorem normalized_mem_files {g : Graph} {x : String × Edge} (hx : x ∈ g.edges) : x.2.normalized ∈ g.files := by
  obtain ⟨l, hmem, hl⟩ := List.mem_filterMap.1 hx
  obtain ⟨importer, -, rfl⟩ := Option.map_eq_some_iff.1 hl
  exact List.mem_of_getElem? (g.target_eq l hmem)

/-- Links collected latest first are brought back into the order of recording by their indices. -/
private theorem mergeSort_reverse (links : List Link) (p : Link × Nat → Bool) :
    ((links.zipIdx.filter p).reverse.mergeSort fun x y => x.2 ≤ y.2) = links.zipIdx.filter p := by
  have hordered : (links.zipIdx.filter p).Pairwise fun x y => x.2 ≤ y.2 := by
    have h : (links.zipIdx.map Prod.snd).Pairwise (· < ·) := by
      rw [List.zipIdx_map_snd]
      exact List.pairwise_lt_range' 1
    exact ((List.pairwise_map.1 h).filter p).imp Nat.le_of_lt
  have hsorted : ((links.zipIdx.filter p).reverse.mergeSort fun x y => x.2 ≤ y.2).Pairwise
      fun x y => decide (x.2 ≤ y.2) = true :=
    List.pairwise_mergeSort (fun x y z => by simpa using Nat.le_trans) (fun x y => by simpa using Nat.le_total x.2 y.2) _
  have hperm := (List.mergeSort_perm (links.zipIdx.filter p).reverse fun x y => x.2 ≤ y.2).trans (List.reverse_perm _)
  refine hperm.eq_of_pairwise (fun x y hx hy hxy hyx => ?_) (hsorted.imp of_decide_eq_true) hordered
  -- there is one link at an index
  have hmem : ∀ z ∈ links.zipIdx.filter p, links[z.2]? = some z.1 := fun z hz =>
    List.mk_mem_zipIdx_iff_getElem?.1 (List.mem_of_mem_filter hz)
  have hindex := Nat.le_antisymm hxy hyx
  have hlink := hmem x (hperm.subset hx)
  rw [hindex, hmem y hy] at hlink
  exact Prod.ext (Option.some.inj hlink).symm hindex

private theorem map_fst_filter_zipIdx (links : List Link) (p : Link → Bool) :
    (links.zipIdx.filter (p ·.1)).map Prod.fst = links.filter p := by
  conv_rhs => rw [← List.zipIdx_map_fst 0 links, List.filter_map]
  rfl

private theorem edgesAt_eq {g : Graph} {file : String} {i : Nat} (hi : g.index? file = some i) (side : Link → Nat) :
    g.edgesAt side file = (g.links.filter (side · == i)).map Link.edge := by
  rw [edgesAt, linksAt, hi]
  dsimp only
  rw [mergeSort_reverse, ← map_fst_filter_zipIdx, List.map_map]
  rfl

private theorem edgesAt_eq_nil {g : Graph} {file : String} (hfile : file ∉ g.files) (side : Link → Nat) :
    g.edgesAt side file = [] := by
  simp [edgesAt, linksAt, index?_eq_none hfile]

private theorem filter_edges_eq_nil {g : Graph} {key : String × Edge → String} (hkey : ∀ x ∈ g.edges, key x ∈ g.files)
    {file : String} (hfile : file ∉ g.files) : g.edges.filter (key · == file) = [] := by
  rw [List.filter_eq_nil_iff]
  intro x hx heq
  exact hfile (eq_of_beq heq ▸ hkey x hx)

/-- The edges that leave a file are those with its name. -/
private theorem filter_edges_source {g : Graph} {file : String} {i : Nat} (hi : g.index? file = some i) :
    g.edges.filter (·.1 == file) = (g.links.filter (·.source == i)).map ((file, ·.edge)) := by
  unfold edges
  rw [List.filter_filterMap, ← List.filterMap_eq_map, List.filterMap_filter]
  refine List.filterMap_congr fun l hl => ?_
  obtain ⟨importer, himporter⟩ := g.exists_source hl
  have hiff := source_eq_iff himporter hi
  rw [himporter]
  by_cases heq : importer = file
  · simp [heq, hiff.2 heq, Option.filter]
  · simp [heq, mt hiff.1 heq, Option.filter]

/-- The edges that reach a file are those to its name. -/
private theorem filter_edges_target {g : Graph} {file : String} {i : Nat} (hi : g.index? file = some i) :
    g.edges.filter (·.2.normalized == file) =
      (g.links.filter (·.target == i)).filterMap fun l => (g.files[l.source]?).map (·, l.edge) := by
  unfold edges
  rw [List.filter_filterMap, List.filterMap_filter]
  refine List.filterMap_congr fun l hl => ?_
  obtain ⟨importer, himporter⟩ := g.exists_source hl
  have hiff := target_eq_iff hl hi
  rw [himporter]
  by_cases heq : l.edge.normalized = file
  · simp [heq, hiff.2 heq, Option.filter]
  · simp [heq, mt hiff.1 heq, Option.filter]

theorem importsOf_eq (g : Graph) (file : String) :
    g.importsOf file = (g.edges.filter (·.1 == file)).map Prod.snd := by
  by_cases hfile : file ∈ g.files
  · obtain ⟨i, hi⟩ := exists_index hfile
    rw [importsOf, edgesAt_eq hi, filter_edges_source hi, List.map_map]
    rfl
  · have hnone : g.edges.filter (·.1 == file) = [] := filter_edges_eq_nil (fun _ => fst_mem_files) hfile
    rw [importsOf, edgesAt_eq_nil hfile, hnone, List.map_nil]

theorem importersOf_eq (g : Graph) (file : String) :
    g.importersOf file = (g.edges.filter (·.2.normalized == file)).map Prod.snd := by
  by_cases hfile : file ∈ g.files
  · obtain ⟨i, hi⟩ := exists_index hfile
    rw [importersOf, edgesAt_eq hi, filter_edges_target hi, List.map_filterMap, ← List.filterMap_eq_map]
    refine List.filterMap_congr fun l hl => ?_
    obtain ⟨importer, himporter⟩ := g.exists_source (List.mem_of_mem_filter hl)
    rw [himporter]
    rfl
  · have hnone : g.edges.filter (·.2.normalized == file) = [] := filter_edges_eq_nil (fun _ => normalized_mem_files) hfile
    rw [importersOf, edgesAt_eq_nil hfile, hnone, List.map_nil]

/-- The importers come latest first. -/
theorem importerPaths_eq (g : Graph) (file : String) :
    g.importerPaths file = ((g.edges.filter (·.2.normalized == file)).map Prod.fst).reverse := by
  by_cases hfile : file ∈ g.files
  · obtain ⟨i, hi⟩ := exists_index hfile
    rw [importerPaths, linksAt, hi, filter_edges_target hi, List.map_filterMap]
    dsimp only
    rw [List.filterMap_reverse, ← map_fst_filter_zipIdx, List.filterMap_map]
    refine congrArg List.reverse (List.filterMap_congr fun x _ => ?_)
    cases h : g.files[x.1.source]? <;> simp [h]
  · have hnone : g.edges.filter (·.2.normalized == file) = [] := filter_edges_eq_nil (fun _ => normalized_mem_files) hfile
    rw [importerPaths, linksAt, index?_eq_none hfile, hnone]
    rfl

/-! ### One call -/

private theorem files_addFile_eq (g : Graph) (file : String) :
    (g.addFile file).files = if file ∈ g.files then g.files else g.files ++ [file] := by
  unfold addFile
  rcases g.mention_cases file with ⟨i, hi, heq⟩ | ⟨hnone, hfiles, -, -⟩
  · rw [heq, if_pos (List.mem_of_getElem? ((g.indices_eq file i).1 hi))]
  · rw [hfiles, if_neg]
    intro hmem
    obtain ⟨i, hi⟩ := exists_index hmem
    rw [hi] at hnone
    cases hnone

private theorem links_addFile (g : Graph) (file : String) : (g.addFile file).links = g.links := by
  unfold addFile
  rcases g.mention_cases file with ⟨i, -, heq⟩ | ⟨-, -, hlinks, -⟩
  · rw [heq]
  · exact hlinks

/-- The importer of a link keeps its name when a file is mentioned. -/
private theorem getElem?_files_addFile (g : Graph) (file : String) {l : Link} (hl : l ∈ g.links) :
    (g.addFile file).files[l.source]? = g.files[l.source]? := by
  obtain ⟨importer, himporter⟩ := g.exists_source hl
  rw [himporter]
  exact getElem?_mention_of_some himporter file

@[simp] theorem edges_addFile (g : Graph) (file : String) : (g.addFile file).edges = g.edges := by
  unfold edges
  rw [links_addFile]
  refine List.filterMap_congr fun l hl => ?_
  rw [getElem?_files_addFile g file hl]

private theorem links_addImport (g : Graph) (importer : String) (edge : Edge) : ∃ l : Link, l.edge = edge ∧
    (g.addImport importer edge).files[l.source]? = some importer ∧
    (g.addImport importer edge).links = g.links ++ [l] := by
  refine ⟨⟨(g.mention importer).2, ((g.mention importer).1.mention edge.normalized).2, edge⟩, rfl,
    getElem?_mention_of_some (g.getElem?_mention importer) edge.normalized, ?_⟩
  show ((g.addFile importer).addFile edge.normalized).links ++ _ = _
  rw [links_addFile, links_addFile]

@[simp] theorem edges_addImport (g : Graph) (importer : String) (edge : Edge) :
    (g.addImport importer edge).edges = g.edges ++ [(importer, edge)] := by
  obtain ⟨l, rfl, hsource, hlinks⟩ := g.links_addImport importer edge
  have hold : g.edges = ((g.addFile importer).addFile l.edge.normalized).edges := by
    rw [edges_addFile, edges_addFile]
  rw [hold]
  unfold edges
  rw [hlinks, List.filterMap_append, links_addFile, links_addFile, List.filterMap_cons, hsource]
  rfl

theorem edges_record (g : Graph) (imports : List (String × Edge)) : (g.record imports).edges = g.edges ++ imports := by
  induction imports generalizing g with
  | nil => simp
  | cons x imports ih => rw [record_cons, ih, edges_addImport, List.append_assoc, List.singleton_append]

theorem eraseDups_concat (files : List String) (file : String) :
    (files ++ [file]).eraseDups = if file ∈ files then files.eraseDups else files.eraseDups ++ [file] := by
  rw [List.eraseDups_append]
  split <;> rename_i h <;> simp [List.removeAll, List.eraseDups_cons, h]

/-- A file that is mentioned comes after those that were mentioned before, unless it is one of them. -/
theorem files_addFile {g : Graph} {mentioned : List String} (hg : g.files = mentioned.eraseDups) (file : String) :
    (g.addFile file).files = (mentioned ++ [file]).eraseDups := by
  rw [files_addFile_eq, eraseDups_concat, hg]
  by_cases h : file ∈ mentioned <;> simp [h]

private theorem files_addImport {g : Graph} {mentioned : List String} (hg : g.files = mentioned.eraseDups)
    {importer : String} (hi : importer ∈ mentioned) (edge : Edge) :
    (g.addImport importer edge).files = (mentioned ++ [edge.normalized]).eraseDups := by
  have himporter : (g.addFile importer).files = mentioned.eraseDups := by
    rw [files_addFile hg, eraseDups_concat, if_pos hi]
  exact files_addFile himporter edge.normalized

theorem files_record {importer : String} {imports : List (String × Edge)} (himports : ∀ x ∈ imports, x.1 = importer)
    {g : Graph} {mentioned : List String} (hg : g.files = mentioned.eraseDups) (hi : importer ∈ mentioned) :
    (g.record imports).files = (mentioned ++ imports.map (·.2.normalized)).eraseDups := by
  induction imports generalizing g mentioned with
  | nil => simpa using hg
  | cons x imports ih =>
    obtain ⟨rfl, hrest⟩ := List.forall_mem_cons.1 himports
    have hnext := ih hrest (files_addImport hg hi x.2) (List.mem_append_left _ hi)
    rw [record_cons, hnext, List.append_assoc, List.singleton_append, List.map_cons]

theorem importsOf_eq_nil {g : Graph} {file : String} (hg : ∀ x ∈ g.edges, x.1 ≠ file) : g.importsOf file = [] := by
  have hnone : g.edges.filter (·.1 == file) = [] := by
    rw [List.filter_eq_nil_iff]
    intro x hx
    simpa using hg x hx
  rw [importsOf_eq, hnone, List.map_nil]

/-- The edges of files with their imports. -/
private def edgesOf (groups : List (String × List Edge)) : List (String × Edge) :=
  groups.flatMap fun x => x.2.map (x.1, ·)

private theorem filter_edgesOf_of_ne {file : String} {groups : List (String × List Edge)}
    (hgroups : ∀ x ∈ groups, x.1 ≠ file) : (edgesOf groups).filter (·.1 == file) = [] := by
  rw [List.filter_eq_nil_iff]
  intro y hy
  obtain ⟨x, hx, hy⟩ := List.mem_flatMap.1 hy
  obtain ⟨edge, -, rfl⟩ := List.mem_map.1 hy
  simpa using hgroups x hx

/-- If every file has recorded its imports at one time, they are what the file imports. -/
theorem importsOf_of_grouped {g : Graph} {groups : List (String × List Edge)}
    (hg : g.edges = groups.flatMap fun x => x.2.map (x.1, ·)) (hnodup : (groups.map Prod.fst).Nodup)
    {file : String} {edges : List Edge} (hfile : (file, edges) ∈ groups) : g.importsOf file = edges := by
  obtain ⟨before, after, rfl⟩ := List.append_of_mem hfile
  rw [List.map_append, List.map_cons, List.nodup_middle, List.nodup_cons, ← List.map_append] at hnodup
  have hfresh : file ∉ (before ++ after).map Prod.fst := hnodup.1
  have hother : ∀ y ∈ before ++ after, y.1 ≠ file := by
    rintro y hy rfl
    exact hfresh (List.mem_map_of_mem hy)
  have hbefore := filter_edgesOf_of_ne fun y hy => hother y (List.mem_append_left _ hy)
  have hafter := filter_edgesOf_of_ne fun y hy => hother y (List.mem_append_right _ hy)
  have hown : (edges.map (file, ·)).filter (·.1 == file) = edges.map (file, ·) := by
    simp
  have hedges : g.edges = edgesOf before ++ (edges.map (file, ·) ++ edgesOf after) := by
    rw [hg, List.flatMap_append, List.flatMap_cons]
    rfl
  rw [importsOf_eq, hedges, List.filter_append, List.filter_append, hbefore, hown, hafter]
  simp [Function.comp_def]

/-- One file imports another. -/
def LeadsTo (g : Graph) (a b : String) : Prop := ∃ edge, (a, edge) ∈ g.edges ∧ edge.normalized = b

end ScriptHost.Imports.Graph
