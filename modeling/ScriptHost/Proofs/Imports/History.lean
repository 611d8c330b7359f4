import Mathlib.Algebra.BigOperators.Group.Finset.Basic
import Mathlib.Algebra.Order.Ring.Nat
import ScriptHost.Proofs.Imports.Graph

/-!
# Graphs and the calls that built them

A graph is built by calls, each of which mentions a file or records an import.  Whatever the calls were, it represents
them (`after_represents`): the files are the paths that were mentioned, each at its first mention, and the edges are the
imports that were recorded.
-/

namespace ScriptHost.Imports

/-- A call that adds to a graph. -/
inductive Call where
  | file (path : String)
  | imports (importer : String) (edge : Edge)
  deriving DecidableEq, Repr

namespace Call

/-- The paths that a call mentions, in their order. -/
def paths : Call → List String
  | file path => [path]
  | imports importer edge => [importer, edge.normalized]

/-- The imports that a call records, each with its importer. -/
def recorded : Call → List (String × Edge)
  | file _ => []
  | imports importer edge => [(importer, edge)]

/-- Whether a call records an import. -/
def isImport : Call → Bool
  | file _ => false
  | imports _ _ => true

/-- Adds to a graph. -/
def run (g : Graph) : Call → Graph
  | file path => g.addFile path
  | imports importer edge => g.addImport importer edge

private theorem length_recorded (c : Call) : c.recorded.length = if c.isImport then 1 else 0 := by
  cases c <;> rfl

end Call

namespace Graph

/-- The graph that calls build. -/
def after (history : List Call) : Graph := history.foldl Call.run .empty

/-- The paths that calls mention, in their order. -/
def mentioned (history : List Call) : List String := history.flatMap Call.paths

/-- The imports that calls record, in their order. -/
def recorded (history : List Call) : List (String × Edge) := history.flatMap Call.recorded

@[simp] theorem mentioned_concat (history : List Call) (c : Call) :
    mentioned (history ++ [c]) = mentioned history ++ c.paths := by
  simp [mentioned]

@[simp] theorem recorded_concat (history : List Call) (c : Call) :
    recorded (history ++ [c]) = recorded history ++ c.recorded := by
  simp [recorded]

/-! ### One call, all calls -/

/-- The names in a graph are those of its history. -/
structure Records (g : Graph) (history : List Call) : Prop where
  files : g.files = (mentioned history).eraseDups
  edges : g.edges = recorded history

private theorem Records.run {g : Graph} {history : List Call} (h : g.Records history) (c : Call) :
    (c.run g).Records (history ++ [c]) := by
  cases c with
  | file path =>
    refine ⟨?_, ?_⟩
    · rw [mentioned_concat]
      exact files_addFile h.files path
    · show (g.addFile path).edges = _
      rw [edges_addFile, h.edges, recorded_concat]
      exact (List.append_nil _).symm
  | imports importer edge =>
    refine ⟨?_, ?_⟩
    · rw [mentioned_concat]
      -- the importer is mentioned before the target
      have himporter := files_addFile h.files importer
      show ((g.addFile importer).addFile edge.normalized).files = _
      rw [files_addFile himporter, List.append_assoc]
      rfl
    · show (g.addImport importer edge).edges = _
      rw [edges_addImport, h.edges, recorded_concat]
      rfl

private theorem after_records (history : List Call) : (after history).Records history := by
  induction history using List.reverseRecOn with
  | nil => exact ⟨rfl, rfl⟩
  | append_singleton history c ih =>
    unfold after
    rw [List.foldl_concat]
    exact ih.run c

/-! ### The files -/

/-- Paths stand in the order of their first mention. -/
private theorem pairwise_eraseDups (paths : List String) :
    paths.eraseDups.Pairwise fun a b => paths.idxOf a < paths.idxOf b := by
  induction paths using List.reverseRecOn with
  | nil => simp
  | append_singleton paths path ih =>
    have hkept : paths.eraseDups.Pairwise fun a b => (paths ++ [path]).idxOf a < (paths ++ [path]).idxOf b := by
      refine ih.imp_of_mem fun ha hb hab => ?_
      rwa [List.idxOf_append_of_mem (List.mem_eraseDups.1 ha), List.idxOf_append_of_mem (List.mem_eraseDups.1 hb)]
    rw [eraseDups_concat]
    split
    · exact hkept
    · next hnew =>
      refine List.pairwise_append.2 ⟨hkept, List.pairwise_singleton .., fun a ha b hb => ?_⟩
      have ha := List.mem_eraseDups.1 ha
      rw [List.mem_singleton.1 hb, List.idxOf_append_of_mem ha, List.idxOf_append_of_notMem hnew]
      exact Nat.lt_add_right _ (List.idxOf_lt_length_of_mem ha)

/-- Every edge is counted at one file. -/
private theorem sum_length_filter {files : List String} (hfiles : files.Nodup) {edges : List (String × Edge)}
    (key : String × Edge → String) (hkey : ∀ x ∈ edges, key x ∈ files) :
    (files.map fun file => (edges.filter (key · == file)).length).sum = edges.length := by
  have hcount : ∀ file, (edges.filter (key · == file)).length = (edges.map key : Multiset String).count file := by
    intro file
    rw [Multiset.coe_count, List.count, List.countP_map, List.countP_eq_length_filter]
    rfl
  have hmem : ∀ file ∈ (edges.map key : Multiset String), file ∈ files.toFinset := by
    intro file hfile
    obtain ⟨x, hx, rfl⟩ := List.mem_map.1 (Multiset.mem_coe.1 hfile)
    exact List.mem_toFinset.2 (hkey x hx)
  simp only [hcount]
  rw [← List.sum_toFinset _ hfiles, Multiset.sum_count_eq_card hmem, Multiset.coe_card, List.length_map]

/-! ### What a graph says of its history -/

/-- A graph answers for the calls of its history. -/
structure Represents (g : Graph) (history : List Call) : Prop where
  /-- No file is kept twice. -/
  files_nodup : g.files.Nodup
  mem_files : ∀ path, path ∈ g.files ↔ path ∈ mentioned history
  files_ordered : g.files.Pairwise fun a b => (mentioned history).idxOf a < (mentioned history).idxOf b
  contains_iff : ∀ path, g.contains path = true ↔ path ∈ mentioned history
  fileCount_eq : g.fileCount = (mentioned history).toFinset.card
  importCount_eq : g.importCount = history.countP Call.isImport
  /-- Imports are kept in the order of recording, repeated ones and those of a file by itself too. -/
  importsOf_eq : ∀ file, g.importsOf file = ((recorded history).filter (·.1 == file)).map Prod.snd
  importersOf_eq : ∀ file, g.importersOf file = ((recorded history).filter (·.2.normalized == file)).map Prod.snd
  importerPaths_perm : ∀ file,
    (g.importerPaths file).Perm (((recorded history).filter (·.2.normalized == file)).map Prod.fst)
  sum_importsOf : (g.files.map fun file => (g.importsOf file).length).sum = g.importCount
  sum_importersOf : (g.files.map fun file => (g.importersOf file).length).sum = g.importCount

private theorem length_edges (g : Graph) : g.edges.length = g.importCount := by
  have hlinks : g.edges = g.links.map fun l => (g.files[l.source]?.getD "", l.edge) := by
    refine List.filterMap_eq_map_iff_forall_eq_some.2 fun l hl => ?_
    obtain ⟨importer, himporter⟩ := g.exists_source hl
    rw [himporter]
    rfl
  rw [hlinks, List.length_map, importCount]

private theorem length_recorded (history : List Call) : (recorded history).length = history.countP Call.isImport := by
  induction history with
  | nil => rfl
  | cons c history ih =>
    rw [recorded, List.flatMap_cons, List.length_append, Call.length_recorded, List.countP_cons, Nat.add_comm]
    exact congrArg (· + _) ih

/-- A graph represents its history. -/
theorem after_represents (history : List Call) : (after history).Represents history := by
  obtain ⟨hfiles, hedges⟩ := after_records history
  have hmem : ∀ path, path ∈ (after history).files ↔ path ∈ mentioned history := fun path => by
    rw [hfiles, List.mem_eraseDups]
  have hnodup := (after history).nodup_files
  exact {
    files_nodup := hnodup
    mem_files := hmem
    files_ordered := by
      rw [hfiles]
      exact pairwise_eraseDups _
    contains_iff := fun path => contains_eq_true_iff.trans (hmem path)
    fileCount_eq := by
      rw [fileCount, ← List.toFinset_card_of_nodup hnodup]
      exact congrArg Finset.card (Finset.ext fun path => by rw [List.mem_toFinset, List.mem_toFinset, hmem])
    importCount_eq := by rw [← length_edges, hedges, length_recorded]
    importsOf_eq := fun file => by rw [Graph.importsOf_eq, hedges]
    importersOf_eq := fun file => by rw [Graph.importersOf_eq, hedges]
    importerPaths_perm := fun file => by
      rw [importerPaths_eq, hedges]
      exact List.reverse_perm _
    sum_importsOf := by
      simp only [Graph.importsOf_eq, List.length_map]
      rw [sum_length_filter hnodup Prod.fst fun _ => fst_mem_files, length_edges]
    sum_importersOf := by
      simp only [Graph.importersOf_eq, List.length_map]
      rw [sum_length_filter hnodup (·.2.normalized) fun _ => normalized_mem_files, length_edges] }

/-- A file that imports itself twice is one file, and the two imports both leave and reach it. -/
example :
    let e : Edge := ⟨"./a", "/r/a.ts", "/r/a.ts"⟩
    let g := after [.imports "/r/a.ts" e, .file "/r/a.ts", .imports "/r/a.ts" e]
    g.files = ["/r/a.ts"] ∧ g.importCount = 2 ∧ g.importerPaths "/r/a.ts" = ["/r/a.ts", "/r/a.ts"] := by
  decide +kernel

end Graph

end ScriptHost.Imports
