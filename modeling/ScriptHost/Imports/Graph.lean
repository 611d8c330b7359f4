import ScriptHost.Table

/-!
# Import graphs

Which files import which.  A file has an index, which is its place in the order of first mention, and so has an edge,
which is its place in the order of recording; nothing is ever taken out of a graph.  The indices of the files are kept
beside the files, and an edge joins two indices.
-/

namespace ScriptHost.Imports

/-- An import of a file that was found. -/
structure Edge where
  /-- The module as it is named by the importer. -/
  raw : String
  /-- The file that was found. -/
  resolved : String
  /-- The path by which the imported script is known. -/
  normalized : String
  deriving DecidableEq, Repr

/-- An edge between two indices. -/
structure Link where
  /-- The index of the importer. -/
  source : Nat
  /-- The index of the imported script. -/
  target : Nat
  edge : Edge
  deriving DecidableEq, Repr

/-- Files with their imports of each other. -/
structure Graph where
  /-- The files, each at its index. -/
  files : List String
  /-- The index of each file. -/
  indices : Table String Nat
  /-- The edges, each at its index. -/
  links : List Link
  indices_eq : ∀ file i, indices.get? file = some i ↔ files[i]? = some file
  source_lt : ∀ l ∈ links, l.source < files.length
  target_eq : ∀ l ∈ links, files[l.target]? = some l.edge.normalized
  deriving DecidableEq

namespace Graph

/-- The graph without files. -/
def empty : Graph := ⟨[], .empty, [], by simp, by simp, by simp⟩

instance : Inhabited Graph := ⟨empty⟩

/-- The index of a file. -/
def index? (g : Graph) (file : String) : Option Nat := g.indices.get? file

/-- Whether a file has been mentioned. -/
def contains (g : Graph) (file : String) : Bool := g.indices.contains file

private theorem getElem?_concat (files : List String) (file : String) (i : Nat) :
    (files ++ [file])[i]? = if i = files.length then some file else files[i]? := by
  split
  · next h => rw [h, List.getElem?_concat_length]
  · next h =>
    rcases Nat.lt_or_gt_of_ne h with hlt | hgt
    · exact List.getElem?_append_left hlt
    · rw [List.getElem?_eq_none (by simp; omega), List.getElem?_eq_none (by omega)]

/-- The graph with one more file. -/
private def extend (g : Graph) (file : String) (hfile : g.index? file = none) : Graph where
  files := g.files ++ [file]
  indices := g.indices.insert file g.files.length
  links := g.links
  indices_eq := by
    intro f i
    have hnew : ∀ j, g.files[j]? ≠ some file := fun j h => by
      rw [index?, (g.indices_eq file j).2 h] at hfile
      cases hfile
    rw [Table.get?_insert, getElem?_concat]
    by_cases hf : f = file
    · by_cases hi : i = g.files.length <;> simp [hf, hi, hnew, eq_comm]
    · by_cases hi : i = g.files.length
      · simp [hf, hi, g.indices_eq, Ne.symm hf]
      · simp [hf, hi, g.indices_eq]
  source_lt := by
    intro l hl
    have hsource := g.source_lt l hl
    rw [List.length_append]
    omega
  target_eq := by
    intro l hl
    have htarget := g.target_eq l hl
    rw [List.getElem?_append_left (List.getElem?_eq_some_iff.1 htarget).1, htarget]

/-- Mentions a file, which has an index then. -/
def mention (g : Graph) (file : String) : Graph × Nat :=
  match h : g.index? file with
  | some i => (g, i)
  | none => (g.extend file h, g.files.length)

/-- A file that is mentioned keeps its index, or comes after all others. -/
theorem mention_cases (g : Graph) (file : String) :
    (∃ i, g.index? file = some i ∧ g.mention file = (g, i)) ∨
    (g.index? file = none ∧ (g.mention file).1.files = g.files ++ [file] ∧
      (g.mention file).1.links = g.links ∧ (g.mention file).2 = g.files.length) := by
  unfold mention
  split
  · next i h => exact .inl ⟨i, h, rfl⟩
  · next h => exact .inr ⟨h, rfl, rfl, rfl⟩

/-- A file is at its index from the time it is mentioned. -/
theorem getElem?_mention (g : Graph) (file : String) :
    (g.mention file).1.files[(g.mention file).2]? = some file := by
  rcases g.mention_cases file with ⟨i, hi, h⟩ | ⟨-, hfiles, -, hi⟩
  · rw [h]
    exact (g.indices_eq file i).1 hi
  · rw [hfiles, hi, List.getElem?_concat_length]

/-- A file keeps its index when another one is mentioned. -/
theorem getElem?_mention_of_some {g : Graph} {file : String} {i : Nat} (h : g.files[i]? = some file)
    (other : String) : (g.mention other).1.files[i]? = some file := by
  rcases g.mention_cases other with ⟨i, -, heq⟩ | ⟨-, hfiles, -, -⟩
  · rwa [heq]
  · rw [hfiles, List.getElem?_append_left (List.getElem?_eq_some_iff.1 h).1, h]

/-- Mentions a file. -/
def addFile (g : Graph) (file : String) : Graph := (g.mention file).1

/-- The graph with one more edge. -/
private def join (g : Graph) (l : Link) (hs : l.source < g.files.length)
    (ht : g.files[l.target]? = some l.edge.normalized) : Graph where
  files := g.files
  indices := g.indices
  links := g.links ++ [l]
  indices_eq := g.indices_eq
  source_lt := by
    intro m hm
    rcases List.mem_append.1 hm with hm | hm
    · exact g.source_lt m hm
    · rwa [List.mem_singleton.1 hm]
  target_eq := by
    intro m hm
    rcases List.mem_append.1 hm with hm | hm
    · exact g.target_eq m hm
    · rwa [List.mem_singleton.1 hm]

/-- Records that `importer` imports the file of an edge. -/
def addImport (g : Graph) (importer : String) (edge : Edge) : Graph :=
  let source := g.mention importer
  let target := source.1.mention edge.normalized
  have hs := getElem?_mention_of_some (g.getElem?_mention importer) edge.normalized
  target.1.join ⟨source.2, target.2, edge⟩ (List.getElem?_eq_some_iff.1 hs).1
    (source.1.getElem?_mention edge.normalized)

/-- The number of files. -/
def fileCount (g : Graph) : Nat := g.files.length

/-- The number of edges. -/
def importCount (g : Graph) : Nat := g.links.length

/-- The importers with what they import, in the order of recording. -/
def edges (g : Graph) : List (String × Edge) := g.links.filterMap fun l => (g.files[l.source]?).map (·, l.edge)

/-- The links at a file, each with its index, latest first: those that leave it, or those that reach it. -/
def linksAt (g : Graph) (side : Link → Nat) (file : String) : List (Link × Nat) :=
  match g.index? file with
  | some i => (g.links.zipIdx.filter fun x => side x.1 == i).reverse
  | none => []

/-- The edges at a file, in the order of recording. -/
def edgesAt (g : Graph) (side : Link → Nat) (file : String) : List Edge :=
  ((g.linksAt side file).mergeSort fun x y => x.2 ≤ y.2).map (·.1.edge)

/-- What a file imports, in the order of recording. -/
def importsOf (g : Graph) (file : String) : List Edge := g.edgesAt Link.source file

/-- The imports of a file, in the order of recording. -/
def importersOf (g : Graph) (file : String) : List Edge := g.edgesAt Link.target file

/-- The files that import a file, one for every import. -/
def importerPaths (g : Graph) (file : String) : List String :=
  (g.linksAt Link.target file).filterMap fun x => g.files[x.1.source]?

/-- The size of a graph in words. -/
def summary (g : Graph) : String :=
  "ImportGraph \x7b file_count: " ++ toString g.fileCount ++ ", import_count: " ++ toString g.importCount ++ " \x7d"

end Graph

end ScriptHost.Imports
