import ScriptHost.Analysis.SyntaxEngine
import ScriptHost.Proofs.Host.Step
import ScriptHost.Proofs.Path.Beside
import ScriptHost.Proofs.Resolution.Transparency

/-!
# Listing imports and walking them

The imports of a tracked script are listed as seen from its key, but a walk follows them as seen from its file.  The two
give the same edges if and only if every name leads to the same file from both (`importsOfFile_eq_walked_iff`).  The key
is in the directory of the file, so this is the rule; but if there is a directory by that path, or if the path is
nothing but an extension, the key is taken for a directory itself (`originDirectory_sourcePath`).
-/

namespace ScriptHost

open ScriptHost.Analysis ScriptHost.Imports ScriptHost.Path ScriptHost.Resolution ScriptHost.Text

/-! ### Where names are looked up -/

/-- Whether names are looked up from the source path of a file as they are from the file. -/
def SeenBeside (d : Disk) (file : String) : Prop :=
  d.isFile (sourcePath file) = true ∨
    (fileName? file ≠ some declarationExtension ∧ d.isDirectory (sourcePath file) = false)

namespace Resolution

variable {d : Disk} {file : String}

private theorem originDirectory_eq_parent (hf : d.isFile file = true) : originDirectory d file =
    (parent? file).getD "" := by
  rw [originDirectory, hf, Bool.true_or, if_pos rfl]

/-- The source path of a file is taken for a file in the same directory or for a directory itself. -/
theorem originDirectory_sourcePath (hf : d.isFile file = true) :
    (SeenBeside d file → originDirectory d (sourcePath file) = originDirectory d file) ∧
      (¬ SeenBeside d file → originDirectory d (sourcePath file) = sourcePath file) := by
  have ha := Disk.isAbsolute_of_isFile hf
  have he := Disk.ended_of_isFile hf
  have hseen : SeenBeside d file ↔ (d.isFile (sourcePath file) ||
      ((extension? (sourcePath file)).isSome && !d.isDirectory (sourcePath file))) = true := by
    rw [SeenBeside, Bool.or_eq_true, Bool.and_eq_true, isSome_extension?_sourcePath ha he, Bool.not_eq_true']
  constructor
  · intro hs
    rw [originDirectory_eq_parent hf, originDirectory, if_pos (hseen.1 hs), parent?_sourcePath ha he]
  · intro hs
    rw [originDirectory, if_neg fun h => hs (hseen.2 h)]

end Resolution

/-! ### Edges -/

/-- Lists that hold at most one thing for each name are the same if and only if they hold the same for all names. -/
private theorem filterMap_eq_iff_of_tag {α β : Type} {f g : α → Option β} {tag : β → α}
    (hf : ∀ a b, f a = some b → tag b = a) (hg : ∀ a b, g a = some b → tag b = a) {names : List α} :
    names.filterMap f = names.filterMap g ↔ ∀ a ∈ names, f a = g a := by
  constructor
  · intro heq a ha
    -- what a list holds for a name can be told by the tag
    have hmem : ∀ {f : α → Option β}, (∀ a b, f a = some b → tag b = a) → ∀ b,
        f a = some b ↔ b ∈ names.filterMap f ∧ tag b = a := by
      intro f hf b
      rw [List.mem_filterMap]
      constructor
      · exact fun hb => ⟨⟨a, ha, hb⟩, hf a b hb⟩
      · rintro ⟨⟨a', -, hb⟩, rfl⟩
        rwa [hf a' b hb]
    refine Option.ext fun b => ?_
    rw [hmem hf, hmem hg, heq]
  · exact List.filterMap_congr

namespace Host

variable {σ : Type} {d : Disk}

/-- The file to which a name leads as seen from an origin. -/
def fileFrom (name origin : String) (d : Disk) (h : Host σ) : Option String :=
  (identify name (some origin) d h).1.toOption.map (·.resolved)

/-- What a text imports is what its names stand for, although they are looked up one after the other. -/
private theorem importsIn_answer (source origin : String) (d : Disk) (h : Host σ) :
    (importsIn source origin d h).1 = .ok (identified origin (importNames h.tools.resolver source) d h) := by
  obtain ⟨h', hrun, -, -⟩ := importsIn_run source origin d h
  rw [hrun]
  refine congrArg _ (List.filterMap_congr fun name _ => ?_)
  have hkept : (identify name (some origin) d (importsIn source origin d h).2).1 =
      (identify name (some origin) d h).1 :=
    identifyAll_keeps (I := fun h' => (identify name (some origin) d h').1 = (identify name (some origin) d h).1)
      (fun raw _ h' hh => (identify_after name raw (some origin) d h').trans hh) h rfl
  rw [hrun] at hkept
  rw [hkept]

/-- The edges to the scripts that names stand for tell no more than to which files the names lead. -/
private theorem map_edgeTo_identified {h : Host σ} (hm : h.memo.Sound) (origin : String) (names : List String) :
    (identified origin names d h).map (fun (name, j) => edgeTo name j) =
      names.filterMap fun name => (fileFrom name origin d h).map fun path => ⟨name, path, sourcePath path⟩ := by
  rw [identified, List.map_filterMap]
  refine List.filterMap_congr fun name _ => ?_
  unfold fileFrom
  cases hi : (identify name (some origin) d h).1 with
  | error e => rfl
  | ok j =>
    have hj := (wellFormed_of_identify hm (Action.run_of_answer hi)).normalized_eq
    show some (edgeTo name j) = some ⟨name, j.resolved, sourcePath j.resolved⟩
    rw [edgeTo, hj]

/-- What is not remembered wrongly is found on the disk. -/
private theorem fileFrom_of_current {h : Host σ} (hresolve : h.tools.resolver.resolve = resolveOnDisk)
    {name origin : String}
    (hname : (trim name).isEmpty = false) (hc : Memo.Current h.tools.resolver d h.memo [(name, origin)]) :
    fileFrom name origin d h = if isShim name then some name else lookup d name (originDirectory d origin) := by
  have hanswer := (Memo.resolve_eq_afresh_iff h.memo (name, origin)).2 hc
  rw [Memo.afresh_eq_identify] at hanswer
  unfold fileFrom
  rw [identify_run]
  dsimp only [Option.getD_some] at hanswer ⊢
  rw [hanswer, Memo.identify]
  by_cases hs : isShim name = true
  · rw [if_pos hs, if_pos hs]
    rfl
  · rw [if_neg hs, if_neg hs, hresolve, resolveOnDisk, hname, if_neg (by decide)]
    cases lookup d name (originDirectory d origin) <;> rfl

/-- The imports of a tracked script are listed as seen from its key. -/
private theorem importsOfFile_answer {h : Host σ} {key : String} {record : Record}
    (hr : h.store.get? key = some record) : (importsOfFile key d h).1 = .ok
      ((identified key (importNames h.tools.resolver record.rawContent) d h).map fun (name, j) => edgeTo name j) := by
  have hanswer := Action.run_of_answer (importsIn_answer record.rawContent key d h)
  unfold importsOfFile
  rw [Action.bind_host_run, hr]
  dsimp only
  unfold importsOfContent
  rw [Action.bind_run_of_ok hanswer]
  rfl

/-- What is remembered of names as seen from a script, by its key and by its file, is what would be found now. -/
def CurrentFor (i : Identity) (names : List String) (d : Disk) (h : Host σ) : Prop :=
  ∀ origin ∈ [i.normalized, i.resolved], h.memo.Current h.tools.resolver d (names.map (·, origin))

/-- The imports of a tracked script are listed from its key, while a walk follows them from its file.  Both give the
same edges, in the same order, if and only if every name leads to the same file from both.  If modules are looked up on
the disk and nothing is remembered wrongly, this is so if the key is seen beside the file; if it is not, names are
looked up below the key, and must be shim paths or lead to the same files from there. -/
theorem importsOfFile_eq_walked_iff {h : Host σ} (hreach : h.Reachable) {i : Identity} (hi : i.WellFormed)
    {record : Record} (hr : h.store.get? i.normalized = some record) (d : Disk) :
    ∃ listed walked, (importsOfFile i.normalized d h).1 = .ok listed ∧
      (importsIn record.rawContent i.resolved d h).1 = .ok walked ∧
      (listed = walked.map (fun (name, j) => edgeTo name j) ↔
        ∀ name ∈ importNames h.tools.resolver record.rawContent,
          fileFrom name i.normalized d h = fileFrom name i.resolved d h) ∧
      (h.tools.resolver.resolve = resolveOnDisk → d.isFile i.resolved = true →
        CurrentFor i (importNames h.tools.resolver record.rawContent) d h →
        (listed = walked.map (fun (name, j) => edgeTo name j) ↔ SeenBeside d i.resolved ∨
          ∀ name ∈ importNames h.tools.resolver record.rawContent, isShim name = false →
            lookup d name i.normalized = lookup d name ((parent? i.resolved).getD ""))) := by
  have hm := hreach.sound
  refine ⟨_, _, importsOfFile_answer hr, importsIn_answer record.rawContent i.resolved d h, ?_⟩
  generalize hnames : importNames h.tools.resolver record.rawContent = names
  have hiff : (identified i.normalized names d h).map (fun (name, j) => edgeTo name j) =
      (identified i.resolved names d h).map (fun (name, j) => edgeTo name j) ↔
        ∀ name ∈ names, fileFrom name i.normalized d h = fileFrom name i.resolved d h := by
    have htag : ∀ origin name (edge : Edge),
        (fileFrom name origin d h).map (fun path => ⟨name, path, sourcePath path⟩) = some edge → edge.raw = name := by
      rintro origin name _ hedge
      obtain ⟨path, -, rfl⟩ := Option.map_eq_some_iff.1 hedge
      rfl
    rw [map_edgeTo_identified hm, map_edgeTo_identified hm, filterMap_eq_iff_of_tag (htag _) (htag _)]
    exact forall₂_congr fun name _ => (Option.map_injective fun _ _ => congrArg Edge.resolved).eq_iff
  refine ⟨hiff, fun hresolve hf hc => hiff.trans ?_⟩
  have hfiles : ∀ name ∈ names, ∀ origin ∈ [i.normalized, i.resolved], fileFrom name origin d h =
      if isShim name then some name else lookup d name (originDirectory d origin) := by
    intro name hname origin horigin
    have hblank : (trim name).isEmpty = false := by
      rw [← hnames, importNames, List.mem_filter, Bool.and_eq_true, Bool.not_eq_true'] at hname
      exact hname.2.1
    refine fileFrom_of_current hresolve hblank fun q hq => ?_
    rw [List.mem_singleton.1 hq]
    exact hc origin horigin _ (List.mem_map_of_mem hname)
  obtain ⟨hbeside, hbelow⟩ := originDirectory_sourcePath hf
  rw [← hi.normalized_eq] at hbeside hbelow
  by_cases hs : SeenBeside d i.resolved
  · refine iff_of_true (fun name hname => ?_) (.inl hs)
    rw [hfiles name hname _ (by simp), hfiles name hname _ (by simp), hbeside hs]
  · rw [or_iff_right hs]
    refine forall₂_congr fun name hname => ?_
    rw [hfiles name hname _ (by simp), hfiles name hname _ (by simp), hbelow hs, originDirectory_eq_parent hf]
    by_cases hshim : isShim name = true
    · simp [hshim]
    · simp [Bool.eq_false_iff.2 hshim]

/-- On a disk with a directory by the path of the source, an import is walked but not listed. -/
theorem importsOfFile_ne_walked_of_directory : ∃ (d : Disk) (h : Host SyntaxEngine) (record : Record),
    (identify "/r/a.js" none d h).1 = .ok (.ofResolved "/r/a.js") ∧ h.store.get? "/r/a.ts" = some record ∧
      d.isDirectory "/r/a.ts" = true ∧ ∃ listed walked, (importsOfFile "/r/a.ts" d h).1 = .ok listed ∧
        (importsIn record.rawContent "/r/a.js" d h).1 = .ok walked ∧
        listed ≠ walked.map fun (name, j) => edgeTo name j := by
  let files := (Disk.empty.write "/r/a.js" (.text "import './y'")).write "/r/y.ts" (.text "1")
  let d := files.write "/r/a.ts/z.ts" (.text "2")
  let run : List (Disk × Operation) := [(d, .addFile { path := "/r/a.js" })]
  let start := fresh ⟨nodeResolver, Merge.typePrelude, SyntaxEngine.engine⟩ SyntaxEngine.fresh "/r"
  have hu : start.Unused := unused_fresh ..
  have htools : (start.after run).tools = start.tools := tools_after hu.sound run
  have hi : (identify "/r/a.js" none d (start.after run)).1 = .ok (.ofResolved "/r/a.js") := by decide +kernel
  have hr : (start.after run).store.get? "/r/a.ts" = some ⟨1, "import './y'", "import './y'"⟩ := by decide +kernel
  have hnames : importNames nodeResolver "import './y'" = ["./y"] := by decide +kernel
  have hf : d.isFile "/r/a.js" = true := by decide +kernel
  have hdirectory : d.isDirectory "/r/a.ts" = true := by decide +kernel
  have hfile : d.isFile "/r/a.ts" = false := by decide +kernel
  have hlisted : lookup d "./y" "/r/a.ts" = none := by decide +kernel
  have hwalked : lookup d "./y" ((parent? "/r/a.js").getD "") = some "/r/y.ts" := by decide +kernel
  have hnew : ∀ origin ∈ ["/r/a.ts", "/r/a.js"], (start.after run).memo.found.get? (Memo.key "./y" origin) = none := by
    decide +kernel
  have hreach : (start.after run).Reachable := ⟨_, _, hu, rfl⟩
  generalize start.after run = h at *
  have hresolver : h.tools.resolver = nodeResolver := by
    rw [htools]
    rfl
  clear_value d
  have hkey : (Identity.ofResolved "/r/a.js").normalized = "/r/a.ts" := by decide +kernel
  have hfound : (Identity.ofResolved "/r/a.js").resolved = "/r/a.js" := rfl
  have hsource : sourcePath "/r/a.js" = "/r/a.ts" := hkey
  have hr' := hr
  rw [← hkey] at hr'
  obtain ⟨listed, walked, hlist, hwalk, -, hiff⟩ := importsOfFile_eq_walked_iff hreach (.ofResolved "/r/a.js") hr' d
  rw [hkey] at hlist
  rw [hresolver, hnames, hkey, hfound] at hiff
  refine ⟨d, h, _, hi, hr, hdirectory, listed, walked, hlist, hwalk, fun heq => ?_⟩
  have hcurrent : CurrentFor (.ofResolved "/r/a.js") ["./y"] d h := by
    intro origin horigin q hq i hfound
    rw [hkey] at horigin
    rw [List.map_singleton, List.mem_singleton] at hq
    rw [hq, hnew origin horigin] at hfound
    cases hfound
  have hresolve : nodeResolver.resolve = resolveOnDisk := by rw [nodeResolver]
  rcases (hiff hresolve hf hcurrent).1 heq with (hseen | ⟨-, hseen⟩) | hsame
  · rw [hsource, hfile] at hseen
    cases hseen
  · rw [hsource, hdirectory] at hseen
    cases hseen
  · have hlookup := hsame "./y" (by simp) (by decide)
    rw [hlisted, hwalked] at hlookup
    cases hlookup

end Host

end ScriptHost
