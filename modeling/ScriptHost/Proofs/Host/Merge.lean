import ScriptHost.Proofs.Analysis.Reading
import ScriptHost.Proofs.Host.Closure
import ScriptHost.Proofs.Host.Watch
import ScriptHost.Resolution.Lookup

/-!
# Merges

For the time of a merge the engine is shown a compiled script and its declarations as two records of version 0, if the
text of the declarations can be seen (`Shown`).  Afterwards every record is as it was before, and of the two texts the
syntax engine remembers nothing (`mergedContent_leaves_no_trace`).

The declarations are seen under their shim path.  As long as nothing is tracked there, that is the text on the disk; but
the path of a file may look like a shim path, and then a merge takes the text of that file for the declarations
(`addFile_merges`).
-/

namespace ScriptHost.Host

open ScriptHost.Analysis ScriptHost.Path

variable {σ : Type} {d : Disk} {o : Observation} {declaration text : String}

/-! ### What an engine is shown -/

/-- The engine is shown an observed script and the text of its declarations. -/
structure Shown (o : Observation) (declaration text : String) (d : Disk) (h : Host σ) : Prop where
  compiled : o.identity.isCompiled = true
  beside : declarationsBeside d o.identity.resolved = some declaration
  seen : seenText h.store d (.shim (shimPath declaration)) none = .ok text

private theorem Shown.shimPath_ne {h : Host σ} (hs : Shown o declaration text d h) (ho : o.identity.WellFormed) :
    shimPath declaration ≠ o.path :=
  Observation.Apart.of_wellFormed ho d hs.compiled _ hs.beside

private theorem Shown.run {h : Host σ} (hs : Shown o declaration text d h) (hm : h.memo.Sound) :
    mergedContent o d h =
      (combined h.tools.reassembler o.path (shimPath declaration) (readShown o declaration text h).1,
        { (identify (shimPath declaration) none d h).2 with
          store := returnedStore h.store o.path o.raw (shimPath declaration) text
          engineState := releaseBoth h.tools.engine o.path (shimPath declaration)
            (readShown o declaration text h).2 }) := by
  rw [mergedContent_run hs.compiled hs.beside hm, hs.seen]

/-- An engine that is shown nothing is left alone. -/
private theorem engineState_of_not_shown {h : Host σ} (hm : h.memo.Sound)
    (hs : ∀ declaration text, ¬ Shown o declaration text d h) :
    (mergedContent o d h).2.engineState = h.engineState := by
  by_cases hc : o.identity.isCompiled = true
  · cases hd : declarationsBeside d o.identity.resolved with
    | none => rw [mergedContent_of_plain fun _ => hd]
    | some declaration =>
      rw [mergedContent_run hc hd hm]
      cases ht : seenText h.store d (.shim (shimPath declaration)) none with
      | error e => rfl
      | ok text => exact absurd ⟨hc, hd, ht⟩ (hs declaration text)
  · rw [mergedContent_of_plain fun h => absurd h hc]

private theorem scripts_releaseBoth (first second : String) (e : SyntaxEngine) :
    (releaseBoth SyntaxEngine.engine first second e).scripts.get? first = none ∧
      (releaseBoth SyntaxEngine.engine first second e).scripts.get? second = none := by
  simp [releaseBoth]

/-! ### Traces -/

/-- A merge leaves no trace, whatever the engine and the reassembler do: every record is as it was before, whether the
merge has failed or not.  If the engine has been shown the two texts, the syntax engine remembers neither of them; if
not, no engine has been asked at all. -/
theorem mergedContent_leaves_no_trace (ho : o.identity.WellFormed) (d : Disk) :
    (∀ {σ : Type} (h : Host σ), h.memo.Sound →
      (∀ key, (mergedContent o d h).2.store.get? key = h.store.get? key) ∧
      ((∀ declaration text, ¬ Shown o declaration text d h) →
        (mergedContent o d h).2.engineState = h.engineState)) ∧
    ∀ (h : Host SyntaxEngine) declaration text, h.memo.Sound → h.tools.engine = SyntaxEngine.engine →
      Shown o declaration text d h →
      (mergedContent o d h).2.engineState.scripts.get? o.path = none ∧
      (mergedContent o d h).2.engineState.scripts.get? (shimPath declaration) = none := by
  refine ⟨fun h hm => ⟨(mergedContent_quiet (.of_wellFormed ho d) hm).store, engineState_of_not_shown hm⟩, ?_⟩
  intro h declaration text hm he hs
  rw [hs.run hm, he]
  exact scripts_releaseBoth o.path (shimPath declaration) _

/-- Even the record of the script that is merged stays as it is. -/
theorem mergedContent_leaves_no_trace_of_tracked : ∃ (d : Disk) (h : Host SyntaxEngine),
    h.store.contains "/r/a.ts" = true ∧
      (∀ key, (mergedContent ⟨.ofResolved "/r/a.js", "2", true⟩ d h).2.store.get? key = h.store.get? key) ∧
      (mergedContent ⟨.ofResolved "/r/a.js", "2", true⟩ d h).2.engineState.scripts.get? "/r/a.ts" = none ∧
      (mergedContent ⟨.ofResolved "/r/a.js", "2", true⟩ d h).2.engineState.scripts.get? "/r/a-temp.ts" = none := by
  let d := (Disk.empty.write "/r/a.js" (.text "2")).write "/r/a.d.ts" (.text "3")
  let run : List (Disk × Operation) := [(d, .addFile { path := "/r/a.js", content := some "1" })]
  let start := fresh ⟨Resolution.nodeResolver, Merge.typePrelude, SyntaxEngine.engine⟩ SyntaxEngine.fresh "/r"
  have hu : start.Unused := unused_fresh ..
  have hm : (start.after run).memo.Sound := sound_after hu.sound run
  have he : (start.after run).tools.engine = SyntaxEngine.engine := congrArg Tools.engine (tools_after hu.sound run)
  have htracked : (start.after run).store.contains "/r/a.ts" = true := by decide +kernel
  have hs : Shown ⟨.ofResolved "/r/a.js", "2", true⟩ "/r/a.d.ts" "3" d (start.after run) :=
    ⟨by decide +kernel, by decide +kernel, by decide +kernel⟩
  generalize start.after run = h at *
  have htrace := mergedContent_leaves_no_trace (o := ⟨.ofResolved "/r/a.js", "2", true⟩) (.ofResolved _) d
  have hengine := htrace.2 h _ _ hm he hs
  have hpath : Observation.path ⟨.ofResolved "/r/a.js", "2", true⟩ = "/r/a.ts" := by decide +kernel
  have hshim : shimPath "/r/a.d.ts" = "/r/a-temp.ts" := by decide +kernel
  rw [hpath, hshim] at hengine
  exact ⟨d, h, htracked, (htrace.1 h hm).1, hengine⟩

/-! ### What is merged -/

/-- The statements of a text that is read under a path. -/
def statementsIn (path text : String) : List Statement := (ParsedScript.read path 0 text).unit.statements

private theorem get?_lentStore {compiled shim : String} (hne : shim ≠ compiled) (store : Store)
    (compiledRaw declarations : String) :
    (lentStore store compiled compiledRaw shim declarations).get? compiled = some (mergeRecord compiledRaw) ∧
      (lentStore store compiled compiledRaw shim declarations).get? shim = some (mergeRecord declarations) := by
  simp [lentStore, hne.symm]

/-- A text that is lent to the syntax engine is what it reads. -/
private theorem script?_of_lent {store : Store} {path raw : String} (hr : store.get? path = some (mergeRecord raw)) :
    (viewOf store).script? path = some (ParsedScript.read path 0 raw) := by
  have hv : (viewOf store).version path = 0 := by
    show store.version path = 0
    rw [Store.version, hr]
    rfl
  have hs : (viewOf store).snapshot path = some raw := by
    show (store.get? path).map (·.content) = some raw
    rw [hr]
    rfl
  rw [ScriptView.script?, hv, hs, if_neg (by decide)]
  rfl

/-- What the syntax engine has been made to forget it reads anew. -/
theorem readBoth_of_released (view : ScriptView) {first second : String} (hne : second ≠ first) (e : SyntaxEngine) :
    (readBoth SyntaxEngine.engine view first second (releaseBoth SyntaxEngine.engine first second e)).1 =
      ((view.script? first).map (·.unit), (view.script? second).map (·.unit)) := by
  obtain ⟨hfirst, hsecond⟩ := scripts_releaseBoth first second e
  unfold readBoth
  simp only [SyntaxEngine.sourceFile_run]
  rw [SyntaxEngine.ensure_of_forgotten hfirst,
    SyntaxEngine.ensure_of_forgotten ((SyntaxEngine.get?_ensure_of_ne view hne _).trans hsecond)]

private theorem readShown_units {h : Host SyntaxEngine} (he : h.tools.engine = SyntaxEngine.engine)
    (hne : shimPath declaration ≠ o.path) :
    (readShown o declaration text h).1 = (some (ParsedScript.read o.path 0 o.raw).unit,
      some (ParsedScript.read (shimPath declaration) 0 text).unit) := by
  obtain ⟨hc, hs⟩ := get?_lentStore hne h.store o.raw text
  unfold readShown
  rw [he, readBoth_of_released _ hne, script?_of_lent hc, script?_of_lent hs]
  rfl

/-- The text that stands for declarations: what is tracked under their shim path, else what is on the disk. -/
def shownText (s : Store) (declaration onDisk : String) : String :=
  ((s.get? (shimPath declaration)).map (·.rawContent)).getD onDisk

/-- The text of a shim is that of the declarations from which its path was made. -/
theorem fileOf_shimPath {resolved : String} (hd : declarationsBeside d resolved = some declaration) :
    fileOf (.shim (shimPath declaration)) = declaration := by
  show declarationPath (shimPath declaration) = declaration
  rw [eq_of_declarationsBeside hd, declarationPath_shimPath]

theorem seenText_of_declaration {resolved onDisk : String} {s : Store}
    (hd : declarationsBeside d resolved = some declaration) (ht : d.load declaration = .ok onDisk) :
    seenText s d (.shim (shimPath declaration)) none = .ok (shownText s declaration onDisk) := by
  unfold shownText
  cases hr : s.get? (shimPath declaration) with
  | some r => exact seenText_of_stored (i := .shim (shimPath declaration)) hr d
  | none => rw [seenText_of_untracked (i := .shim (shimPath declaration)) hr, fileOf_shimPath hd, ht]; rfl

/-- What comes of a merge is what the reassembler makes of the statements of both texts. -/
theorem mergedContent_answer {h : Host SyntaxEngine} (ho : o.identity.WellFormed) (hm : h.memo.Sound)
    (he : h.tools.engine = SyntaxEngine.engine) (hs : Shown o declaration text d h) :
    (mergedContent o d h).1 =
      (h.tools.reassembler (statementsIn o.path o.raw) (statementsIn (shimPath declaration) text)).mapError
        .rejected := by
  rw [hs.run hm, readShown_units he (hs.shimPath_ne ho)]
  rfl

theorem mergedContent_eq_ok {h : Host SyntaxEngine} (ho : o.identity.WellFormed) (hm : h.memo.Sound)
    (he : h.tools.engine = SyntaxEngine.engine) (hs : Shown o declaration text d h) {content : String} :
    (mergedContent o d h).1 = .ok content ↔
      h.tools.reassembler (statementsIn o.path o.raw) (statementsIn (shimPath declaration) text) = .ok content := by
  rw [mergedContent_answer ho hm he hs]
  cases h.tools.reassembler (statementsIn o.path o.raw) (statementsIn (shimPath declaration) text) <;>
    simp [Except.mapError]

/-- Two hosts with the same tools merge a script alike if they see the same declarations. -/
theorem mergedContent_answer_congr {h h' : Host SyntaxEngine} (ho : o.identity.WellFormed) (hm : h.memo.Sound)
    (hm' : h'.memo.Sound) (ht : h'.tools = h.tools) (he : h.tools.engine = SyntaxEngine.engine)
    (hseen : ∀ {declaration}, o.identity.isCompiled = true →
      declarationsBeside d o.identity.resolved = some declaration →
      seenText h'.store d (.shim (shimPath declaration)) none = seenText h.store d (.shim (shimPath declaration)) none) :
    (mergedContent o d h').1 = (mergedContent o d h).1 := by
  by_cases hplain : o.identity.isCompiled = true → declarationsBeside d o.identity.resolved = none
  · rw [mergedContent_of_plain hplain, mergedContent_of_plain hplain]
  · obtain ⟨hc, hbeside⟩ := Classical.not_imp.1 hplain
    obtain ⟨declaration, hd⟩ := Option.ne_none_iff_exists'.1 hbeside
    have hsame := hseen hc hd
    cases hs : seenText h.store d (.shim (shimPath declaration)) none with
    | error e =>
      rw [hs] at hsame
      rw [mergedContent_run hc hd hm, mergedContent_run hc hd hm', hs, hsame]
    | ok text =>
      rw [hs] at hsame
      rw [mergedContent_answer ho hm he ⟨hc, hd, hs⟩, mergedContent_answer ho hm' (ht ▸ he) ⟨hc, hd, hsame⟩, ht]

/-! ### Adding compiled scripts -/

/-- What is stored for a script that is added is not changed by what is done for its imports. -/
theorem addObserved_own_record (ho : o.identity.WellFormed) {h : Host σ} (hm : h.memo.Sound) (withImports : Bool) :
    (addObserved o withImports d h).2.store.get? o.path = (o.record? d h).or (h.store.get? o.path) := by
  have hanswer := commit_answer o d h
  have hrecord := get?_commit (.of_wellFormed ho d) hm o.path
  have honward := commit_onward (.of_wellFormed ho d) hm
  rw [if_pos rfl] at hrecord
  rw [← hrecord]
  rcases hc : commit o d h with ⟨e | stored, h₁⟩ <;> rw [hc] at hanswer hrecord honward
  · unfold addObserved
    rw [Action.bind_run_of_error hc]
  · unfold addObserved
    rw [Action.bind_run_of_ok hc]
    cases stored with
    | false => exact (parsedUnit_quiet o.path d h₁).store o.path
    | true =>
      cases withImports with
      | false => exact (parsedUnit_quiet o.path d h₁).store o.path
      | true =>
        obtain ⟨r, hr⟩ := Option.isSome_iff_exists.1 hanswer.symm
        rw [hr, Option.some_or] at hrecord
        have hwalk := walk_keeps_record (d := d) o.path r h₁.walkLimit (.start .empty o) h₁ ⟨honward.sound hm, hrecord⟩
        rw [hrecord, ← hwalk.2]
        exact get?_bind_of_quiet (fun _ h₂ => parsedUnit_quiet o.path d h₂) h₁ o.path

private theorem addFile_own_record {h : Host σ} (hm : h.memo.Sound) {r : Request} {i : Identity}
    (hi : (identify r.path r.origin d h).1 = .ok i) {raw : String} (hraw : seenText h.store d i r.content = .ok raw) :
    (addFile r d h).2.store.get? i.normalized =
      ((observedText i raw h).record? d h).or (h.store.get? i.normalized) := by
  have hrun := Action.run_of_answer hi
  have hwf := wellFormed_of_identify hm hrun
  have hm₁ : (identify r.path r.origin d h).2.memo.Sound := (identify_quiet r.path r.origin d h).sound hm
  have hobserve := observe_run hi r.content
  rw [hraw] at hobserve
  have hsame : (observedText i raw h).record? d (identify r.path r.origin d h).2 =
      (observedText i raw h).record? d h := record?_memo _ d hm hm₁
  unfold addFile
  rw [Action.bind_run_of_ok hobserve, ← hsame]
  exact addObserved_own_record (o := observedText i raw h) hwf hm₁ r.withImports

/-- When a compiled script is added and stored, its own text is kept unmerged, and engines see what the reassembler
makes of its statements and those of its declarations.  The declarations are what is on the disk, unless a script is
tracked under their shim path: then they are the text of that script. -/
theorem addFile_merges {h : Host SyntaxEngine} (hr : h.Reachable) (he : h.tools.engine = SyntaxEngine.engine)
    {r : Request} {i : Identity} (hi : (identify r.path r.origin d h).1 = .ok i) (hc : i.isCompiled = true)
    {onDisk : String} (hd : declarationsBeside d i.resolved = some declaration)
    (ht : d.load declaration = .ok onDisk)
    (hstored : (addFile r d h).2.store.get? i.normalized ≠ h.store.get? i.normalized) :
    ∃ raw content, seenText h.store d i r.content = .ok raw ∧
      h.tools.reassembler (statementsIn i.normalized raw)
        (statementsIn (shimPath declaration) (shownText h.store declaration onDisk)) = .ok content ∧
      (addFile r d h).2.store.get? i.normalized = some ⟨h.store.nextVersion i.normalized, content, raw⟩ := by
  have hm := hr.sound
  have hwf := wellFormed_of_identify hm (Action.run_of_answer hi)
  cases hraw : seenText h.store d i r.content with
  | error e => exact absurd (congrArg (·.get? i.normalized) (addFile_of_unseen hi hraw)) hstored
  | ok raw =>
    have hrecord := addFile_own_record hm hi hraw
    rw [hrecord] at hstored ⊢
    cases hnew : (observedText i raw h).record? d h with
    | none =>
      rw [hnew, Option.none_or] at hstored
      exact absurd rfl hstored
    | some record =>
      obtain ⟨-, content, hcontent, rfl⟩ := record?_eq_some_iff.1 hnew
      have hshown : Shown (observedText i raw h) declaration (shownText h.store declaration onDisk) d h :=
        ⟨hc, hd, seenText_of_declaration hd ht⟩
      exact ⟨raw, content, rfl, (mergedContent_eq_ok hwf hm he hshown).1 hcontent, rfl⟩

/-- A file whose path looks like a shim path takes the place of the declarations. -/
theorem addFile_merges_tracked_shim : ∃ (d : Disk) (h : Host SyntaxEngine),
    d.load "/r/a.d.ts" = .ok "3" ∧ h.tools.reassembler = Merge.typePrelude ∧ ∃ raw content,
      seenText h.store d (.ofResolved "/r/a.js") none = .ok raw ∧
      Merge.typePrelude (statementsIn "/r/a.ts" raw) (statementsIn "/r/a-temp.ts" "4") = .ok content ∧
      (addFile { path := "/r/a.js" } d h).2.store.get? "/r/a.ts" =
        some ⟨h.store.nextVersion "/r/a.ts", content, raw⟩ := by
  let d := ((Disk.empty.write "/r/a.js" (.text "2")).write "/r/a.d.ts" (.text "3")).write "/r/a-temp.ts" (.text "4")
  let run : List (Disk × Operation) := [(d, .addFile { path := "./a-temp" })]
  let start := fresh ⟨Resolution.nodeResolver, Merge.typePrelude, SyntaxEngine.engine⟩ SyntaxEngine.fresh "/r"
  have hu : start.Unused := unused_fresh ..
  have htools := tools_after hu.sound run
  have he : (start.after run).tools.engine = SyntaxEngine.engine := congrArg Tools.engine htools
  have hre : (start.after run).tools.reassembler = Merge.typePrelude := congrArg Tools.reassembler htools
  have hi : (identify "/r/a.js" none d (start.after run)).1 = .ok (.ofResolved "/r/a.js") := by decide +kernel
  have hd : declarationsBeside d (Identity.ofResolved "/r/a.js").resolved = some "/r/a.d.ts" := by decide +kernel
  have ht : d.load "/r/a.d.ts" = .ok "3" := by decide +kernel
  have hstored :
      (addFile { path := "/r/a.js" } d (start.after run)).2.store.get? (Identity.ofResolved "/r/a.js").normalized ≠
        (start.after run).store.get? (Identity.ofResolved "/r/a.js").normalized := by
    decide +kernel
  have hshown : shownText (start.after run).store "/r/a.d.ts" "3" = "4" := by decide +kernel
  have hr : (start.after run).Reachable := ⟨_, _, hu, rfl⟩
  generalize start.after run = h at *
  have hkey : (Identity.ofResolved "/r/a.js").normalized = "/r/a.ts" := by decide +kernel
  have hshim : shimPath "/r/a.d.ts" = "/r/a-temp.ts" := by decide +kernel
  have hmerged := addFile_merges hr he (r := { path := "/r/a.js" }) hi (by decide +kernel) hd ht hstored
  rw [hshown, hre, hkey, hshim] at hmerged
  exact ⟨d, h, ht, hre, hmerged⟩

end ScriptHost.Host
