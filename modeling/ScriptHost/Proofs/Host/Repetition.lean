import ScriptHost.Proofs.Host.Kept
import ScriptHost.Proofs.Host.Sync

/-!
# Adding a script twice

When a script is added with a text that is given, and its statements are handed out, doing the same again hands out the
same statements and changes nothing at all (`addFile_again`): the engine keeps them to the end of the first time, even
if a walk over imports in between has made it forget the script.
-/

namespace ScriptHost.Host

open ScriptHost.Analysis ScriptHost.Path

variable {σ : Type} {d : Disk}

/-- Reading a script is looking for it in the engine. -/
theorem parsedUnit_run {h : Host SyntaxEngine} (he : h.tools.engine = SyntaxEngine.engine) (key : String) (d : Disk) :
    parsedUnit key d h =
      (((SyntaxEngine.ensure (viewOf h.store) key h.engineState).1.map (·.unit)).elim
        (.error (.engineUnavailable key)) .ok,
        { h with engineState := (SyntaxEngine.ensure (viewOf h.store) key h.engineState).2 }) := by
  unfold parsedUnit
  rw [Action.bind_run_of_ok (Action.ask_run ..), he, SyntaxEngine.sourceFile_run]
  cases (SyntaxEngine.ensure (viewOf h.store) key h.engineState).1 <;> rfl

/-- What has been read of a script is remembered, and reading it once more changes nothing. -/
private theorem parsedUnit_again {h h' : Host SyntaxEngine} (he : h.tools.engine = SyntaxEngine.engine) {key : String}
    {u : SourceUnit} (hu : parsedUnit key d h = (.ok u, h')) :
    (∃ script, h'.engineState.scripts.get? key = some script ∧ script.unit = u) ∧
      parsedUnit key d h' = (.ok u, h') := by
  rw [parsedUnit_run he] at hu
  obtain ⟨hanswer, rfl⟩ := Prod.mk.inj hu
  rcases hs : SyntaxEngine.ensure (viewOf h.store) key h.engineState with ⟨script | script, e₁⟩ <;> rw [hs] at hanswer
  · cases hanswer
  · cases hanswer
    obtain ⟨hkept, hagain⟩ := SyntaxEngine.ensure_again hs
    refine ⟨⟨script, hkept, rfl⟩, (parsedUnit_run (h := { h with engineState := e₁ }) he key d).trans ?_⟩
    dsimp only
    rw [hagain]
    rfl

theorem addObserved_of_not_news {o : Observation} (hn : o.needsUpdate = false) (withImports : Bool) (h : Host σ) :
    addObserved o withImports d h = parsedUnit o.path d h := by
  unfold addObserved
  rw [Action.bind_run_of_ok (commit_of_not_news hn d h)]
  rfl

/-- The last thing that is done when an observed script is added is reading it. -/
private theorem parsedUnit_of_added {o : Observation} {withImports : Bool} {h h' : Host σ} {u : SourceUnit}
    (hadd : addObserved o withImports d h = (.ok u, h')) : ∃ h₁, parsedUnit o.path d h₁ = (.ok u, h') := by
  obtain ⟨stored, h₁, -, hread⟩ := Action.bind_eq_ok.1 hadd
  cases stored with
  | false => exact ⟨h₁, hread⟩
  | true =>
    cases withImports with
    | false => exact ⟨h₁, hread⟩
    | true =>
      obtain ⟨graph, h₂, -, hread⟩ := Action.bind_eq_ok.1 hread
      exact ⟨h₂, hread⟩

private theorem stored_of_added {o : Observation} (ho : o.identity.WellFormed) {h h' : Host σ} (hm : h.memo.Sound)
    (hnews : o.needsUpdate = h.store.needsUpdate o.path o.raw) {withImports : Bool} {u : SourceUnit}
    (hadd : addObserved o withImports d h = (.ok u, h')) : h'.store.needsUpdate o.path o.raw = false := by
  have hown := addObserved_own_record (d := d) ho hm withImports
  rw [hadd] at hown
  change h'.store.get? o.path = _ at hown
  rw [needsUpdate_eq_false_iff, hown]
  cases hn : o.needsUpdate with
  | false =>
    rw [record?_of_not_news hn, Option.none_or]
    exact needsUpdate_eq_false_iff.1 (hnews ▸ hn)
  | true =>
    obtain ⟨content, hrecord⟩ := record?_of_added hn hadd
    rw [hrecord]
    rfl

/-- Adding a script with a given text once more hands out the statements that the engine remembers since the first time,
and the host is the same before and after, with everything that the engine has read and counted. -/
theorem addFile_again {h h' : Host SyntaxEngine} (hr : h.Reachable) (he : h.tools.engine = SyntaxEngine.engine)
    {r : Request} {text : String} (htext : r.content = some text) {u : SourceUnit}
    (hok : addFile r d h = (.ok u, h')) :
    addFile r d h' = (.ok u, h') ∧
      ∃ i script, (identify r.path r.origin d h).1 = .ok i ∧
        h'.engineState.scripts.get? i.normalized = some script ∧ script.unit = u := by
  have hm := hr.sound
  obtain ⟨o, h₁, ho, hadd⟩ := Action.bind_eq_ok.1 hok
  obtain ⟨i, h₂, hi, hobserved⟩ := Action.bind_eq_ok.1 ho
  obtain ⟨rfl, hseen, rfl, hnews⟩ := observeIdentity_eq_ok.1 hobserved
  have hm₁ : h₁.memo.Sound := by
    have hq := identify_quiet r.path r.origin d h
    rw [hi] at hq
    exact hq.sound hm
  -- the path stands for the same script afterwards, and so the same text is seen of it
  have hfound := found_addFile hm (congrArg Prod.fst hi)
  have hadmitted : ∀ x ∈ [(d, Operation.addFile r)], x.2.Admitted EngineKey := by simp [Operation.Admitted]
  have hdirectory : (addFile r d h).2.directory = h.directory := directory_after hm hadmitted
  have htools : (addFile r d h).2.tools = h.tools := tools_after hm [(d, .addFile r)]
  rw [hok] at hfound hdirectory htools
  rw [← hdirectory] at hfound
  have hraw : text = o.raw := by
    rw [htext] at hseen
    exact Except.ok.inj hseen
  have hobserve : observe r.path r.origin r.content d h' = (.ok (observedText o.identity o.raw h'), h') := by
    have hidentify : identify r.path r.origin d h' = (.ok o.identity, h') := identify_of_found hfound
    rw [observe_run (congrArg Prod.fst hidentify), hidentify, htext, hraw]
    rfl
  -- it is stored, and has been read
  have hstored := stored_of_added (wellFormed_of_identify hm hi) hm₁ hnews hadd
  obtain ⟨h₃, hread⟩ := parsedUnit_of_added hadd
  have he₃ : h₃.tools.engine = SyntaxEngine.engine := by
    have hq := parsedUnit_quiet o.path d h₃
    rw [hread] at hq
    rw [← hq.tools, htools]
    exact he
  obtain ⟨⟨script, hscript, hunit⟩, hagain⟩ := parsedUnit_again he₃ hread
  refine ⟨?_, o.identity, script, congrArg Prod.fst hi, hscript, hunit⟩
  unfold addFile
  rw [Action.bind_run_of_ok hobserve, addObserved_of_not_news hstored]
  exact hagain

/-- A script whose own path is the shim path of an import is forgotten by the engine while that import is merged, and is
read once more in the end. -/
theorem addFile_again_of_lent : ∃ (d : Disk) (r : Request) (h h' : Host SyntaxEngine) (u : SourceUnit),
    addFile r d h = (.ok u, h') ∧ h'.store.keys = ["/r/a.ts", "/r/a-temp.ts"] ∧ h'.engineState.parseCount = 3 ∧
    addFile r d h' = (.ok u, h') ∧ ∃ i script, (identify r.path r.origin d h).1 = .ok i ∧
      h'.engineState.scripts.get? i.normalized = some script ∧ script.unit = u := by
  let d := (Disk.empty.write "/r/a.js" (.text "1")).write "/r/a.d.ts" (.text "2")
  let r : Request := { path := "/r/a-temp.ts", content := some "import './a.js'", withImports := true }
  let h := fresh ⟨Resolution.nodeResolver, Merge.typePrelude, SyntaxEngine.engine⟩ SyntaxEngine.fresh "/r"
  have hr : h.Reachable := (unused_fresh ..).reachable
  have hadded : (addFile r d h).1.toOption.isSome = true := by decide +kernel
  have hkeys : (addFile r d h).2.store.keys = ["/r/a.ts", "/r/a-temp.ts"] := by decide +kernel
  have hcount : (addFile r d h).2.engineState.parseCount = 3 := by decide +kernel
  have he : h.tools.engine = SyntaxEngine.engine := rfl
  have htext : r.content = some "import './a.js'" := rfl
  obtain ⟨u, hu⟩ := Option.isSome_iff_exists.1 hadded
  have hok := Action.run_of_answer (toOption_eq_some_iff.1 hu)
  exact ⟨d, r, h, (addFile r d h).2, u, hok, hkeys, hcount, addFile_again hr he htext hok⟩

end ScriptHost.Host
