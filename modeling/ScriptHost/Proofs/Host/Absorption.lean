import ScriptHost.Proofs.Host.Merge
import ScriptHost.Proofs.Host.Outcome
import ScriptHost.Proofs.Host.Pair
import ScriptHost.Proofs.Path.Stem

/-!
# Events about a compiled script and its declarations

What is done for an event about a compiled script or the declarations beside it depends on nothing but the texts of the
record and what both files hold then (`Watched.absorbs`), as long as the script stands for itself and nothing is tracked
in the place of its declarations (`Watched`).
-/

namespace ScriptHost.Host

open ScriptHost.Analysis ScriptHost.Path ScriptHost.Resolution

variable {d : Disk} {base : String}

/-! ### What is on the disk -/

/-- The text of a compiled script, if it can be loaded. -/
def textOn (base : String) (d : Disk) : String := (d.load (base ++ compiledExtension)).toOption.getD ""

theorem textOn_of_load {text : String} (hload : d.load (base ++ compiledExtension) = .ok text) :
    textOn base d = text := by
  rw [textOn, hload]
  rfl

/-- What the declarations beside a compiled script hold, if there are any. -/
def declarationsOn (base : String) (d : Disk) : Option Content := (d.read (base ++ declarationExtension)).toOption

/-- What is made of the text of a compiled script and its declarations. -/
def mergePair (r : Merge.Reassembler) (base : String) : Pair.Merge := fun text declarations =>
  match declarations with
  | none => some text
  | some .binary => none
  | some (.text s) => (r (statementsIn (base ++ sourceExtension) text) (statementsIn (base ++ shimEnding) s)).toOption

theorem isFile_eq_isSome_read (d : Disk) (path : String) : d.isFile path = (d.read path).toOption.isSome := by
  unfold Disk.isFile Disk.read
  rcases d.lookup path with e | (content | _) <;> rfl

private theorem sourcePath_compiled (hb : Stem base) : sourcePath
    (base ++ compiledExtension) = base ++ sourceExtension := by
  rw [sourcePath_eq, hb.clearExtension_compiled]

theorem normalized_compiled (hb : Stem base) :
    (Identity.ofResolved (base ++ compiledExtension)).normalized = base ++ sourceExtension := sourcePath_compiled hb

private theorem declarationsBeside_compiled (hb : Stem base) (d : Disk) :
    declarationsBeside d (base ++ compiledExtension) =
      if d.isFile (base ++ declarationExtension) then some (base ++ declarationExtension) else none := by
  rw [declarationsBeside, hb.clearExtension_compiled, Disk.firstExisting, List.map_singleton, List.find?_singleton]

/-! ### Events about the two files -/

/-- An event is about a compiled script that is not removed, or about its declarations. -/
def Event.About (base : String) : Event → Prop
  | .created path | .modified path => path = base ++ compiledExtension ∨ path = base ++ declarationExtension
  | .removed path => path = base ++ declarationExtension
  | .flushed => False

/-- Which of the two files an event tells of.  Nothing is told of declarations that have been taken away since. -/
def told? (base : String) (d : Disk) : Event → Option Pair.Subject
  | .created path | .modified path =>
    if path = base ++ compiledExtension then some .script
    else if path = base ++ declarationExtension ∧ d.isFile path = true then some .declarations
    else none
  | .removed path => if path = base ++ declarationExtension then some .declarations else none
  | .flushed => none

private theorem declarations_ne_compiled (base : String) : base ++ declarationExtension ≠ base ++ compiledExtension :=
  fun h => absurd ((String.append_right_inj base).1 h) (by decide)

theorem told?_script_iff {event : Event} : told? base d event = some .script ↔
    event = .created (base ++ compiledExtension) ∨ event = .modified (base ++ compiledExtension) := by
  unfold told?
  cases event <;> simp

theorem told?_declarations_iff {event : Event} : told? base d event = some .declarations ↔
    event = .removed (base ++ declarationExtension) ∨ (d.isFile (base ++ declarationExtension) = true ∧
      (event = .created (base ++ declarationExtension) ∨ event = .modified (base ++ declarationExtension))) := by
  have hne := declarations_ne_compiled base
  unfold told?
  cases event <;> simp <;> grind

/-- What the two files hold when an event is applied, and what it tells. -/
def moment (base : String) (x : Disk × Event) : Pair.Moment where
  text := textOn base x.1
  declarations := declarationsOn base x.1
  told := told? base x.1 x.2

private theorem moment_of_told {text : String} (hload : d.load (base ++ compiledExtension) = .ok text) {event : Event}
    {subject : Pair.Subject} (ht : told? base d event = some subject) :
    moment base (d, event) = ⟨text, declarationsOn base d, some subject⟩ := by
  rw [moment, textOn_of_load hload, ht]

/-- The texts of a record. -/
def textsOf (r : Record) : Pair.Texts := ⟨r.rawContent, r.content⟩

/-- What is known of a host while the two files change, where at most `n` times a text has replaced another one: a
compiled script stands for itself, and nothing is tracked in the place of its declarations. -/
structure Watched (base : String) (n : Nat) (h : Host SyntaxEngine) : Prop where
  upToDate : UpToDate n h
  sound : h.memo.Sound
  keys : StoredIn EngineKey h.store
  resolver : h.tools.resolver = nodeResolver
  itself : ∀ i, h.memo.found.get? (Memo.key (base ++ compiledExtension) h.directory) = some i →
    i = .ofResolved (base ++ compiledExtension)
  shim : h.store.get? (base ++ shimEnding) = none

private theorem mem_compiledExtensions : compiledExtension ∈ compiledExtensions := by decide

/-- What the path of a compiled script is found to be. -/
private theorem identify_compiled (hb : Stem base) (hf : d.isFile (base ++ compiledExtension) = true)
    (origin : String) : (Memo.identify nodeResolver d (base ++ compiledExtension) origin).1 =
      .ok (.ofResolved (base ++ compiledExtension)) := by
  have hshim : isShim (base ++ compiledExtension) = false := by
    refine Bool.eq_false_iff.2 fun hs => ?_
    have := isEngineName_of_hasTail (hasTail_of_isShim hs)
    rw [isEngineName_compiled mem_compiledExtensions] at this
    cases this
  rw [Memo.identify, hshim, if_neg (by decide), nodeResolver_of_isFile hb.canonical_compiled hf]
  rfl

/-- If a compiled script stands for itself, it does so whatever else is found. -/
private theorem itself_of_learned (hb : Stem base) (hf : d.isFile (base ++ compiledExtension) = true) {m m' : Memo}
    (hl : Memo.Learned nodeResolver d m m') {origin : String}
    (hm : ∀ i, m.found.get? (Memo.key (base ++ compiledExtension) origin) = some i →
      i = .ofResolved (base ++ compiledExtension)) {i : Identity}
    (hi : m'.found.get? (Memo.key (base ++ compiledExtension) origin) = some i) :
    i = .ofResolved (base ++ compiledExtension) := by
  rcases hl.new hi with hold | ⟨name, origin', hkey, hfound⟩
  · exact hm i hold
  · obtain rfl : base ++ compiledExtension = name := congrArg Prod.fst hkey
    rw [identify_compiled hb hf] at hfound
    exact (Except.ok.inj hfound).symm

namespace Watched

variable {n : Nat} {h : Host SyntaxEngine} {r : Record}

theorem identify (hb : Stem base) (hw : Watched base n h) (hf : d.isFile (base ++ compiledExtension) = true) :
    (Host.identify (base ++ compiledExtension) none d h).1 = .ok (.ofResolved (base ++ compiledExtension)) := by
  rw [identify_run, Memo.resolve_answer, hw.resolver]
  cases hfound : h.memo.found.get? (Memo.key (base ++ compiledExtension) (Option.getD none h.directory)) with
  | some i =>
    rw [hw.itself i hfound]
    rfl
  | none =>
    rw [Option.map_none, Option.getD_none, identify_compiled hb hf]
    rfl

private theorem of_looked {h₁ : Host SyntaxEngine} (hb : Stem base) (hw : Watched base n h)
    (hf : d.isFile (base ++ compiledExtension) = true) (hl : Looked d h h₁) : Watched base n h₁ := by
  have hlearned := hl.quiet.memo
  rw [hw.resolver] at hlearned
  refine ⟨hw.upToDate.of_looked hl, hl.quiet.sound hw.sound, hl.store ▸ hw.keys, hl.quiet.tools ▸ hw.resolver, ?_,
    hl.store ▸ hw.shim⟩
  have hdirectory : h₁.directory = h.directory := by rw [hl.eq_memo]
  rw [hdirectory]
  exact fun i => itself_of_learned hb hf hlearned hw.itself

theorem of_steps {h' : Host SyntaxEngine} {k : Nat} (hb : Stem base) (hw : Watched base n h)
    (hf : d.isFile (base ++ compiledExtension) = true) (hs : Steps EngineKey d h h' k) (hk : k ≤ 1)
    (hn : n + 2 < 2 ^ 63) (hshim : h'.store.get? (base ++ shimEnding) = none) : Watched base (n + 1) h' := by
  have hkeeps := hs.keeps (n := 0) (I := fun _ h' => StoredIn EngineKey h'.store ∧ h'.directory = h.directory ∧
      h'.tools.resolver = nodeResolver ∧ ∀ i,
        h'.memo.found.get? (Memo.key (base ++ compiledExtension) h.directory) = some i →
          i = .ofResolved (base ++ compiledExtension)) ?_ ⟨hw.keys, rfl, hw.resolver, hw.itself⟩
  · obtain ⟨hkeys, hdirectory, hresolver, hitself⟩ := hkeeps
    exact ⟨(hw.upToDate.of_steps hs (by omega)).mono (by omega), hs.sound hw.sound, hkeys, hresolver,
      hdirectory ▸ hitself, hshim⟩
  · rintro m j h₁ h₂ step ⟨hkeys, hdirectory, hresolver, hitself⟩
    have hlearned := step.learned
    rw [hresolver] at hlearned
    exact ⟨.of_step step hkeys, step.directory.trans hdirectory, step.tools ▸ hresolver,
      fun i => itself_of_learned hb hf hlearned hitself⟩

private theorem knownKey (hb : Stem base) (hw : Watched base n h) (hf : d.isFile (base ++ compiledExtension) = true) :
    Host.knownKey (base ++ compiledExtension) d h = base ++ sourceExtension := by
  have hname := isEngineName_compiled mem_compiledExtensions base
  rw [knownKey_of_identified hname (hw.keys.untracked hname) (hw.identify hb hf), normalized_compiled hb]

end Watched

/-! ### What is done for an event -/

/-- Between two states of a store, what an event told has been absorbed into the record of a key, and no other record has
been changed; the answer is an error if and only if absorbing failed. -/
structure Absorbs (merge : Pair.Merge) (x : Pair.Moment) (key : String) (r : Record) (before : Store)
    (after : Except WatchError Outcome × Host SyntaxEngine) : Prop where
  record : ∃ r', after.2.store.get? key = some r' ∧ textsOf r' = Pair.next merge (textsOf r) x
  answered : after.1.toOption = none ↔ Pair.absorb merge x (textsOf r) = none
  others : ∀ other ≠ key, after.2.store.get? other = before.get? other

/-- A new text of a script is not accepted if and only if the script cannot be added with it. -/
private theorem scriptChanged_eq_error_iff {σ : Type} {path text : String} {h : Host σ} {e : HostError} (name : String)
    (before : Version) : (scriptChanged path name before text d h).1 = .error e ↔
      (addFile { path, content := some text } d h).1 = .error e := by
  unfold scriptChanged
  rcases hadd : (addFile { path, content := some text } : Action σ _) d h with ⟨e' | u, h₁⟩
  · rw [Action.bind_run_of_error hadd]
    simp
  · obtain ⟨h₂, hv, -⟩ := fileVersion_run name d h₁
    rw [Action.bind_run_of_ok hadd, Action.bind_run_of_ok hv]
    split <;> exact ⟨nofun, nofun⟩

/-- Declarations that have changed are not accepted if and only if the script cannot be merged with them. -/
private theorem declarationsChanged_of_tracked {σ : Type} {compiled : String} {h : Host σ}
    (hpos : ¬ h.store.version (knownKey compiled d h) < 0) : ∃ h₁, Looked d h h₁ ∧
      (∀ key, (declarationsChanged compiled d h).2.store.get? key =
        (refreshDeclarations compiled d h₁).2.store.get? key) ∧
      ((declarationsChanged compiled d h).1.toOption = none ↔
        (refreshDeclarations compiled d h₁).1.toOption = none) := by
  obtain ⟨h₁, hv, hl⟩ := fileVersion_run compiled d h
  refine ⟨h₁, hl, fun key => ?_, ?_⟩ <;> unfold declarationsChanged <;>
    rw [Action.bind_run_of_ok hv, if_neg hpos]
  · refine get?_bind_of_quiet (fun refreshed h₂ => ?_) h₁ key
    split
    · exact Action.Keeps.bind (Quiet.keeps (fileVersion_quiet compiled d) h₂) (fun _ => .pure _) h₂ (.refl d h₂)
    · exact .refl d h₂
  · rcases hrun : (refreshDeclarations compiled : Action σ _) d h₁ with ⟨e | refreshed, h₂⟩
    · rw [Action.bind_run_of_error hrun]
      simp [Except.toOption]
    · rw [Action.bind_run_of_ok hrun]
      obtain ⟨h₃, hv₂, -⟩ := fileVersion_run compiled d h₂
      cases refreshed with
      | false => simp [Except.toOption, pure]
      | true =>
        rw [if_pos rfl, Action.bind_run_of_ok hv₂]
        simp [Except.toOption, pure]

theorem needsUpdate_of_tracked {s : Store} {key : String} {r : Record} (hr : s.get? key = some r) (text : String) :
    s.needsUpdate key text = !decide (r.rawContent = text) := by
  rw [Store.needsUpdate, hr, Option.all_some]
  rfl

namespace Watched

variable {n : Nat} {h : Host SyntaxEngine} {r : Record}

/-- What comes of a merge depends on the text and the declarations alone. -/
theorem mergedContent_toOption (hb : Stem base) (hw : Watched base n h) (d : Disk) (raw : String) (news : Bool) :
    (mergedContent ⟨.ofResolved (base ++ compiledExtension), raw, news⟩ d h).1.toOption =
      mergePair h.tools.reassembler base raw (declarationsOn base d) := by
  let o : Observation := ⟨.ofResolved (base ++ compiledExtension), raw, news⟩
  show (mergedContent o d h).1.toOption = _
  have hpath : o.path = base ++ sourceExtension := sourcePath_compiled hb
  have hc : o.identity.isCompiled = true := Text.hasTail_append ..
  have hbeside : declarationsBeside d o.identity.resolved =
      if d.isFile (base ++ declarationExtension) then some (base ++ declarationExtension) else none :=
    declarationsBeside_compiled hb d
  rw [isFile_eq_isSome_read] at hbeside
  unfold declarationsOn
  cases hread : (d.read (base ++ declarationExtension)).toOption with
  | none =>
    rw [hread, if_neg (by decide)] at hbeside
    rw [mergedContent_of_plain fun _ => hbeside]
    rfl
  | some declarations =>
    rw [hread, Option.isSome_some, if_pos rfl] at hbeside
    rw [toOption_eq_some_iff] at hread
    have huntracked : h.store.get? (Identity.shim (shimPath (base ++ declarationExtension))).normalized = none := by
      rw [shimPath_declaration]
      exact hw.shim
    have hseen := seenText_of_untracked huntracked d
    rw [fileOf_shimPath hbeside] at hseen
    cases declarations with
    | binary =>
      have hload : d.load (base ++ declarationExtension) = .error (.notText (base ++ declarationExtension)) := by
        rw [Disk.load, hread]
      rw [hload] at hseen
      rw [mergedContent_run hc hbeside hw.sound, hseen]
      rfl
    | text s =>
      have hload : d.load (base ++ declarationExtension) = .ok s := by rw [Disk.load, hread]
      rw [hload] at hseen
      have hshown : Shown o (base ++ declarationExtension) s d h := ⟨hc, hbeside, hseen⟩
      refine Option.ext fun content => ?_
      rw [toOption_eq_some_iff, mergedContent_eq_ok (.ofResolved _) hw.sound hw.upToDate.engine hshown, mergePair,
        toOption_eq_some_iff, shimPath_declaration, hpath]

/-- What is stored when the script is merged with its declarations again. -/
theorem refreshed?_eq (hb : Stem base) (hw : Watched base n h)
    (hr : h.store.get? (base ++ sourceExtension) = some r) (d : Disk) :
    refreshed? (.ofResolved (base ++ compiledExtension)) d h =
      (mergePair h.tools.reassembler base r.rawContent (declarationsOn base d)).bind fun content =>
        if content = r.content then none
        else some ⟨h.store.nextVersion (base ++ sourceExtension), content, r.rawContent⟩ := by
  have hnormalized := normalized_compiled hb
  have hmerge := hw.mergedContent_toOption hb d r.rawContent false
  unfold refreshed?
  rw [hnormalized, hr, Option.bind_some, hmerge]

/-- What is stored for the script with a text that is given. -/
private theorem record?_eq (hb : Stem base) (hw : Watched base n h)
    (hr : h.store.get? (base ++ sourceExtension) = some r) (d : Disk) (text : String) :
    (observedText (.ofResolved (base ++ compiledExtension)) text h).record? d h =
      if r.rawContent = text then none
      else (mergePair h.tools.reassembler base text (declarationsOn base d)).map fun content =>
        ⟨h.store.nextVersion (base ++ sourceExtension), content, text⟩ := by
  let o := observedText (.ofResolved (base ++ compiledExtension)) text h
  show o.record? d h = _
  have hpath : o.path = base ++ sourceExtension := normalized_compiled hb
  have hneeds : o.needsUpdate = !decide (r.rawContent = text) := by
    rw [← needsUpdate_of_tracked hr, ← hpath]
    rfl
  have hmerge : (mergedContent o d h).1.toOption = _ := hw.mergedContent_toOption hb d text _
  rw [Observation.record?, hneeds, hmerge, hpath]
  by_cases hraw : r.rawContent = text
  · simp [hraw]
  · rw [if_neg hraw, if_pos (by simpa using hraw)]
    rfl

private theorem script_absorbed (hb : Stem base) (hw : Watched base n h) (hn : n + 2 < 2 ^ 63)
    (hr : h.store.get? (base ++ sourceExtension) = some r) {text : String}
    (hload : d.load (base ++ compiledExtension) = .ok text) (trackNew : Bool) :
    Absorbs (mergePair h.tools.reassembler base) ⟨text, declarationsOn base d, some .script⟩ (base ++ sourceExtension) r
      h.store (fileChanged (base ++ compiledExtension) trackNew d h) := by
  have hf := Disk.isFile_of_load hload
  have hbase : declarationBase? (base ++ compiledExtension) = none :=
    beforeTail?_declaration_of_compiled (Text.hasTail_append ..)
  have hread : d.read (base ++ compiledExtension) = .ok (.text text) := by
    rw [Disk.read, Disk.lookup_of_load hload]
  obtain ⟨h₁, hl, hrun⟩ :=
    fileChanged_run hb.isScript_compiled hf (compiledSibling?_of_no_base hbase d) trackNew h
  have hpos := hw.upToDate.numbered.not_version_neg hr
  rw [watchedName_of_no_base hbase, hw.knownKey hb hf, if_neg fun hneg => hpos hneg.1, hread] at hrun
  -- what is found now is what the file itself is
  have hw₁ := hw.of_looked hb hf hl
  have hi := hw₁.identify hb hf
  have hnormalized := normalized_compiled hb
  have hr₁ : h₁.store.get? (base ++ sourceExtension) = some r := hl.store ▸ hr
  have htools : h₁.tools = h.tools := hl.quiet.tools
  let o := observedText (.ofResolved (base ++ compiledExtension)) text h₁
  have hmerge : (mergedContent o d h₁).1.toOption = _ := hw₁.mergedContent_toOption hb d text _
  have hnew : o.record? d h₁ = _ := hw₁.record?_eq hb hr₁ d text
  rw [htools] at hmerge hnew
  have hrecord := scriptChanged_record hw₁.sound hi (base ++ compiledExtension)
    (h.store.version (base ++ sourceExtension)) text
  rw [hnormalized] at hrecord
  have herror : ∀ e, (scriptChanged (base ++ compiledExtension) (base ++ compiledExtension)
      (h.store.version (base ++ sourceExtension)) text d h₁).1 = .error e ↔
        h₁.store.needsUpdate (Identity.ofResolved (base ++ compiledExtension)).normalized text = true ∧
          (mergedContent o d h₁).1 = .error e :=
    fun e => (scriptChanged_eq_error_iff _ _).trans (addFile_eq_error_iff hw₁.upToDate hw₁.sound hn hi)
  rw [hrun]
  refine ⟨?_, ?_, fun other hother => ?_⟩
  · have hstored := hrecord (base ++ sourceExtension)
    rw [if_pos rfl, hr₁, Option.or_some] at hstored
    refine ⟨_, hstored, ?_⟩
    show textsOf ((o.record? d h₁).getD r) = _
    rw [hnew]
    unfold Pair.next Pair.absorb textsOf
    by_cases hraw : r.rawContent = text
    · simp [hraw]
    · dsimp only
      rw [if_neg hraw, if_neg hraw]
      cases mergePair h.tools.reassembler base text (declarationsOn base d) <;> rfl
  · dsimp only
    rw [toOption_mapError, toOption_eq_none_iff]
    simp only [herror, exists_and_left]
    rw [← toOption_eq_none_iff, hmerge, hnormalized, needsUpdate_of_tracked hr₁]
    unfold Pair.absorb textsOf
    by_cases hraw : r.rawContent = text <;> simp [hraw]
  · have hkept := hrecord other
    rw [if_neg hother, hl.store] at hkept
    exact hkept

/-- Declarations are not accepted if and only if the text that has been read cannot be merged with them. -/
private theorem refreshDeclarations_eq_none_iff (hb : Stem base) (hw : Watched base n h)
    (hr : h.store.get? (base ++ sourceExtension) = some r) (hf : d.isFile (base ++ compiledExtension) = true) :
    (refreshDeclarations (base ++ compiledExtension) d h).1.toOption = none ↔
      mergePair h.tools.reassembler base r.rawContent (declarationsOn base d) = none := by
  let o : Observation := ⟨.ofResolved (base ++ compiledExtension), r.rawContent, false⟩
  have hmerge : (mergedContent o d h).1.toOption = _ := hw.mergedContent_toOption hb d r.rawContent false
  obtain ⟨h₁, -, hrun⟩ := refreshDeclarations_run hw.sound (hw.identify hb hf)
  rw [normalized_compiled hb, hr] at hrun
  rw [hrun, ← hmerge]
  show _ ↔ (mergedContent o d h).1.toOption = none
  dsimp only
  cases (mergedContent o d h).1 with
  | error e => exact ⟨fun _ => rfl, fun _ => rfl⟩
  | ok content =>
    dsimp only
    split <;> simp [Except.toOption]

private theorem declarations_absorbed (hb : Stem base) (hw : Watched base n h)
    (hr : h.store.get? (base ++ sourceExtension) = some r) (hf : d.isFile (base ++ compiledExtension) = true)
    (text : String) :
    Absorbs (mergePair h.tools.reassembler base) ⟨text, declarationsOn base d, some .declarations⟩
      (base ++ sourceExtension) r h.store
      ((declarationsChanged (base ++ compiledExtension) d h).1.mapError .host,
        (declarationsChanged (base ++ compiledExtension) d h).2) := by
  have hpos := hw.upToDate.numbered.not_version_neg hr
  rw [← hw.knownKey hb hf] at hpos
  obtain ⟨h₁, hl, hstore, hanswer⟩ := declarationsChanged_of_tracked hpos
  have hw₁ := hw.of_looked hb hf hl
  have hr₁ : h₁.store.get? (base ++ sourceExtension) = some r := hl.store ▸ hr
  have hrecord := refreshDeclarations_record hw₁.sound (hw₁.identify hb hf)
  rw [normalized_compiled hb] at hrecord
  have hnew := hw₁.refreshed?_eq hb hr₁ d
  have hnone := hw₁.refreshDeclarations_eq_none_iff hb hr₁ hf
  rw [show h₁.tools = h.tools from hl.quiet.tools] at hnew hnone
  refine ⟨?_, ?_, fun other hother => ?_⟩
  · have hstored := hrecord (base ++ sourceExtension)
    rw [if_pos rfl, hr₁, Option.or_some, ← hstore] at hstored
    refine ⟨_, hstored, ?_⟩
    rw [hnew]
    unfold Pair.next Pair.absorb textsOf
    dsimp only
    cases mergePair h.tools.reassembler base r.rawContent (declarationsOn base d) with
    | none => rfl
    | some content =>
      rw [Option.bind_some]
      by_cases hcontent : content = r.content <;> simp [hcontent]
  · dsimp only
    rw [toOption_mapError, hanswer, hnone]
    unfold Pair.absorb textsOf
    exact Option.map_eq_none_iff.symm
  · have hkept := hrecord other
    rw [if_neg hother, hl.store] at hkept
    exact (hstore other).trans hkept

end Watched

private theorem compiledSibling?_declarations (hf : d.isFile (base ++ compiledExtension) = true) :
    compiledSibling? d (base ++ declarationExtension) = some (base ++ compiledExtension) := by
  unfold compiledSibling? declarationBase? Disk.firstExisting
  rw [Text.beforeTail?_append, Option.bind_some]
  -- this extension is tried first
  exact List.find?_cons_of_pos hf

private theorem Absorbs.ignored {merge : Pair.Merge} {x : Pair.Moment} {key : String} {r : Record}
    {h : Host SyntaxEngine} (hx : x.told = none) (hr : h.store.get? key = some r) (outcome : Outcome) :
    Absorbs merge x key r h.store (.ok outcome, h) := by
  refine ⟨⟨r, hr, ?_⟩, ?_, fun _ _ => rfl⟩
  · rw [Pair.next, Pair.absorb, hx]
    rfl
  · rw [Pair.absorb, hx]
    simp [Except.toOption]

namespace Watched

variable {n : Nat} {h : Host SyntaxEngine} {r : Record}

/-- A created file and a changed one differ in whether new files are tracked, but this one is not new. -/
private theorem fileChanged_absorbs (hb : Stem base) (hw : Watched base n h) (hn : n + 2 < 2 ^ 63)
    (hr : h.store.get? (base ++ sourceExtension) = some r) {text : String}
    (hload : d.load (base ++ compiledExtension) = .ok text) {path : String}
    (hpath : path = base ++ compiledExtension ∨ path = base ++ declarationExtension) (trackNew : Bool) :
    Absorbs (mergePair h.tools.reassembler base) (moment base (d, .modified path)) (base ++ sourceExtension) r h.store
      (fileChanged path trackNew d h) := by
  have hf := Disk.isFile_of_load hload
  rcases hpath with rfl | rfl
  · rw [moment_of_told hload (told?_script_iff.2 (.inr rfl))]
    exact hw.script_absorbed hb hn hr hload trackNew
  · cases hd : d.isFile (base ++ declarationExtension) with
    | true =>
      rw [moment_of_told hload (told?_declarations_iff.2 (.inr ⟨hd, .inr rfl⟩)),
        fileChanged_of_sibling hb.isScript_declarations hd (compiledSibling?_declarations hf)]
      exact hw.declarations_absorbed hb hr hf text
    | false =>
      rw [fileChanged_of_ignored (by simp [hd])]
      have hnone : told? base d (.modified (base ++ declarationExtension)) = none := by
        rw [told?, if_neg (declarations_ne_compiled base), if_neg (by simp [hd])]
      exact .ignored hnone hr .ignored

/-- What an event about one of the two files tells is absorbed. -/
theorem absorbs (hb : Stem base) (hw : Watched base n h) (hn : n + 2 < 2 ^ 63)
    (hr : h.store.get? (base ++ sourceExtension) = some r) {text : String}
    (hload : d.load (base ++ compiledExtension) = .ok text) {event : Event} (habout : event.About base)
    (trackNew : Bool) :
    Absorbs (mergePair h.tools.reassembler base) (moment base (d, event)) (base ++ sourceExtension) r h.store
      (applyEvent trackNew event d h) := by
  cases event with
  | created path => exact hw.fileChanged_absorbs hb hn hr hload habout trackNew
  | modified path => exact hw.fileChanged_absorbs hb hn hr hload habout false
  | removed path =>
    have hf := Disk.isFile_of_load hload
    obtain rfl : path = base ++ declarationExtension := habout
    have hrun : applyEvent trackNew (.removed (base ++ declarationExtension)) d h =
        ((declarationsChanged (base ++ compiledExtension) d h).1.mapError .host,
          (declarationsChanged (base ++ compiledExtension) d h).2) := by
      rw [← fileRemoved_of_sibling hb.isScript_declarations (compiledSibling?_declarations hf)]
      rfl
    rw [moment_of_told hload (told?_declarations_iff.2 (.inl rfl)), hrun]
    exact hw.declarations_absorbed hb hr hf text
  | flushed => exact habout.elim

end Watched

end ScriptHost.Host
