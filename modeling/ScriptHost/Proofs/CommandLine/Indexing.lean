import ScriptHost.CommandLine.Run
import ScriptHost.Proofs.Host.Adding
import ScriptHost.Proofs.Host.Merge
import ScriptHost.Proofs.Resolution.Lookup

/-!
# The order in which files are tracked

Of the files that are tracked one after the other, the first one with a key that can be loaded and merged gets the
record of the key (`get?_addEach`).  So the order matters for files that share a key (`addEach_depends_on_order`), and
for no others (`addEach_eq_of_order`), unless a file takes the place of declarations (`OwnDeclarations`).
-/

namespace ScriptHost.CommandLine

open ScriptHost.Analysis ScriptHost.Path ScriptHost.Host

private theorem findSome?_filter_of_isSome {α β : Type} {f : α → Option β} {p : α → Bool}
    (hf : ∀ a, (f a).isSome = true → p a = true) (l : List α) : (l.filter p).findSome? f = l.findSome? f := by
  induction l with
  | nil => rfl
  | cons a l ih =>
    cases hp : p a with
    | true => rw [List.filter_cons_of_pos hp, List.findSome?_cons, List.findSome?_cons, ih]
    | false =>
      have hnone : f a = none := by
        rw [← Option.not_isSome_iff_eq_none]
        intro hsome
        rw [hf a hsome] at hp
        cases hp
      rw [List.filter_cons_of_neg (by simp [hp]), List.findSome?_cons_of_isNone (by simp [hnone]), ih]

section

variable {σ : Type}

/-- What a path stands for, if it can be identified. -/
def identity? (d : Disk) (h : Host σ) (path : String) : Option Identity := (identify path none d h).1.toOption

/-- Whether a path is that of a script with a key. -/
def hasKey (d : Disk) (h : Host σ) (key path : String) : Bool := (identity? d h path).any (·.normalized == key)

/-- The record that a file gets under a key if that is its own and nothing else is tracked. -/
def recordFor (d : Disk) (h : Host σ) (key path : String) : Option Record :=
  (identity? d h path).bind fun i => if i.normalized = key then firstRecord? d h i else none

/-- Declarations are known by the shim path while a compiled file is merged with them.  No file has that key but the
declarations themselves. -/
def OwnDeclarations (d : Disk) (h : Host σ) (paths : List String) : Prop :=
  ∀ {p q i j declaration}, p ∈ paths → q ∈ paths → identity? d h p = some i → identity? d h q = some j →
    i.isCompiled = true → declarationsBeside d i.resolved = some declaration → j.normalized = shimPath declaration →
    j.isTemporary = true

/-- It is enough that no file but declarations has a shim path for its key. -/
private theorem ownDeclarations_of_no_shim {d : Disk} {h : Host σ} {paths : List String}
    (hs : ∀ {path i}, path ∈ paths → identity? d h path = some i → isShim i.normalized = true → i.isTemporary = true) :
    OwnDeclarations d h paths := by
  intro _ q _ j declaration _ hq _ hj _ _ hkey
  exact hs hq hj (hkey ▸ isShim_shimPath declaration)

private theorem hasKey_of_recordFor {d : Disk} {h : Host σ} {key path : String}
    (hr : (recordFor d h key path).isSome = true) : hasKey d h key path = true := by
  unfold recordFor at hr
  unfold hasKey
  cases hi : identity? d h path with
  | none =>
    rw [hi] at hr
    cases hr
  | some i =>
    rw [hi, Option.bind_some] at hr
    split at hr
    · rename_i hkey
      simp [hkey]
    · cases hr

private theorem addEach_cons (path : String) (rest : List String) (d : Disk) (h : Host σ) :
    addEach (path :: rest) d h = addEach rest d (addFile { path } d h).2 := by
  rw [addEach, Action.bind_run_of_ok (Action.attempt_run ..)]

end

variable {d : Disk} {h₀ h : Host SyntaxEngine} {paths : List String} {path : String} {i : Identity}

/-- A host that has tracked some of the files since it was unused. -/
structure Indexing (d : Disk) (h₀ : Host SyntaxEngine) (paths : List String) (h : Host SyntaxEngine) : Prop where
  sound : h.memo.Sound
  tools : h.tools = h₀.tools
  answers : ∀ path, (identify path none d h).1 = (identify path none d h₀).1
  /-- What is tracked in the place of declarations is their text on the disk. -/
  declared : ∀ {path i declaration r}, path ∈ paths → identity? d h₀ path = some i → i.isCompiled = true →
    declarationsBeside d i.resolved = some declaration → h.store.get? (shimPath declaration) = some r →
    d.load declaration = .ok r.rawContent

private theorem Indexing.start (hu : h₀.Unused) : Indexing d h₀ paths h₀ := by
  refine ⟨hu.sound, rfl, fun _ => rfl, fun _ _ _ _ hr => ?_⟩
  rw [hu.store] at hr
  cases hr

private theorem Indexing.mergedContent_eq (hx : Indexing d h₀ paths h) (hu : h₀.Unused)
    (he : h₀.tools.engine = SyntaxEngine.engine) (hpath : path ∈ paths) (hi : identity? d h₀ path = some i)
    (text : String) :
    (mergedContent ⟨i, text, true⟩ d h).1.toOption = (mergedContent ⟨i, text, true⟩ d h₀).1.toOption := by
  by_cases hplain : i.isCompiled = true → declarationsBeside d i.resolved = none
  · rw [mergedContent_of_plain (o := ⟨i, text, true⟩) hplain, mergedContent_of_plain (o := ⟨i, text, true⟩) hplain]
  · obtain ⟨hc, hbeside⟩ := Classical.not_imp.1 hplain
    obtain ⟨declaration, hd⟩ := Option.ne_none_iff_exists'.1 hbeside
    have hwf := wellFormed_of_identify hu.sound (Action.run_of_answer (toOption_eq_some_iff.1 hi))
    have hnone : h₀.store.get? (shimPath declaration) = none := by rw [hu.store]; rfl
    cases hload : d.load declaration with
    | error e =>
      -- then nothing is tracked in the place of the declarations, and they cannot be seen
      have huntracked : h.store.get? (shimPath declaration) = none := by
        cases hr : h.store.get? (shimPath declaration) with
        | none => rfl
        | some r =>
          have := hx.declared hpath hi hc hd hr
          rw [hload] at this
          cases this
      rw [mergedContent_run (o := ⟨i, text, true⟩) hc hd hx.sound,
        mergedContent_run (o := ⟨i, text, true⟩) hc hd hu.sound,
        seenText_of_untracked (i := .shim (shimPath declaration)) huntracked,
        seenText_of_untracked (i := .shim (shimPath declaration)) hnone, fileOf_shimPath hd, hload]
      rfl
    | ok onDisk =>
      have hshown : shownText h.store declaration onDisk = onDisk := by
        unfold shownText
        cases hr : h.store.get? (shimPath declaration) with
        | none => rfl
        | some r =>
          have := hx.declared hpath hi hc hd hr
          rw [hload] at this
          exact (Except.ok.inj this).symm
      have hshown₀ : shownText h₀.store declaration onDisk = onDisk := by rw [shownText, hnone]; rfl
      have hs : Shown ⟨i, text, true⟩ declaration onDisk d h :=
        ⟨hc, hd, by rw [seenText_of_declaration hd hload, hshown]⟩
      have hs₀ : Shown ⟨i, text, true⟩ declaration onDisk d h₀ :=
        ⟨hc, hd, by rw [seenText_of_declaration hd hload, hshown₀]⟩
      ext content
      rw [toOption_eq_some_iff, toOption_eq_some_iff, mergedContent_eq_ok hwf hx.sound (hx.tools ▸ he) hs,
        mergedContent_eq_ok hwf hu.sound he hs₀, hx.tools]

private theorem Indexing.firstRecord?_eq (hx : Indexing d h₀ paths h) (hu : h₀.Unused)
    (he : h₀.tools.engine = SyntaxEngine.engine) (hpath : path ∈ paths) (hi : identity? d h₀ path = some i) :
    firstRecord? d h i = firstRecord? d h₀ i := by
  unfold firstRecord?
  simp only [hx.mergedContent_eq hu he hpath hi]

/-- A file that is tracked next gets the record that it gets on its own, unless its key is tracked already. -/
private theorem Indexing.record_addFile (hx : Indexing d h₀ paths h) (hu : h₀.Unused)
    (he : h₀.tools.engine = SyntaxEngine.engine) (hpath : path ∈ paths) (key : String) :
    (addFile { path } d h).2.store.get? key = (h.store.get? key).or (recordFor d h₀ key path) := by
  have hanswer := hx.answers path
  unfold recordFor
  cases hi : (identify path none d h₀).1 with
  | error e =>
    have hnone : identity? d h₀ path = none := by rw [identity?, hi]; rfl
    rw [hi] at hanswer
    rw [addFile_of_unidentified hanswer, hnone]
    show h.store.get? key = _
    simp
  | ok i =>
    have hsome : identity? d h₀ path = some i := toOption_eq_some_iff.2 hi
    rw [hi] at hanswer
    rw [addFile_record hx.sound hanswer, hx.firstRecord?_eq hu he hpath hsome, hsome, Option.bind_some]
    by_cases hkey : key = i.normalized
    · rw [if_pos hkey, if_pos hkey.symm]
    · rw [if_neg hkey, if_neg (Ne.symm hkey), Option.or_none]

private theorem Indexing.addFile (hx : Indexing d h₀ paths h) (hu : h₀.Unused)
    (he : h₀.tools.engine = SyntaxEngine.engine) (hown : OwnDeclarations d h₀ paths) (hpath : path ∈ paths) :
    Indexing d h₀ paths (Host.addFile { path } d h).2 := by
  refine ⟨?_, ?_, fun other => ?_, fun {p i declaration r} hp hi hc hd hr => ?_⟩
  · exact sound_after hx.sound [(d, .addFile { path })]
  · exact (tools_after hx.sound [(d, .addFile { path })]).trans hx.tools
  · exact addFile_keeps_answer other (r := { path }) rfl rfl _ h (hx.answers other)
  · rw [hx.record_addFile hu he hpath] at hr
    cases hold : h.store.get? (shimPath declaration) with
    | some old =>
      rw [hold, Option.some_or] at hr
      exact hx.declared hp hi hc hd (hold.trans hr)
    | none =>
      -- the added file has the shim path for its key, so it stands for the declarations
      rw [hold, Option.none_or, recordFor, Option.bind_eq_some_iff] at hr
      obtain ⟨j, hj, hr⟩ := hr
      split at hr
      · rename_i hkey
        have htemporary := hown hp hpath hi hj hc hd hkey
        have hshim : j = .shim (shimPath declaration) := by
          cases wellFormed_of_identify hu.sound (Action.run_of_answer (toOption_eq_some_iff.1 hj)) with
          | shim hs => exact congrArg Identity.shim hkey
          | ofResolved file => cases htemporary
        have hfile : fileOf j = declaration := hshim ▸ fileOf_shimPath hd
        rw [firstRecord?, hfile, Option.bind_eq_some_iff] at hr
        obtain ⟨text, htext, hr⟩ := hr
        obtain ⟨content, -, rfl⟩ := Option.map_eq_some_iff.1 hr
        exact toOption_eq_some_iff.1 htext
      · cases hr

/-- The record of a key is the one that was there, or else that of the first file that gets one under the key. -/
theorem Indexing.get?_addEach (hx : Indexing d h₀ paths h) (hu : h₀.Unused)
    (he : h₀.tools.engine = SyntaxEngine.engine) (hown : OwnDeclarations d h₀ paths) {rest : List String}
    (hrest : ∀ path ∈ rest, path ∈ paths) (key : String) :
    (addEach rest d h).2.store.get? key = (h.store.get? key).or (rest.findSome? (recordFor d h₀ key)) := by
  induction rest generalizing h with
  | nil => exact (Option.or_none).symm
  | cons path rest ih =>
    obtain ⟨hpath, hrest⟩ := List.forall_mem_cons.1 hrest
    rw [addEach_cons, ih (hx.addFile hu he hown hpath) hrest, hx.record_addFile hu he hpath, Option.or_assoc,
      List.findSome?_cons]
    cases recordFor d h₀ key path <;> rfl

/-- What is tracked under a key after files have been tracked one after the other: the record that the first of them
gets that gets one. -/
theorem get?_addEach (hu : h₀.Unused) (he : h₀.tools.engine = SyntaxEngine.engine)
    (hown : OwnDeclarations d h₀ paths) (key : String) :
    (addEach paths d h₀).2.store.get? key = paths.findSome? (recordFor d h₀ key) := by
  rw [(Indexing.start hu).get?_addEach hu he hown (fun _ => id), hu.store]
  exact Option.none_or

/-! ### Orders -/

/-- Files that share a key come in the same order in both lists. -/
def KeepsOrder (d : Disk) (h : Host SyntaxEngine) (paths paths' : List String) : Prop :=
  ∀ key, paths.filter (hasKey d h key) = paths'.filter (hasKey d h key)

/-- If no two files share a key, they may come in any order. -/
private theorem KeepsOrder.of_perm {paths' : List String} (hperm : paths.Perm paths')
    (hdistinct : paths.Pairwise fun p q => ∀ i j, identity? d h p = some i → identity? d h q = some j →
      i.normalized ≠ j.normalized) : KeepsOrder d h paths paths' := by
  intro key
  have hfilter := hperm.filter (hasKey d h key)
  have hpairwise := hdistinct.sublist (List.filter_sublist (p := hasKey d h key))
  have hkeys : ∀ p ∈ paths.filter (hasKey d h key), ∃ i, identity? d h p = some i ∧ i.normalized = key := by
    intro p hp
    simpa [hasKey, Option.any_eq_true] using (List.mem_filter.1 hp).2
  generalize paths.filter (hasKey d h key) = files at *
  -- there is at most one file with the key
  match files, hfilter, hpairwise, hkeys with
  | [], hfilter, _, _ => exact hfilter.nil_eq
  | [p], hfilter, _, _ => exact (List.perm_singleton.1 hfilter.symm).symm
  | p :: q :: _, _, hpairwise, hkeys =>
    obtain ⟨i, hi, hikey⟩ := hkeys p (by simp)
    obtain ⟨j, hj, hjkey⟩ := hkeys q (by simp)
    exact absurd (hikey.trans hjkey.symm) (List.rel_of_pairwise_cons hpairwise List.mem_cons_self i j hi hj)

private theorem KeepsOrder.mem {paths' : List String} (hk : KeepsOrder d h paths paths') (hpath : path ∈ paths')
    (hi : identity? d h path = some i) : path ∈ paths := by
  have hkey : hasKey d h i.normalized path = true := by simp [hasKey, hi]
  have hmem : path ∈ paths'.filter (hasKey d h i.normalized) := List.mem_filter.2 ⟨hpath, hkey⟩
  rw [← hk] at hmem
  exact (List.mem_filter.1 hmem).1

/-- The order in which files are tracked does not matter, as long as files that share a key keep their order: the same
keys are tracked, with the same texts and versions.  This is said of files none of which takes the place of the
declarations of another one. -/
theorem addEach_eq_of_order (hu : h₀.Unused) (he : h₀.tools.engine = SyntaxEngine.engine) {paths' : List String}
    (hk : KeepsOrder d h₀ paths paths') (hown : OwnDeclarations d h₀ paths) (key : String) :
    (addEach paths d h₀).2.store.get? key = (addEach paths' d h₀).2.store.get? key := by
  have hown' : OwnDeclarations d h₀ paths' := fun hp hq hi hj => hown (hk.mem hp hi) (hk.mem hq hj) hi hj
  rw [get?_addEach hu he hown, get?_addEach hu he hown', ← findSome?_filter_of_isSome (fun _ => hasKey_of_recordFor),
    hk, findSome?_filter_of_isSome fun _ => hasKey_of_recordFor]

/-- A compiled file is merged with its declarations whether another file comes before it or not. -/
theorem addEach_eq_of_order_of_compiled : ∃ d : Disk,
    (addEach ["/r/a.js", "/r/b.ts"] d (fresh tools .fresh "/r")).2.store.get? "/r/a.ts" =
      some ⟨1, "interface A {}\n1\n", "1"⟩ ∧
    ∀ key, (addEach ["/r/a.js", "/r/b.ts"] d (fresh tools .fresh "/r")).2.store.get? key =
      (addEach ["/r/b.ts", "/r/a.js"] d (fresh tools .fresh "/r")).2.store.get? key := by
  let d := ((Disk.empty.write "/r/a.js" (.text "1")).write "/r/a.d.ts" (.text "interface A {}")).write "/r/b.ts"
    (.text "2")
  have hjs : identity? d (fresh tools .fresh "/r") "/r/a.js" = some ⟨"/r/a.js", "/r/a.ts", false⟩ := by decide +kernel
  have hts : identity? d (fresh tools .fresh "/r") "/r/b.ts" = some ⟨"/r/b.ts", "/r/b.ts", false⟩ := by decide +kernel
  refine ⟨d, by decide +kernel, addEach_eq_of_order (unused_fresh ..) rfl (.of_perm (.swap ..) ?_) ?_⟩
  · refine List.pairwise_pair.2 fun i j hi hj => ?_
    cases hjs.symm.trans hi
    cases hts.symm.trans hj
    decide
  · refine ownDeclarations_of_no_shim fun {path i} hpath hi hs => ?_
    rcases List.mem_pair.1 hpath with rfl | rfl
    · cases hjs.symm.trans hi
      exact absurd hs (by decide +kernel)
    · cases hts.symm.trans hi
      exact absurd hs (by decide +kernel)

/-- A file whose key is the shim path of declarations is merged in their stead if it comes first. -/
example :
    let d := ((Disk.empty.write "/r/a.js" (.text "1")).write "/r/a.d.ts" (.text "interface A {}")).write "/r/a-temp.js"
      (.text "interface B {}")
    let start := fresh tools .fresh "/r"
    (addEach ["/r/a.js", "/r/a-temp.js"] d start).2.store.get? "/r/a.ts" = some ⟨1, "interface A {}\n1\n", "1"⟩ ∧
      (addEach ["/r/a-temp.js", "/r/a.js"] d start).2.store.get? "/r/a.ts" =
        some ⟨1, "interface B {}\n1\n", "1"⟩ := by
  decide +kernel

/-- Files that share a key: a script and what it was compiled to.  What is tracked depends on which one comes first. -/
theorem addEach_depends_on_order : ¬ ∀ (d : Disk) (paths paths' : List String), paths.Nodup → paths.Perm paths' →
    (∀ path ∈ paths, isScript path = true ∧ d.isFile path = true) → ∀ key,
      ((addEach paths d (fresh tools .fresh "/r")).2.store.get? key).map (fun r => (r.rawContent, r.content)) =
        ((addEach paths' d (fresh tools .fresh "/r")).2.store.get? key).map fun r => (r.rawContent, r.content) := by
  intro hall
  have hsame := hall ((Disk.empty.write "/r/a.ts" (.text "1")).write "/r/a.js" (.text "2")) ["/r/a.ts", "/r/a.js"]
    ["/r/a.js", "/r/a.ts"] (by decide) (.swap ..) (by decide +kernel) "/r/a.ts"
  revert hsame
  decide +kernel

end ScriptHost.CommandLine
