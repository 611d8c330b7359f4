import ScriptHost.Proofs.Host.Storing

/-!
# What operations do to records

No operation but a removal takes a record away; the others store at most one text under a key, the first or the next
one, and none if they fail before they have stored anything (`Operation.effect`).
-/

namespace ScriptHost.Host

open ScriptHost.Analysis ScriptHost.Path

variable {σ α : Type} {d : Disk}

/-! ### Failures -/

/-- The error with which an action has failed. -/
def failureOf (x : Except HostError α × Host σ) : Option HostError :=
  match x.1 with
  | .error e => some e
  | .ok _ => none

/-- The error of the host because of which nothing could be done about an event. -/
def watchFailureOf (x : Except WatchError Outcome × Host σ) : Option HostError :=
  match x.1 with
  | .error (.host e) => some e
  | _ => none

/-- The error with which an operation fails. -/
def Operation.failure? (d : Disk) (h : Host σ) : Operation → Option HostError
  | identify path origin => failureOf (Host.identify path origin d h)
  | observe path origin given => failureOf (Host.observe path origin given d h)
  | addFile r => failureOf (Host.addFile r d h)
  | getFile r => failureOf (Host.getFile r d h)
  | addObserved o withImports => failureOf (Host.addObserved o withImports d h)
  | parsedUnit key => failureOf (Host.parsedUnit key d h)
  | refreshDeclarations name => failureOf (Host.refreshDeclarations name d h)
  | removeFile name => failureOf (Host.removeFile name d h)
  | fileVersion name => failureOf (Host.fileVersion name d h)
  | fileRecord name => failureOf (Host.fileRecord name d h)
  | importsOfContent source origin => failureOf (Host.importsOfContent source origin d h)
  | importsOfFile name => failureOf (Host.importsOfFile name d h)
  | expandClosure path origin => failureOf (Host.expandClosure path origin d h)
  | askAbout t name offset => failureOf (Host.askAbout t.question name offset d h)
  | askAt t key offset => failureOf (Host.askAt t.question key offset d h)
  | setOptions options => failureOf (Host.setOptions options d h)
  | exclude patterns => failureOf (Host.exclude patterns d h)
  | applyEvent trackNew event => watchFailureOf (Host.applyEvent trackNew event d h)

/-- A script that was observed before, at whatever time and by whomever, is known by another path than the shim of the
declarations that it is to be merged with, if it is to be stored. -/
def Operation.Apart (d : Disk) : Operation → Prop
  | addObserved o _ => o.needsUpdate = true → o.Apart d
  | _ => True

/-- The operation stops the tracking of the script with a key. -/
def Operation.Forgets (key : String) (d : Disk) (h : Host σ) : Operation → Prop
  | removeFile name => knownKey name d h = key
  | applyEvent _ (.removed path) => Drops path key d h
  | _ => False

/-- What may have happened to the records between two states if no script was dropped. -/
structure Advance (failure? : Option HostError) (h h' : Host σ) : Prop where
  progress : ∀ key, Progress (h.store.get? key) (h'.store.get? key)
  spares : ∀ {e}, failure? = some e → e.Early → ∀ key, h'.store.get? key = h.store.get? key

private theorem Advance.of_quiet {h h' : Host σ} (hq : Quiet d h h') (failure? : Option HostError) :
    Advance failure? h h' :=
  ⟨fun key => .of_eq (hq.store key), fun _ _ => hq.store⟩

private theorem Commits.advance {x : Action σ α} (hx : Commits d x) {h : Host σ} (hm : h.memo.Sound) :
    Advance (failureOf (x d h)) h (x d h).2 := by
  refine ⟨hx.progress hm, fun {e} he => hx.spares hm ?_⟩
  unfold failureOf at he
  split at he
  · rename_i e' hfail
    cases he
    exact hfail
  · cases he

private theorem Tracks.advance {x : Action σ α} (hx : Tracks d x) {h : Host σ} (hm : h.memo.Sound) :
    Advance (failureOf (x d h)) h (x d h).2 := hx.commits.advance hm

private theorem watchFailureOf_host (x : Except HostError Outcome × Host σ) :
    watchFailureOf (x.1.mapError .host, x.2) = failureOf x := by
  obtain ⟨e | outcome, h⟩ := x <;> rfl

private theorem fileChanged_advance (path : String) (trackNew : Bool) {h : Host σ} (hm : h.memo.Sound) :
    Advance (watchFailureOf (fileChanged path trackNew d h)) h (fileChanged path trackNew d h).2 := by
  by_cases hfile : isScript path = true ∧ d.isFile path = true
  · obtain ⟨hs, hf⟩ := hfile
    cases hsib : compiledSibling? d path with
    | some compiled =>
      rw [fileChanged_of_sibling hs hf hsib, watchFailureOf_host]
      exact (declarationsChanged_commits compiled).advance hm
    | none =>
      obtain ⟨h₁, hl, hrun⟩ := fileChanged_run hs hf hsib trackNew h
      rw [hrun]
      split
      · exact .of_quiet hl.quiet _
      · cases d.read path with
        | error cause => exact .of_quiet hl.quiet _
        | ok content =>
          cases content with
          | binary => exact .of_quiet hl.quiet _
          | text text =>
            dsimp only
            rw [watchFailureOf_host]
            have hchanged := (scriptChanged_commits (d := d) path (watchedName path)
              (h.store.version (knownKey (watchedName path) d h)) text).advance (hl.quiet.sound hm)
            exact ⟨fun key => hl.quiet.store key ▸ hchanged.progress key,
              fun he hearly key => (hchanged.spares he hearly key).trans (hl.quiet.store key)⟩
  · rw [fileChanged_of_ignored hfile]
    exact .of_quiet (.refl d h) _

private theorem removeFile_keeps_untracked (name key : String) :
    (removeFile name : Action σ Bool).Keeps d fun h => h.store.get? key = none := by
  intro h hnone
  obtain ⟨h₁, hrun, hstore, -⟩ := removeFile_run name d h
  rw [hrun]
  show h₁.store.get? key = none
  rw [hstore, Table.get?_erase, hnone, ite_self]

private theorem failureOf_removeFile (name : String) (d : Disk) (h : Host σ) : failureOf
    (removeFile name d h) = none := by
  obtain ⟨h₁, hrun, -⟩ := removeFile_run name d h
  rw [hrun]
  rfl

/-- The removal of a file that is no declaration of a compiled script does not fail. -/
private theorem failureOf_fileRemoved {path : String} (hs : isScript path = true)
    (hsib : compiledSibling? d path = none) (h : Host σ) : failureOf (fileRemoved path d h) = none := by
  obtain ⟨h₁, hrun, -⟩ := removeFile_run path d h
  rw [fileRemoved_run hs hsib, Action.bind_run_of_ok hrun]
  split
  · rfl
  · split
    · rfl
    · obtain ⟨h₂, hrun₂, -⟩ := removeFile_run (sourceName path) d h₁
      rw [Action.bind_run_of_ok hrun₂]
      split <;> rfl

private theorem fileRemoved_keeps_untracked {path : String} (hs : isScript path = true)
    (hsib : compiledSibling? d path = none) (key : String) {h : Host σ} (hnone : h.store.get? key = none) :
    (fileRemoved path d h).2.store.get? key = none := by
  rw [fileRemoved_run hs hsib]
  refine Action.Keeps.bind (removeFile_keeps_untracked path key) (fun removed => ?_) h hnone
  split
  · exact .pure _
  · split
    · exact .pure _
    · refine .bind (removeFile_keeps_untracked _ key) fun removed => ?_
      split <;> exact .pure _

/-- What an operation does to records. -/
structure Operation.Effect (op : Operation) (d : Disk) (h : Host σ) : Prop where
  change : ∀ key, Progress (h.store.get? key) ((op.next d h).store.get? key) ∨
    op.Forgets key d h ∧ (op.next d h).store.get? key = none
  spares : ∀ {e}, op.failure? d h = some e → e.Early → ∀ key, (op.next d h).store.get? key = h.store.get? key

private theorem Operation.Effect.of_advance {op : Operation} {h : Host σ}
    (ha : Advance (op.failure? d h) h (op.next d h)) : op.Effect d h :=
  ⟨fun key => .inl (ha.progress key), ha.spares⟩

private theorem removeFile_effect (name : String) (d : Disk) (h : Host σ) : (Operation.removeFile name).Effect d h := by
  obtain ⟨h₁, hrun, hstore, -⟩ := removeFile_run name d h
  have hnext : ((Operation.removeFile name).next d h).store = h.store.erase (knownKey name d h) := by
    show (removeFile name d h).2.store = _
    rw [hrun, hstore]
  refine ⟨fun key => ?_, fun he => ?_⟩
  · rw [hnext, Table.get?_erase]
    split
    · rename_i hkey
      exact .inr ⟨hkey.symm, rfl⟩
    · exact .inl (.kept _)
  · change failureOf (removeFile name d h) = _ at he
    rw [failureOf_removeFile] at he
    cases he

private theorem fileRemoved_effect (trackNew : Bool) (path : String) {h : Host σ} (hm : h.memo.Sound) :
    (Operation.applyEvent trackNew (.removed path)).Effect d h := by
  have hfailure : (Operation.applyEvent trackNew (.removed path)).failure? d h = failureOf (fileRemoved path d h) :=
    watchFailureOf_host (fileRemoved path d h)
  by_cases hs : isScript path = true
  · cases hsib : compiledSibling? d path with
    | some compiled =>
      have hchanged := (declarationsChanged_commits (d := d) compiled).advance hm
      rw [← fileRemoved_of_sibling hs hsib, ← hfailure] at hchanged
      exact .of_advance hchanged
    | none =>
      refine ⟨fun key => ?_, fun he => ?_⟩
      · show Progress _ ((fileRemoved path d h).2.store.get? key) ∨
          Drops path key d h ∧ (fileRemoved path d h).2.store.get? key = none
        cases hr : h.store.get? key with
        | none =>
          rw [fileRemoved_keeps_untracked hs hsib key hr]
          exact .inl (.kept none)
        | some r =>
          obtain ⟨hdrop, hstay⟩ := fileRemoved_record hs hsib hr
          by_cases hd : Drops path key d h
          · exact .inr ⟨hd, hdrop hd⟩
          · exact .inl (.of_eq (hstay hd))
      · rw [hfailure, failureOf_fileRemoved hs hsib] at he
        cases he
  · refine .of_advance ?_
    show Advance _ h (fileRemoved path d h).2
    rw [fileRemoved_of_ignored hs]
    exact .of_quiet (.refl d h) _

/-- Every operation stores at most one text under a key, and only the removal of a script takes its record away; if it
fails early, it leaves every record as it is. -/
theorem Operation.effect {op : Operation} (hop : op.Apart d) {h : Host σ} (hm : h.memo.Sound) :
    op.Effect d h := by
  cases op with
  | identify path origin => exact .of_advance (.of_quiet (identify_quiet path origin d h) _)
  | observe path origin given => exact .of_advance (.of_quiet (observe_quiet path origin given d h) _)
  | addFile r => exact .of_advance ((addFile_commits r).advance hm)
  | getFile r => exact .of_advance ((getFile_commits r).advance hm)
  | addObserved o withImports => exact .of_advance ((addObserved_commits hop withImports).advance hm)
  | parsedUnit key => exact .of_advance (.of_quiet (parsedUnit_quiet key d h) _)
  | refreshDeclarations name => exact .of_advance ((refreshDeclarations_commits name).advance hm)
  | removeFile name => exact removeFile_effect name d h
  | fileVersion name => exact .of_advance (.of_quiet (fileVersion_quiet name d h) _)
  | fileRecord name => exact .of_advance (.of_quiet (fileRecord_quiet name d h) _)
  | importsOfContent source origin => exact .of_advance (.of_quiet (importsOfContent_quiet source origin d h) _)
  | importsOfFile name => exact .of_advance (.of_quiet (importsOfFile_quiet name d h) _)
  | expandClosure path origin => exact .of_advance ((expandClosure_commits path origin).advance hm)
  | askAbout t name offset => exact .of_advance (.of_quiet (askAbout_quiet t name offset d h) _)
  | askAt t key offset => exact .of_advance (.of_quiet (.engineState d h _) _)
  | setOptions options => exact .of_advance ((setOptions_tracks options).advance hm)
  | exclude patterns => exact .of_advance ((exclude_tracks patterns).advance hm)
  | applyEvent trackNew event =>
    cases event with
    | created path => exact .of_advance (fileChanged_advance path trackNew hm)
    | modified path => exact .of_advance (fileChanged_advance path false hm)
    | removed path => exact fileRemoved_effect trackNew path hm
    | flushed => exact .of_advance (.of_quiet (.refl d h) _)

end ScriptHost.Host
