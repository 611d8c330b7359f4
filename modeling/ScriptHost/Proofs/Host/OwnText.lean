import ScriptHost.Proofs.Host.Watch
import ScriptHost.Proofs.Path.Stem

/-!
# Files that are read as themselves

The clean absolute path of a file stands for that file when it is looked up, but that is not all that is done with it: a
path that ends like a shim path stands for the declarations beside it, and what has been remembered of a path stays,
whatever is on the disk now.  These are the only two ways in which something else is observed than the file
(`readAsItself_iff`).
-/

namespace ScriptHost.Host

open ScriptHost.Analysis ScriptHost.Path ScriptHost.Resolution

variable {σ : Type} {d : Disk} {h : Host σ} {path text : String}

/-- By its own path, without an origin, a file is observed with its text. -/
def ReadAsItself (path text : String) (d : Disk) (h : Host σ) : Prop :=
  ∃ o h', observe path none none d h = (.ok o, h') ∧ o.identity.resolved = path ∧ o.raw = text

/-- What the path of a file stands for when nothing is remembered of it. -/
def ownIdentity (path : String) : Identity := if isShim path then .shim path else .ofResolved path

@[simp] theorem ownIdentity_resolved (path : String) : (ownIdentity path).resolved = path := by
  unfold ownIdentity
  split <;> rfl

private theorem ownIdentity_normalized (path : String) : (ownIdentity path).normalized = sourcePath path := by
  unfold ownIdentity
  split
  · exact (sourcePath_of_isShim ‹_›).symm
  · rfl

private theorem fileOf_ownIdentity (path : String) :
    fileOf (ownIdentity path) = if isShim path then declarationPath path else path := by
  unfold ownIdentity
  split <;> rfl

/-- What is remembered of a path, if that is still the path itself, is what it stands for anyway. -/
private theorem eq_ownIdentity_of_found {m : Memo} (hm : m.Sound) {origin : String} {i : Identity}
    (hi : m.found.get? (Memo.key path origin) = some i) (hresolved : i.resolved = path) : i = ownIdentity path := by
  unfold ownIdentity
  split
  · exact hm.shim hi ‹_›
  · rename_i hshim
    cases hm.wellFormed hi with
    | shim hs => exact absurd (hresolved ▸ hs) hshim
    | ofResolved file => rw [show file = path from hresolved]

private theorem identify_file (hresolver : h.tools.resolver.resolve = resolveOnDisk) (ha : isAbsolute path = true)
    (hc : clean path = path) (hf : d.isFile path = true) :
    (identify path none d h).1 = .ok ((h.memo.found.get? (Memo.key path h.directory)).getD (ownIdentity path)) := by
  rw [identify_run, Option.getD_none, Memo.resolve_answer]
  cases h.memo.found.get? (Memo.key path h.directory) with
  | some i => rfl
  | none =>
    have hfound : resolveOnDisk d path h.directory = .ok path := by
      have := nodeResolver_of_clean ha hc hf h.directory
      rwa [show nodeResolver.resolve = resolveOnDisk by rw [nodeResolver]] at this
    unfold Memo.identify ownIdentity
    rw [hresolver, hfound]
    split <;> rfl

/-- In whatever state a host is, an untracked file is observed with its own text by its clean absolute path, if and only
if nothing else is remembered of that path, and the path does not end like a shim path, unless the declarations for
which it stands then have the same text. -/
theorem readAsItself_iff (hreach : h.Reachable) (hresolver : h.tools.resolver.resolve = resolveOnDisk)
    (ha : isAbsolute path = true) (hc : clean path = path) (htext : d.load path = .ok text)
    (huntracked : h.store.get? (sourcePath path) = none) :
    ReadAsItself path text d h ↔
      (∀ i, h.memo.found.get? (Memo.key path h.directory) = some i → i.resolved = path) ∧
        (isShim path = true → d.load (declarationPath path) = .ok text) := by
  have hidentify := identify_file hresolver ha hc (Disk.isFile_of_load htext)
  have hown : h.store.get? (ownIdentity path).normalized = none := by rwa [ownIdentity_normalized]
  have hseen := seenText_of_untracked hown d
  rw [fileOf_ownIdentity] at hseen
  constructor
  · rintro ⟨o, h', hrun, hresolved, hraw⟩
    obtain ⟨i, h₁, hi, ho⟩ := Action.bind_eq_ok.1 hrun
    obtain ⟨-, hs, rfl, -⟩ := observeIdentity_eq_ok.1 ho
    have hstore : h₁.store = h.store := (congrArg (·.2.store) hi).symm
    rw [congrArg Prod.fst hi] at hidentify
    have hmemo : ∀ i, h.memo.found.get? (Memo.key path h.directory) = some i → i = o.identity := by
      intro i hfound
      rw [hfound] at hidentify
      cases hidentify
      rfl
    have hidentity : o.identity = ownIdentity path := by
      cases hfound : h.memo.found.get? (Memo.key path h.directory) with
      | none =>
        rw [hfound] at hidentify
        exact Except.ok.inj hidentify
      | some i =>
        rw [← hmemo i hfound] at hresolved ⊢
        exact eq_ownIdentity_of_found hreach.sound hfound hresolved
    refine ⟨fun i hfound => (hmemo i hfound).symm ▸ hresolved, fun hshim => ?_⟩
    rw [hidentity, hstore, hseen, if_pos hshim, hraw] at hs
    cases hload : d.load (declarationPath path) with
    | error e =>
      rw [hload] at hs
      cases hs
    | ok declarations =>
      rw [hload] at hs
      cases hs
      rfl
  · rintro ⟨hmemo, hshim⟩
    have hidentity : (h.memo.found.get? (Memo.key path h.directory)).getD (ownIdentity path) = ownIdentity path := by
      cases hfound : h.memo.found.get? (Memo.key path h.directory) with
      | none => rfl
      | some i => exact eq_ownIdentity_of_found hreach.sound hfound (hmemo i hfound)
    have hload : d.load (if isShim path then declarationPath path else path) = .ok text := by
      split
      · exact hshim ‹_›
      · exact htext
    have hobserve := observe_run hidentify none
    rw [hidentity, hseen, hload] at hobserve
    exact ⟨_, _, hobserve, ownIdentity_resolved path, rfl⟩

/-- What was found by a path stays, although there is a file at the path itself since then. -/
theorem readAsItself_iff_of_remembered : ∃ (d : Disk) (h : Host SyntaxEngine),
    h.Reachable ∧ d.load "/r/x" = .ok "2" ∧ ReadAsItself "/r/y.ts" "3" d h ∧ ¬ ReadAsItself "/r/x" "2" d h := by
  let before := Disk.empty.write "/r/x.ts" (.text "1")
  let d := (before.write "/r/x" (.text "2")).write "/r/y.ts" (.text "3")
  let h := (fresh ⟨nodeResolver, Merge.typePrelude, SyntaxEngine.engine⟩ SyntaxEngine.fresh "/r").after
    [(before, .observe "/r/x" none none)]
  have hx : d.load "/r/x" = .ok "2" := by decide +kernel
  have hy : d.load "/r/y.ts" = .ok "3" := by decide +kernel
  have huntracked : ∀ key, h.store.get? key = none := fun _ => rfl
  have hfound : h.memo.found.get? (Memo.key "/r/x" h.directory) = some (.ofResolved "/r/x.ts") := by decide +kernel
  have hnew : h.memo.found.get? (Memo.key "/r/y.ts" h.directory) = none := by decide +kernel
  have hr : h.Reachable := ⟨_, _, unused_fresh .., rfl⟩
  have hnode : h.tools.resolver = nodeResolver := rfl
  clear_value d h
  have hresolver : h.tools.resolver.resolve = resolveOnDisk := by rw [hnode, nodeResolver]
  refine ⟨d, h, hr, hx, ?_, fun hread => ?_⟩
  · refine (readAsItself_iff hr hresolver (by decide) (by decide +kernel) hy (huntracked _)).2
      ⟨fun i hi => ?_, fun hshim => ?_⟩
    · rw [hnew] at hi
      cases hi
    · exact absurd hshim (by decide +kernel)
  · have hmemo := ((readAsItself_iff hr hresolver (by decide) (by decide +kernel) hx (huntracked _)).1 hread).1
    exact absurd (hmemo _ hfound) (by decide)

/-- A file whose path ends like a shim path is not read itself. -/
theorem not_readAsItself_of_shim : ¬ ∀ (d : Disk) (h : Host SyntaxEngine) (path text : String), h.Reachable →
    h.tools.resolver.resolve = resolveOnDisk → isAbsolute path = true → clean path = path → d.load path = .ok text →
    h.store.get? (sourcePath path) = none → ReadAsItself path text d h := by
  intro hall
  let d := Disk.empty.write "/r/x-temp.ts" (.text "1")
  let h := fresh ⟨nodeResolver, Merge.typePrelude, SyntaxEngine.engine⟩ SyntaxEngine.fresh "/r"
  have htext : d.load "/r/x-temp.ts" = .ok "1" := by decide +kernel
  have hfails : (observe "/r/x-temp.ts" none none d h).1 = .error (.load (.unreadable "/r/x.d.ts" .notFound)) := by
    decide +kernel
  have hr : h.Reachable := (unused_fresh ..).reachable
  have huntracked : h.store.get? (sourcePath "/r/x-temp.ts") = none := rfl
  have hnode : h.tools.resolver = nodeResolver := rfl
  clear_value d h
  obtain ⟨o, h', hrun, -, -⟩ := hall d h "/r/x-temp.ts" "1" hr (by rw [hnode, nodeResolver]) (by decide)
    (by decide +kernel) htext huntracked
  rw [hrun] at hfails
  cases hfails

end ScriptHost.Host
