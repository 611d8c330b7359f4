import ScriptHost.Proofs.Host.Effect
import ScriptHost.Proofs.Host.Record

/-!
# What versions say

As long as a script is tracked, its version says which text it has: the version never decreases, and neither of the
texts of a record changes without it (`Record.Later`, `versioned_after`).  A script that is tracked anew starts at 1
again, so versions of different lifetimes say nothing about each other.

This is said of operations whose script, if it is to be merged, is known by another path than its declarations
(`Operation.Apart`).  Everything that a host identifies is, but a script that is observed by someone else need not be,
and then a record may be lost (`not_versioned_of_every_operation`).
-/

namespace ScriptHost

open ScriptHost.Analysis

/-- A record may come after another one: its version is not less, and if it is the same, so are the texts. -/
structure Record.Later (r r' : Record) : Prop where
  le : r.version ≤ r'.version
  same : r'.version = r.version → r' = r

private theorem Record.Later.refl (r : Record) : r.Later r := ⟨Int64.le_refl _, fun _ => rfl⟩

private theorem Record.Later.trans {r₁ r₂ r₃ : Record} (hl : r₁.Later r₂) (hl' : r₂.Later r₃) : r₁.Later r₃ := by
  refine ⟨Int64.le_trans hl.le hl'.le, fun hv => ?_⟩
  -- the version in between lies between two equal ones
  have hmiddle : r₂.version = r₁.version := Int64.le_antisymm (hv ▸ hl'.le) hl.le
  rw [hl'.same (hv.trans hmiddle.symm), hl.same hmiddle]

namespace Host

variable {σ : Type}

private theorem Progress.later {s : Store} {n : Nat} (hs : Numbered n s) (hn : n + 2 < 2 ^ 63) {key : String}
    {r r' : Record} (hr : s.get? key = some r) (hp : Progress (some r) (some r')) : r.Later r' := by
  cases hp with
  | kept => exact .refl r
  | next _ content raw =>
    have hnext := hs.toInt_nextVersion hr hn
    rw [Store.nextVersion, hr, Option.map_some, Option.getD_some] at hnext
    refine ⟨Int64.le_iff_toInt_le.2 ?_, fun hv => ?_⟩
    · show r.version.toInt ≤ (r.version + 1).toInt
      omega
    · have : (r.version + 1).toInt = r.version.toInt := congrArg Int64.toInt hv
      omega

/-- The numbers of texts grow at most once in an operation. -/
private theorem Numbered.next {n : Nat} {h : Host σ} (hs : Numbered n h.store) (hm : h.memo.Sound) (hn : n + 2 < 2 ^ 63)
    (d : Disk) (op : Operation) : Numbered (n + 1) (op.next d h).store := by
  obtain ⟨k, hk, hsteps⟩ := Operation.steps admitsAll_true (admitted_true [(d, op)] _ (List.mem_singleton_self _)) d hm
  have := hsteps.keeps (I := fun n h => n + 1 < 2 ^ 63 → Numbered n h.store)
    (fun step hh hn => .of_step step hn (hh (by omega))) (fun _ => hs)
  exact (this (by omega)).mono (by omega)

/-- As long as a script is tracked, later records of it are later ones. -/
private theorem later_of_tracked {n : Nat} {h : Host σ} (hs : Numbered n h.store) (hm : h.memo.Sound)
    {later : List (Disk × Operation)} (hlater : ∀ x ∈ later, x.2.Apart x.1) (hn : n + later.length + 1 < 2 ^ 63)
    {key : String} {r r' : Record} (hr : h.store.get? key = some r)
    (htracked : ∀ k ≤ later.length, (h.after (later.take k)).store.contains key = true)
    (hr' : (h.after later).store.get? key = some r') : r.Later r' := by
  induction later generalizing n h r with
  | nil =>
    obtain rfl : r = r' := Option.some.inj (hr.symm.trans hr')
    exact .refl r
  | cons x later ih =>
    obtain ⟨d, op⟩ := x
    obtain ⟨hop, hrest⟩ := List.forall_mem_cons.1 hlater
    rw [List.length_cons] at hn htracked
    obtain ⟨r₁, hr₁⟩ := Option.isSome_iff_exists.1 (htracked 1 (by omega))
    change (op.next d h).store.get? key = some r₁ at hr₁
    have hfirst : r.Later r₁ := by
      rcases (Operation.effect hop hm).change key with hp | ⟨-, hnone⟩
      · rw [hr, hr₁] at hp
        exact hp.later hs (by omega) hr
      · rw [hr₁] at hnone
        cases hnone
    have hsound : (op.next d h).memo.Sound := sound_after hm [(d, op)]
    exact hfirst.trans (ih (hs.next hm (by omega) d op) hsound hrest (by omega) hr₁
      (fun k hk => htracked (k + 1) (by omega)) hr')

/-- What versions say of the scripts of a host in which at most `n` times a text has replaced another one. -/
structure Versioned (n : Nat) (h : Host σ) : Prop where
  positive : ∀ {key r}, h.store.get? key = some r → 1 ≤ r.version
  reported : ∀ name d, (fileVersion name d h).1 = .ok (h.store.version (knownKey name d h))
  untracked_iff : ∀ key, h.store.version key = Analysis.untracked ↔ h.store.get? key = none
  /-- An operation leaves a record as it is, stores the first or the next text, or is a removal. -/
  change : ∀ {op : Operation} {d}, op.Apart d → ∀ key,
    Progress (h.store.get? key) ((op.next d h).store.get? key) ∨
      op.Forgets key d h ∧ (op.next d h).store.get? key = none
  /-- As long as a script is tracked, whatever is done, its version does not decrease and identifies both its texts. -/
  lifetime : ∀ {later : List (Disk × Operation)}, (∀ x ∈ later, x.2.Apart x.1) → n + later.length + 1 < 2 ^ 63 →
    ∀ {key r r'}, h.store.get? key = some r →
      (∀ k ≤ later.length, (h.after (later.take k)).store.contains key = true) →
      (h.after later).store.get? key = some r' → r.Later r'

/-- Versions identify texts as long as a script is tracked, after every run and whatever has happened on the disk in
between.  They are numbers of 64 bits, so this is said of runs that are too short for a version to start again. -/
theorem versioned_after {h₀ : Host σ} (hu : h₀.Unused) {run : List (Disk × Operation)}
    (hlen : run.length + 1 < 2 ^ 63) : (h₀.after run).Versioned run.length := by
  have hs : Numbered run.length (h₀.after run).store := numbered_after hu hlen
  have hm : (h₀.after run).memo.Sound := sound_after hu.sound run
  refine ⟨fun hr => ?_, fun name d => ?_, fun key => ?_, fun hop => ?_, later_of_tracked hs hm⟩
  · exact Int64.le_iff_toInt_le.2 (hs _ _ hr).1
  · obtain ⟨h₁, hv, -⟩ := fileVersion_run name d (h₀.after run)
    rw [hv]
  · cases hr : (h₀.after run).store.get? key with
    | none => simp [Store.version, hr]
    | some r => simpa [Store.version, hr] using hs.version_ne_untracked hr
  · exact (Operation.effect hop hm).change

/-- A script that nobody has identified may be known by the path of the shim of its own declarations.  Then the record
under this path is lost in the merge, and what is stored has number 1 again, although nothing was removed. -/
theorem not_versioned_of_every_operation : ¬ ∀ (h : Host SyntaxEngine), h.Reachable → ∀ (op : Operation) d key,
    Progress (h.store.get? key) ((op.next d h).store.get? key) ∨
      op.Forgets key d h ∧ (op.next d h).store.get? key = none := by
  intro hall
  let d := (Disk.empty.write "/r/x.js" (.text "1")).write "/r/x.d.ts" (.text "interface A \x7b\x7d")
  let start := fresh ⟨Resolution.nodeResolver, Merge.typePrelude, SyntaxEngine.engine⟩ SyntaxEngine.fresh "/r"
  let run : List (Disk × Operation) :=
    [(d, .addFile { path := "/r/x-temp.ts", content := some "interface B \x7b\x7d" }),
      (d, .addFile { path := "/r/x-temp.ts", content := some "interface C \x7b\x7d" })]
  let op : Operation := .addObserved ⟨⟨"/r/x.js", "/r/x-temp.ts", false⟩, "1", true⟩ false
  have hbefore : ((start.after run).store.get? "/r/x-temp.ts").map (·.version) = some 2 := by decide +kernel
  have hafter : ((op.next d (start.after run)).store.get? "/r/x-temp.ts").map (·.version) = some 1 := by decide +kernel
  obtain ⟨r, hr, hold⟩ := Option.map_eq_some_iff.1 hbefore
  obtain ⟨r', hr', hnew⟩ := Option.map_eq_some_iff.1 hafter
  rcases hall (start.after run) ⟨start, run, unused_fresh .., rfl⟩ op d "/r/x-temp.ts" with hprogress | ⟨hforgets, -⟩
  · rw [hr, hr'] at hprogress
    -- a record stays or has the number after 2
    cases hprogress with
    | kept => exact absurd (hold.symm.trans hnew) (by decide)
    | next =>
      have hnext : r.version + 1 = 1 := hnew
      rw [hold] at hnext
      exact absurd hnext (by decide)
  · exact hforgets

/-- A text is replaced by another one under the next number. -/
theorem versioned_after_replacement : ∃ h : Host SyntaxEngine, h.Versioned 1 ∧
    h.store.get? "/r/a.ts" = some ⟨1, "1", "1"⟩ ∧
    (fileVersion "/r/b.ts" .empty h).1 = .ok Analysis.untracked ∧
    Record.Later ⟨1, "1", "1"⟩ ⟨2, "2", "2"⟩ := by
  let d := Disk.empty.write "/r/a.ts" (.text "1")
  let start := fresh ⟨Resolution.nodeResolver, Merge.typePrelude, SyntaxEngine.engine⟩ SyntaxEngine.fresh "/r"
  let run : List (Disk × Operation) := [(d, .addFile { path := "/r/a.ts" })]
  let later : List (Disk × Operation) := [(d, .addFile { path := "/r/a.ts", content := some "2" })]
  have hlen : run.length + 1 < 2 ^ 63 := by decide
  have hv : (start.after run).Versioned 1 := versioned_after (unused_fresh ..) hlen
  have hapart : ∀ x ∈ later, x.2.Apart x.1 := by simp [later, Operation.Apart]
  have hr : (start.after run).store.get? "/r/a.ts" = some ⟨1, "1", "1"⟩ := by decide +kernel
  exact ⟨start.after run, hv, hr, by decide +kernel,
    hv.lifetime hapart (by decide) hr (by decide +kernel) (by decide +kernel)⟩

end Host

end ScriptHost
