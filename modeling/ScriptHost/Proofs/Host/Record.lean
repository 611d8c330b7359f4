import Mathlib.Algebra.Group.Nat.Defs
import ScriptHost.Proofs.Host.Step

/-!
# Records along a run

What a step may do to the record of a key (`Step.record`), and what follows for a run from an unused host.  The number
of a text is at least 1, and it has grown at most once for every operation (`numbered_after`); it is a number of 64
bits, so this holds of all runs with less than `2 ^ 63 - 1` operations.  Every script is stored under a key with which
it may be known (`storedIn_after`).
-/

namespace ScriptHost.Host

open ScriptHost.Analysis ScriptHost.Path

variable {σ : Type} {K : String → Prop} {d : Disk}

theorem Step.record {h h' : Host σ} {k : Nat} (hs : Step K d h h' k) (key : String) :
    h'.store.get? key = h.store.get? key ∨ h'.store.get? key = none ∨
      ∃ content raw, h'.store.get? key = some ⟨h.store.nextVersion key, content, raw⟩ ∧ K key ∧
        (k = 1 ∨ h.store.get? key = none) := by
  cases hs with
  | identify path origin => exact .inl rfl
  | read path => exact .inl rfl
  | ask t path offset => exact .inl rfl
  | choose exclusions settings => exact .inl rfl
  | readPair compiled compiledRaw shim declarations =>
    show (returnedStore h.store compiled compiledRaw shim declarations).get? key = _ ∨
      (returnedStore h.store compiled compiledRaw shim declarations).get? key = _ ∨ _
    rw [get?_returnedStore]
    split
    · exact .inr (.inl rfl)
    · exact .inl rfl
  | drop path =>
    show (h.store.erase path).get? key = _ ∨ (h.store.erase path).get? key = _ ∨ _
    rw [Table.get?_erase]
    split
    · exact .inr (.inl rfl)
    · exact .inl rfl
  | track path raw content _ hk hnew =>
    by_cases hkey : key = path
    · subst hkey
      exact .inr (.inr ⟨content, raw, by simp [Store.get?_commit], hk, .inr hnew⟩)
    · exact .inl (by simp [Store.get?_commit, hkey])
  | commit path raw content _ hk =>
    by_cases hkey : key = path
    · subst hkey
      exact .inr (.inr ⟨content, raw, by simp [Store.get?_commit], hk, .inl rfl⟩)
    · exact .inl (by simp [Store.get?_commit, hkey])

/-! ### Numbers of texts -/

/-- The next version is greater by one, unless there is none of 64 bits. -/
theorem toInt_add_one {v : Version} (hv : v ≠ Int64.maxValue) : (v + 1).toInt = v.toInt + 1 := by
  have hmax : v.toInt ≠ 2 ^ 63 - 1 := fun heq => hv (Int64.toInt_inj.1 heq)
  have hlt := v.toInt_lt
  have hle := v.le_toInt
  rw [Int64.toInt_add]
  show (v.toInt + 1).bmod (2 ^ 64) = v.toInt + 1
  exact Int.bmod_eq_of_le (by omega) (by omega)

/-- The texts have the numbers from 1 to `n + 1`. -/
def Numbered (n : Nat) (s : Store) : Prop :=
  ∀ key r, s.get? key = some r → 1 ≤ r.version.toInt ∧ r.version.toInt ≤ n + 1

namespace Numbered

variable {m n : Nat} {s : Store} {key : String} {r : Record}

theorem mono (hmn : m ≤ n) (hs : Numbered m s) : Numbered n s := by
  intro key r hr
  have := hs key r hr
  omega

theorem version_ne_untracked (hs : Numbered n s) (hr : s.get? key = some r) : r.version ≠ untracked := by
  intro hv
  have h1 := (hs key r hr).1
  rw [hv] at h1
  exact absurd h1 (by decide)

/-- A tracked script has a version that is not negative. -/
theorem not_version_neg (hs : Numbered n s) (hr : s.get? key = some r) : ¬ s.version key < 0 := by
  have h1 := (hs key r hr).1
  rw [Store.version, hr, Option.map_some, Option.getD_some, Int64.lt_iff_toInt_lt]
  show ¬ r.version.toInt < 0
  omega

theorem version_neg_iff (hs : Numbered n s) : s.version key < 0 ↔ s.contains key = false := by
  cases hr : s.get? key with
  | none =>
    have hv : s.version key = untracked := by rw [Store.version, hr]; rfl
    rw [hv, Table.contains, hr]
    decide
  | some r =>
    constructor
    · intro hneg
      exact absurd hneg (hs.not_version_neg hr)
    · intro hc
      rw [Table.contains, hr] at hc
      cases hc

theorem toInt_nextVersion (hs : Numbered n s) (hr : s.get? key = some r) (hn : n + 2 < 2 ^ 63) :
    (s.nextVersion key).toInt = r.version.toInt + 1 := by
  have h1 := hs key r hr
  have hmax : Int64.maxValue.toInt = 2 ^ 63 - 1 := rfl
  rw [Store.nextVersion, hr, Option.map_some, Option.getD_some]
  refine toInt_add_one fun heq => ?_
  rw [heq] at h1
  omega

theorem of_step {h h' : Host σ} {k : Nat} (hs : Step K d h h' k) (hn : n + k + 1 < 2 ^ 63) (hh : Numbered n h.store) :
    Numbered (n + k) h'.store := by
  intro key r hr
  rcases hs.record key with hsame | hnone | ⟨content, raw, hnext, -, hk⟩
  · exact mono (by omega) hh key r (hsame ▸ hr)
  · rw [hnone] at hr
    cases hr
  · rw [hnext] at hr
    cases hr
    show 1 ≤ (h.store.nextVersion key).toInt ∧ (h.store.nextVersion key).toInt ≤ _
    cases hold : h.store.get? key with
    | none =>
      have : (h.store.nextVersion key).toInt = 1 := by
        rw [Store.nextVersion, hold]
        rfl
      omega
    | some old =>
      -- only a step that is counted replaces a text
      have hk1 : k = 1 := by
        rcases hk with hk | hk
        · exact hk
        · rw [hold] at hk
          cases hk
      have hv := hh key old hold
      have hnext := toInt_nextVersion hh hold (by omega)
      omega

end Numbered

theorem numbered_of_unused {h : Host σ} (hu : h.Unused) : Numbered 0 h.store := by
  intro key r hr
  rw [hu.store] at hr
  cases hr

/-- The numbers of texts grow at most once for every operation. -/
theorem numbered_after {h : Host σ} (hu : h.Unused) {run : List (Disk × Operation)} (hlen : run.length + 1 < 2 ^ 63) :
    Numbered run.length (h.after run).store := by
  have := after_keeps (I := fun n h => n + 1 < 2 ^ 63 → Numbered n h.store) admitsAll_true
    (fun step hh hn => .of_step step hn (hh (by omega))) (fun hmn hh hn => .mono hmn (hh (by omega)))
    (admitted_true run) (n := 0) hu.sound (fun _ => numbered_of_unused hu)
  rw [Nat.zero_add] at this
  exact this hlen

/-! ### Keys -/

/-- Every tracked script has a key with the property `K`. -/
def StoredIn (K : String → Prop) (s : Store) : Prop := ∀ key r, s.get? key = some r → K key

theorem StoredIn.of_step {h h' : Host σ} {k : Nat} (hs : Step K d h h' k) (hh : StoredIn K h.store) :
    StoredIn K h'.store := by
  intro key r hr
  rcases hs.record key with hsame | hnone | ⟨content, raw, -, hk, -⟩
  · exact hh key r (hsame ▸ hr)
  · rw [hnone] at hr
    cases hr
  · exact hk

theorem storedIn_after (hK : AdmitsAll K) {h : Host σ} (hu : h.Unused) {run : List (Disk × Operation)}
    (hrun : ∀ x ∈ run, x.2.Admitted K) : StoredIn K (h.after run).store := by
  refine after_keeps (I := fun _ h => StoredIn K h.store) hK .of_step (fun _ => id) hrun (n := 0) hu.sound ?_
  intro key r hr
  rw [hu.store] at hr
  cases hr

end ScriptHost.Host
