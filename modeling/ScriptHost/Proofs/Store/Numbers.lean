import Mathlib.Data.List.Induction
import ScriptHost.Proofs.Host.Record

/-!
# The numbers in a store

A store changes when a text is committed, and when a record is put in place or removed.  The number of a path is then
that of the record put in place last, and one more for every text committed since; a path that has been removed, or has
never had a record, starts at 0.  It is a number of 64 bits, so what is committed is a step forward unless the number
is the greatest one, and a path that reports no number has none unless the number is the one that says so
(`numbering_after`).
-/

namespace ScriptHost

open ScriptHost.Analysis (Version untracked)
open ScriptHost.Host (toInt_add_one)

/-- A change of a store. -/
inductive Change where
  | commit (path raw content : String)
  | insert (path : String) (record : Record)
  | remove (path : String)
  deriving DecidableEq, Repr

namespace Change

/-- Makes a change. -/
def run (s : Store) : Change → Store
  | commit path raw content => s.commit path raw content
  | insert path record => s.insert path record
  | remove path => s.erase path

/-- What a change puts in the place of a path, if it puts anything there: a version or nothing. -/
def placement? (path : String) : Change → Option (Option Version)
  | commit _ _ _ => none
  | insert other record => if other = path then some (some record.version) else none
  | remove other => if other = path then some none else none

/-- Whether a change commits a text at a path. -/
def commitsAt (path : String) : Change → Bool
  | commit other _ _ => other == path
  | _ => false

end Change

namespace Store

/-- The store after changes. -/
def after (history : List Change) : Store := history.foldl Change.run .empty

/-- The version that was put in the place of a path last. -/
def placed? (path : String) (history : List Change) : Option Version :=
  (history.reverse.findSome? (Change.placement? path)).join

/-- How many texts have been committed at a path since. -/
def commitsSince (path : String) (history : List Change) : Nat :=
  (history.reverse.takeWhile fun c => (c.placement? path).isNone).countP (Change.commitsAt path)

/-- The number that a path has after changes. -/
def number? (path : String) (history : List Change) : Option Version :=
  if placed? path history = none ∧ commitsSince path history = 0 then none
  else some ((placed? path history).getD 0 + Int64.ofNat (commitsSince path history))

variable {path : String} {history : List Change} {c : Change}

/-! ### One change -/

private theorem number?_of_placement {v : Option Version} (hc : c.placement? path = some v) :
    number? path (history ++ [c]) = v := by
  have hplaced : placed? path (history ++ [c]) = v := by
    simp [placed?, hc]
  have hsince : commitsSince path (history ++ [c]) = 0 := by
    simp [commitsSince, hc]
  rw [number?, hplaced, hsince]
  cases v with
  | none => rfl
  | some v => exact congrArg some (Int64.add_zero v)

private theorem placed?_of_not_placement (hc : c.placement? path = none) :
    placed? path (history ++ [c]) = placed? path history := by
  simp [placed?, hc]

private theorem commitsSince_of_not_placement (hc : c.placement? path = none) :
    commitsSince path (history ++ [c]) = commitsSince path history + if c.commitsAt path then 1 else 0 := by
  simp [commitsSince, hc, List.countP_cons]

private theorem number?_of_other (hplaces : c.placement? path = none) (hcommits : c.commitsAt path = false) :
    number? path (history ++ [c]) = number? path history := by
  rw [number?, number?, placed?_of_not_placement hplaces, commitsSince_of_not_placement hplaces, hcommits]
  rfl

/-- A commit is the next number. -/
private theorem number?_commit (raw content : String) : number? path (history ++ [.commit path raw content]) =
    some (((number? path history).map (· + 1)).getD 1) := by
  have hplaced : placed? path (history ++ [.commit path raw content]) = placed? path history :=
    placed?_of_not_placement rfl
  have hsince : commitsSince path (history ++ [.commit path raw content]) = commitsSince path history + 1 := by
    rw [commitsSince_of_not_placement rfl, Change.commitsAt, beq_self_eq_true]
    rfl
  rw [number?, hplaced, hsince, if_neg (by omega), number?]
  split
  · next h =>
    rw [h.1, h.2]
    rfl
  · exact congrArg some (by rw [Int64.ofNat_add, ← Int64.add_assoc]; rfl)

/-! ### All changes -/

private theorem version_run {s : Store} (hs : (s.get? path).map (·.version) = number? path history) (c : Change) :
    ((c.run s).get? path).map (·.version) = number? path (history ++ [c]) := by
  cases c with
  | commit other raw content =>
    show ((s.commit other raw content).get? path).map _ = _
    rw [get?_commit]
    split
    · next hpath =>
      subst hpath
      rw [number?_commit, ← hs, Option.map_map]
      rfl
    · next hpath =>
      have hcommits : (Change.commit other raw content).commitsAt path = false := beq_false_of_ne (Ne.symm hpath)
      rw [hs, number?_of_other rfl hcommits]
  | insert other record =>
    show ((s.insert other record).get? path).map _ = _
    rw [Table.get?_insert]
    split
    · next hpath =>
      have hplaces : (Change.insert other record).placement? path = some (some record.version) := if_pos hpath.symm
      rw [number?_of_placement hplaces]
      rfl
    · next hpath =>
      have hplaces : (Change.insert other record).placement? path = none := if_neg (Ne.symm hpath)
      rw [hs, number?_of_other hplaces rfl]
  | remove other =>
    show ((s.erase other).get? path).map _ = _
    rw [Table.get?_erase]
    split
    · next hpath =>
      have hplaces : (Change.remove other).placement? path = some none := if_pos hpath.symm
      rw [number?_of_placement hplaces]
      rfl
    · next hpath =>
      have hplaces : (Change.remove other).placement? path = none := if_neg (Ne.symm hpath)
      rw [hs, number?_of_other hplaces rfl]

private theorem version_after (path : String) (history : List Change) :
    ((after history).get? path).map (·.version) = number? path history := by
  induction history using List.reverseRecOn with
  | nil => rfl
  | append_singleton history c ih =>
    unfold after
    rw [List.foldl_concat]
    exact version_run ih c

/-! ### What numbers say -/

/-- What the numbers at a path say, if `number` is that of its record. -/
structure Numbering (s : Store) (path : String) (number : Option Version) : Prop where
  version_eq : (s.get? path).map (·.version) = number
  /-- A commit is reported. -/
  version_commit : ∀ raw content, (s.commit path raw content).version path = s.nextVersion path
  toInt_nextVersion : number ≠ some Int64.maxValue →
    (s.nextVersion path).toInt = (number.map Int64.toInt).getD 0 + 1
  /-- A commit is a step forward, unless there is no number left. -/
  advances_iff : s.version path < s.nextVersion path ↔ number ≠ some Int64.maxValue
  /-- The version of a path without record is reported for no other path, unless a record has it. -/
  untracked_iff : (s.version path = untracked ↔ s.contains path = false) ↔ number ≠ some untracked

private theorem lt_add_one_iff {v : Version} : v < v + 1 ↔ v ≠ Int64.maxValue := by
  constructor
  · rintro hlt rfl
    exact absurd hlt (by decide)
  · intro hv
    rw [Int64.lt_iff_toInt_lt, toInt_add_one hv]
    omega

private theorem numbering_of_version {s : Store} {number : Option Version}
    (hs : (s.get? path).map (·.version) = number) : s.Numbering path number := by
  have hversion : s.version path = number.getD untracked := congrArg (Option.getD · untracked) hs
  have hnext : s.nextVersion path = (number.map (· + 1)).getD 1 := by
    rw [← hs, Option.map_map]
    rfl
  have hcontains : s.contains path = number.isSome := by
    rw [← hs, Option.isSome_map, Table.contains]
  have hcommit : ∀ raw content, (s.commit path raw content).version path = s.nextVersion path := by
    intro raw content
    rw [version, get?_commit, if_pos rfl]
    rfl
  cases number with
  | none =>
    refine ⟨hs, hcommit, fun _ => ?_, ?_, ?_⟩
    · rw [hnext]
      rfl
    · rw [hversion, hnext]
      decide
    · rw [hversion, hcontains]
      decide
  | some v =>
    refine ⟨hs, hcommit, fun hv => ?_, ?_, ?_⟩
    · rw [hnext]
      exact toInt_add_one fun h => hv (congrArg some h)
    · rw [hversion, hnext, ne_eq, Option.some.injEq]
      exact lt_add_one_iff
    · rw [hversion, hcontains, ne_eq, Option.some.injEq]
      simp

/-- The numbers in a store after any changes. -/
theorem numbering_after (history : List Change) (path : String) :
    (after history).Numbering path (number? path history) := numbering_of_version (version_after path history)

/-- A text that is committed on top of the version -2 gets the number of paths without record. -/
example : let s := after [.insert "/p.ts" ⟨-2, "", ""⟩, .commit "/p.ts" "a" "a"]
    s.contains "/p.ts" = true ∧ s.version "/p.ts" = untracked := by
  decide

end Store

end ScriptHost
