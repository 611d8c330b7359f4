import ScriptHost.Analysis.Engine
import ScriptHost.Table

/-!
# The store of scripts

A store keeps, under the source path of every tracked script, its text and the number of that text.  The number grows by
one with every text that is committed; a path that is tracked anew starts at 1 again.
-/

namespace ScriptHost

open ScriptHost.Analysis (Version untracked)

/-- The last known state of a script. -/
structure Record where
  version : Version
  /-- What engines see; it differs from `rawContent` if the script was merged with its declarations. -/
  content : String
  /-- The text that was given or read. -/
  rawContent : String
  deriving DecidableEq, Repr

/-- The tracked scripts with their states. -/
abbrev Store := Table String Record

namespace Store

/-- Whether a text is news: nothing is known of the path, or another text. -/
def needsUpdate (s : Store) (path raw : String) : Bool := (s.get? path).all (·.rawContent != raw)

/-- The number of a script's text. -/
def version (s : Store) (path : String) : Version := ((s.get? path).map (·.version)).getD untracked

/-- The number that the next text of a script gets. -/
def nextVersion (s : Store) (path : String) : Version := ((s.get? path).map (·.version + 1)).getD 1

/-- Stores a text under its next number. -/
def commit (s : Store) (path raw content : String) : Store := s.insert path ⟨s.nextVersion path, content, raw⟩

/-- Puts a record, or none, in the place of a path. -/
def put (s : Store) (path : String) : Option Record → Store
  | some record => s.insert path record
  | none => s.erase path

/-- The paths of the tracked scripts, sorted. -/
def paths (s : Store) : List String := s.keys.mergeSort fun a b => !(b < a)

theorem get?_commit (s : Store) (path raw content other : String) :
    (s.commit path raw content).get? other =
      if other = path then some ⟨s.nextVersion path, content, raw⟩ else s.get? other := by
  simp [commit]

theorem get?_put (s : Store) (path : String) (record : Option Record) (other : String) :
    (s.put path record).get? other = if other = path then record else s.get? other := by
  cases record <;> simp [put]

theorem perm_paths (s : Store) : s.paths.Perm s.keys := List.mergeSort_perm ..

theorem mem_paths_iff {s : Store} {path : String} : path ∈ s.paths ↔ (s.get? path).isSome = true :=
  s.perm_paths.mem_iff.trans Table.mem_keys_iff

theorem nodup_paths (s : Store) : s.paths.Nodup := s.perm_paths.nodup_iff.2 s.keys_nodup

theorem pairwise_paths (s : Store) : s.paths.Pairwise (· ≤ ·) := by
  have hle : ∀ a b : String, (!decide (b < a)) = true ↔ a ≤ b := by
    intro a b
    rw [Bool.not_eq_true', decide_eq_false_iff_not, String.not_lt]
  have htrans : ∀ a b c : String, (!decide (b < a)) = true → (!decide (c < b)) = true → (!decide (c < a)) = true :=
    fun a b c hab hbc => (hle a c).2 (String.le_trans ((hle a b).1 hab) ((hle b c).1 hbc))
  have htotal : ∀ a b : String, (!decide (b < a) || !decide (a < b)) = true :=
    fun a b => Bool.or_eq_true_iff.2 ((String.le_total a b).imp (hle a b).2 (hle b a).2)
  exact (List.pairwise_mergeSort htrans htotal s.keys).imp (hle _ _).1

end Store

end ScriptHost
