/-!
# Tables

Finite maps from keys to values.  A table holds every key at most once.  `get?_insert`, `get?_filter` and `get?_erase`
say what the operations do to the value of each key, and they change nothing else.
-/

namespace ScriptHost

/-- A finite map from keys to values. -/
structure Table (κ α : Type) where
  /-- The keys with their values, latest first. -/
  entries : List (κ × α)
  keys_nodup : (entries.map Prod.fst).Nodup
  deriving DecidableEq

namespace Table

private theorem keys_nodup_filter {κ α : Type} {l : List (κ × α)} (p : κ × α → Bool) (h : (l.map Prod.fst).Nodup) :
    ((l.filter p).map Prod.fst).Nodup :=
  (List.Sublist.map Prod.fst List.filter_sublist).nodup h

/-- The table without entries. -/
def empty {κ α : Type} : Table κ α := ⟨[], List.nodup_nil⟩

instance {κ α : Type} : Inhabited (Table κ α) := ⟨empty⟩

/-- The keys that have a value. -/
def keys {κ α : Type} (t : Table κ α) : List κ := t.entries.map Prod.fst

/-- The number of keys that have a value. -/
def size {κ α : Type} (t : Table κ α) : Nat := t.entries.length

/-- The table without the keys that do not satisfy `p`. -/
def filter {κ α : Type} (t : Table κ α) (p : κ → Bool) : Table κ α :=
  ⟨t.entries.filter (p ·.1), keys_nodup_filter _ t.keys_nodup⟩

variable {κ α : Type} [DecidableEq κ]

/-- The value of a key. -/
def get? (t : Table κ α) (k : κ) : Option α := t.entries.lookup k

/-- Whether a key has a value. -/
def contains (t : Table κ α) (k : κ) : Bool := (t.get? k).isSome

/-- The table without the value of `k`. -/
def erase (t : Table κ α) (k : κ) : Table κ α := t.filter (· != k)

/-- The table in which `k` has the value `v`. -/
def insert (t : Table κ α) (k : κ) (v : α) : Table κ α where
  entries := (k, v) :: (t.erase k).entries
  keys_nodup := by
    refine List.nodup_cons.2 ⟨?_, (t.erase k).keys_nodup⟩
    simp [erase, filter]

private theorem lookup_cons_of_ne (l : List (κ × α)) (v : α) {j a : κ} (h : j ≠ a) :
    ((a, v) :: l).lookup j = l.lookup j := by
  simp [List.lookup_cons, beq_false_of_ne h]

private theorem lookup_filter (l : List (κ × α)) (p : κ → Bool) (j : κ) :
    (l.filter (p ·.1)).lookup j = if p j then l.lookup j else none := by
  induction l with
  | nil => simp
  | cons e l ih =>
    obtain ⟨a, v⟩ := e
    by_cases hj : j = a
    · subst hj
      cases hp : p j <;> simp [hp, ih]
    · cases ha : p a <;> simp [ha, lookup_cons_of_ne _ v hj, ih]

@[simp] theorem get?_empty (j : κ) : (empty : Table κ α).get? j = none := rfl

@[simp] theorem get?_filter (t : Table κ α) (p : κ → Bool) (j : κ) :
    (t.filter p).get? j = if p j then t.get? j else none := lookup_filter ..

@[simp] theorem get?_erase (t : Table κ α) (k j : κ) :
    (t.erase k).get? j = if j = k then none else t.get? j := by
  by_cases h : j = k <;> simp [erase, h]

@[simp] theorem get?_insert (t : Table κ α) (k j : κ) (v : α) :
    (t.insert k v).get? j = if j = k then some v else t.get? j := by
  by_cases h : j = k
  · subst h; simp [get?, insert]
  · rw [if_neg h]
    exact (lookup_cons_of_ne _ v h).trans ((t.get?_erase k j).trans (if_neg h))

theorem mem_entries_of_get? {t : Table κ α} {k : κ} {v : α} (h : t.get? k = some v) : (k, v) ∈ t.entries := by
  unfold get? at h
  obtain ⟨before, after, hsplit, -⟩ := List.lookup_eq_some_iff.1 h
  rw [hsplit]
  exact List.mem_append_right _ List.mem_cons_self

theorem mem_keys_iff {t : Table κ α} {k : κ} : k ∈ t.keys ↔ (t.get? k).isSome = true := by
  unfold keys get?
  rw [List.lookup_isSome_iff, List.mem_map]
  constructor
  · rintro ⟨e, he, rfl⟩
    exact ⟨e, he, beq_self_eq_true _⟩
  · rintro ⟨e, he, hk⟩
    exact ⟨e, he, (eq_of_beq hk).symm⟩

theorem erase_of_not_found {t : Table κ α} {k : κ} (hk : t.get? k = none) : t.erase k = t := by
  refine (Table.mk.injEq ..).mpr (List.filter_eq_self.2 fun e he => bne_iff_ne.2 ?_)
  rintro rfl
  have hmem : e.1 ∈ t.keys := List.mem_map_of_mem he
  rw [mem_keys_iff, hk] at hmem
  cases hmem

/-- A key that has no value yet comes first. -/
theorem keys_insert_of_not_found {t : Table κ α} {k : κ} (hk : t.get? k = none) (v : α) :
    (t.insert k v).keys = k :: t.keys := by
  show k :: (t.erase k).keys = k :: t.keys
  rw [erase_of_not_found hk]

end Table

end ScriptHost
