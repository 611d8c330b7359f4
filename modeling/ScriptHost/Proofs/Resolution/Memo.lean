import ScriptHost.Proofs.Path.Ending
import ScriptHost.Resolution.Memo

/-!
# What a memo remembers

A memo is sound if it holds nothing but identities that can be found (`Memo.Sound`).  A request that has been answered
is remembered, nothing that is remembered is ever forgotten, and what a memo learns is what the resolver says
(`Memo.Learned`, `Memo.learned_resolve`).
-/

namespace ScriptHost.Resolution.Memo

open ScriptHost.Path

/-- A memo holds well-formed identities, and a shim path stands for itself. -/
structure Sound (m : Memo) : Prop where
  wellFormed : ∀ {request i}, m.found.get? request = some i → i.WellFormed
  shim : ∀ {request i}, m.found.get? request = some i → isShim request.1 = true → i = .shim request.1

theorem sound_empty : empty.Sound := by
  constructor <;> intro request i h <;> simp [empty] at h

/-- What is found without a memo is well formed. -/
theorem identify_wellFormed {r : Resolver} {d : Disk} {name origin : String} {i : Identity}
    (h : (identify r d name origin).1 = .ok i) : i.WellFormed := by
  unfold identify at h
  split at h
  · rename_i hs
    cases h
    exact .shim hs
  · cases hr : r.resolve d name origin with
    | error e => rw [hr] at h; cases h
    | ok path =>
      rw [hr] at h
      cases h
      exact .ofResolved path

theorem identify_of_isShim {r : Resolver} {d : Disk} {name origin : String} (h : isShim name = true) :
    (identify r d name origin).1 = .ok (.shim name) := by
  simp [identify, h]

/-- The answer to a request: what is remembered, else what is found. -/
theorem resolve_answer (r : Resolver) (d : Disk) (name origin : String) (m : Memo) :
    (m.resolve r d name origin).1 =
      ((m.found.get? (key name origin)).map .ok).getD (identify r d name origin).1 := by
  unfold resolve
  cases m.found.get? (key name origin) with
  | some i => rfl
  | none => rcases identify r d name origin with ⟨e | i, n⟩ <;> rfl

theorem resolve_of_found {r : Resolver} {d : Disk} {name origin : String} {m : Memo} {i : Identity}
    (h : m.found.get? (key name origin) = some i) : m.resolve r d name origin = (.ok i, m) := by
  unfold resolve
  rw [h]

theorem get?_resolve (r : Resolver) (d : Disk) (name origin : String) (m : Memo) (request : Request) :
    (m.resolve r d name origin).2.found.get? request =
      if request = key name origin then (m.resolve r d name origin).1.toOption else m.found.get? request := by
  unfold resolve
  cases hf : m.found.get? (key name origin) with
  | some i =>
    by_cases hr : request = key name origin
    · simp [hr, hf, Except.toOption]
    · simp [hr]
  | none =>
    rcases identify r d name origin with ⟨e | i, n⟩
    · by_cases hr : request = key name origin
      · simp [hr, hf, Except.toOption]
      · simp [hr]
    · by_cases hr : request = key name origin
      · simp [hr, Except.toOption]
      · simp [hr]

/-- The answer to a request stays the same after another one from the same origin. -/
theorem resolve_answer_after (r : Resolver) (d : Disk) (name other origin : String) (m : Memo) :
    ((m.resolve r d other origin).2.resolve r d name origin).1 = (m.resolve r d name origin).1 := by
  rw [resolve_answer, get?_resolve, resolve_answer r d name]
  by_cases hkey : key name origin = key other origin
  · obtain rfl : name = other := congrArg Prod.fst hkey
    rw [if_pos rfl, resolve_answer]
    cases m.found.get? (key name origin) with
    | some i => rfl
    | none => cases (identify r d name origin).1 <;> simp [Except.toOption]
  · rw [if_neg hkey]

/-! ### Learning -/

/-- A memo has become another by requests to a resolver on a disk. -/
structure Learned (r : Resolver) (d : Disk) (m m' : Memo) : Prop where
  kept : ∀ {request i}, m.found.get? request = some i → m'.found.get? request = some i
  new : ∀ {request i}, m'.found.get? request = some i → m.found.get? request = some i ∨
    ∃ name origin, request = key name origin ∧ (identify r d name origin).1 = .ok i

namespace Learned

variable {r : Resolver} {d : Disk} {m m₁ m₂ : Memo}

theorem refl (r : Resolver) (d : Disk) (m : Memo) : Learned r d m m := ⟨id, .inl⟩

theorem trans (h₁ : Learned r d m m₁) (h₂ : Learned r d m₁ m₂) : Learned r d m m₂ := by
  refine ⟨fun h => h₂.kept (h₁.kept h), fun h => ?_⟩
  rcases h₂.new h with h | h
  · exact h₁.new h
  · exact .inr h

theorem sound (h : Learned r d m m₁) (hm : m.Sound) : m₁.Sound := by
  constructor
  · intro request i hi
    rcases h.new hi with hi | ⟨name, origin, -, hi⟩
    · exact hm.wellFormed hi
    · exact identify_wellFormed hi
  · intro request i hi hs
    rcases h.new hi with hi | ⟨name, origin, rfl, hf⟩
    · exact hm.shim hi hs
    · have hshim : (identify r d name origin).1 = .ok (.shim name) := identify_of_isShim hs
      rw [hshim] at hf
      cases hf
      rfl

end Learned

theorem learned_resolve (r : Resolver) (d : Disk) (name origin : String) (m : Memo) :
    Learned r d m (m.resolve r d name origin).2 := by
  constructor
  · intro request i h
    rw [get?_resolve]
    split
    · rename_i hr
      rw [resolve_of_found (hr ▸ h)]
      rfl
    · exact h
  · intro request i h
    rw [get?_resolve] at h
    split at h
    · rename_i hr
      subst hr
      rw [resolve_answer] at h
      cases hf : m.found.get? (key name origin) with
      | some j =>
        rw [hf] at h
        exact .inl h
      | none =>
        rw [hf] at h
        refine .inr ⟨name, origin, rfl, ?_⟩
        cases hi : (identify r d name origin).1 with
        | error e =>
          simp only [hi] at h
          cases h
        | ok j =>
          simp only [hi] at h
          cases h
          rfl
    · exact .inl h

end ScriptHost.Resolution.Memo
