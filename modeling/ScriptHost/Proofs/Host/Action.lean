import ScriptHost.Host.Basic

/-!
# Reasoning about actions

What the basic actions do to a host (`host_run`, `ask_run`, `changeStore_run`, …), and what a successful sequence of
two actions has done (`bind_eq_ok`).  `Keeps I x` says that the action `x` takes every host with the property `I` to
such a host, whether it fails or not; it holds of a sequence if it holds of its parts (`Keeps.bind`).
-/

namespace ScriptHost.Action

variable {σ α β : Type}

/-! ### What the basic actions do -/

theorem ask_run (query : Analysis.Engine σ → Analysis.ScriptView → σ → α × σ) (d : Disk) (h : Host σ) :
    ask query d h =
      (.ok (query h.tools.engine (Host.viewOf h.store) h.engineState).1,
        { h with engineState := (query h.tools.engine (Host.viewOf h.store) h.engineState).2 }) := rfl

@[simp] theorem attempt_run (x : Action σ α) (d : Disk) (h : Host σ) :
    attempt x d h = (.ok (x d h).1, (x d h).2) := rfl

theorem run_of_answer {x : α × β} {a : α} (h : x.1 = a) : x = (a, x.2) := by
  rw [← h]

theorem bind_host_run (f : Host σ → Action σ β) (d : Disk) (h : Host σ) : (host >>= f) d h = f h d h := rfl

theorem bind_disk_run (f : Disk → Action σ β) (d : Disk) (h : Host σ) : (disk >>= f) d h = f d d h := rfl

theorem bind_run_of_ok {x : Action σ α} {f : α → Action σ β} {d : Disk} {h h₁ : Host σ} {a : α}
    (hx : x d h = (.ok a, h₁)) : (x >>= f) d h = f a d h₁ := by
  rw [bind_run, hx]

theorem bind_run_of_error {x : Action σ α} {f : α → Action σ β} {d : Disk} {h h₁ : Host σ} {e : HostError}
    (hx : x d h = (.error e, h₁)) : (x >>= f) d h = (.error e, h₁) := by
  rw [bind_run, hx]

/-- What follows an attempt is told what has come of it. -/
theorem bind_attempt_run {x : Action σ α} {f : Except HostError α → Action σ β} {d : Disk} {h h₁ : Host σ}
    {answer : Except HostError α} (hx : x d h = (answer, h₁)) : (x.attempt >>= f) d h = f answer d h₁ := by
  rw [bind_run, attempt_run, hx]

theorem bind_eq_ok {x : Action σ α} {f : α → Action σ β} {d : Disk} {h h' : Host σ} {b : β} :
    (x >>= f) d h = (.ok b, h') ↔ ∃ a h₁, x d h = (.ok a, h₁) ∧ f a d h₁ = (.ok b, h') := by
  rw [bind_run]
  constructor
  · rcases hx : x d h with ⟨e | a, h₁⟩
    · simp
    · exact fun hf => ⟨a, h₁, rfl, hf⟩
  · rintro ⟨a, h₁, hx, hf⟩
    rw [hx]
    exact hf

/-! ### What actions keep -/

/-- On a disk, the action takes hosts with the property `I` to such hosts. -/
def Keeps (d : Disk) (I : Host σ → Prop) (x : Action σ α) : Prop := ∀ h, I h → I (x d h).2

namespace Keeps

variable {d : Disk} {I : Host σ → Prop}

theorem pure (a : α) : Keeps d I (Pure.pure a : Action σ α) := fun _ h => h

theorem fail (e : HostError) : Keeps d I (Action.fail e : Action σ α) := fun _ h => h

theorem lift {ε : Type} (cause : ε → HostError) (r : Except ε α) : Keeps d I (Action.lift cause r : Action σ α) := by
  intro h hI
  cases r <;> exact hI

theorem attempt {x : Action σ α} (hx : Keeps d I x) : Keeps d I x.attempt := fun h hI => hx h hI

/-- A sequence keeps what its parts keep; the second part may rely on the answer of the first. -/
theorem bind_of_ok {x : Action σ α} {f : α → Action σ β} (hx : Keeps d I x)
    (hf : ∀ h a h₁, I h → x d h = (.ok a, h₁) → I h₁ → I (f a d h₁).2) : Keeps d I (x >>= f) := by
  intro h hI
  have hI₁ := hx h hI
  rcases hxd : x d h with ⟨e | a, h₁⟩
  · rw [bind_run_of_error hxd]
    rwa [hxd] at hI₁
  · rw [bind_run_of_ok hxd]
    rw [hxd] at hI₁
    exact hf h a h₁ hI hxd hI₁

theorem bind {x : Action σ α} {f : α → Action σ β} (hx : Keeps d I x) (hf : ∀ a, Keeps d I (f a)) :
    Keeps d I (x >>= f) :=
  bind_of_ok hx fun _ a h₁ _ _ hI₁ => hf a h₁ hI₁

/-- What follows a look at the host may rely on the host. -/
theorem bind_host {f : Host σ → Action σ β} (hf : ∀ h, I h → I (f h d h).2) : Keeps d I (Action.host >>= f) := hf

theorem bind_disk {f : Disk → Action σ β} (hf : Keeps d I (f d)) : Keeps d I (Action.disk >>= f) := hf

end Keeps

end ScriptHost.Action
