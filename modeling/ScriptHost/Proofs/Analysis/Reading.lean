import Mathlib.Data.List.Basic
import ScriptHost.Analysis.SyntaxEngine

/-!
# Scripts that the syntax engine remembers

The syntax engine answers from the scripts that it has read.  `ScriptView.script?` is the script that it would read
under a name now.  An engine is consistent with a view if it remembers no script in its present version that it would
read otherwise now (`Consistent`); then every question has the same answer as if nothing were remembered (`Settled`).
All that questions add to the memory is what they have read (`Refreshed`).
-/

namespace ScriptHost.Analysis

/-- The script with a name as it is read from what a view shows. -/
def ScriptView.script? (view : ScriptView) (fileName : String) : Option ParsedScript :=
  if view.version fileName = untracked then none
  else (view.snapshot fileName).map (ParsedScript.read fileName (view.version fileName))

namespace SyntaxEngine

/-- What is remembered in its present version is what would be read now. -/
def Consistent (view : ScriptView) (e : SyntaxEngine) : Prop :=
  ∀ fileName script, e.scripts.get? fileName = some script → view.version fileName ≠ untracked →
    script.unit.version = view.version fileName → view.script? fileName = some script

/-- What is remembered later was remembered before or has been read from the view. -/
def Refreshed (view : ScriptView) (e e' : SyntaxEngine) : Prop :=
  ∀ fileName script, e'.scripts.get? fileName = some script →
    e.scripts.get? fileName = some script ∨ view.script? fileName = some script

theorem consistent_fresh (view : ScriptView) : Consistent view fresh := by
  intro fileName script h
  simp [fresh] at h

namespace Refreshed

variable {view : ScriptView} {e e₁ e₂ : SyntaxEngine}

private theorem refl (view : ScriptView) (e : SyntaxEngine) : Refreshed view e e := fun _ _ h => .inl h

private theorem trans (h₁ : Refreshed view e e₁) (h₂ : Refreshed view e₁ e₂) : Refreshed view e e₂ := by
  intro fileName script h
  rcases h₂ fileName script h with h | h
  · exact h₁ fileName script h
  · exact .inr h

private theorem consistent (hr : Refreshed view e e₁) (hc : Consistent view e) : Consistent view e₁ := by
  intro fileName script h htracked hversion
  rcases hr fileName script h with h | h
  · exact hc fileName script h htracked hversion
  · exact h

end Refreshed

/-! ### Reading a script -/

@[simp] theorem sourceFile_run (view : ScriptView) (fileName : String) (e : SyntaxEngine) :
    engine.sourceFile view fileName e = ((ensure view fileName e).1.map (·.unit), (ensure view fileName e).2) := rfl

@[simp] theorem scripts_release (fileName : String) (e : SyntaxEngine) :
    (engine.release fileName e).scripts = e.scripts.erase fileName := rfl

private theorem load_spec {view : ScriptView} {fileName : String} (htracked : view.version fileName ≠ untracked)
    (e : SyntaxEngine) :
    (ensure.load view fileName (view.version fileName) e).1 = view.script? fileName ∧
      Refreshed view e (ensure.load view fileName (view.version fileName) e).2 := by
  unfold ensure.load ScriptView.script?
  rw [if_neg htracked]
  cases hs : view.snapshot fileName with
  | none => exact ⟨rfl, fun _ _ h => .inl h⟩
  | some source =>
    refine ⟨rfl, fun name script h => ?_⟩
    simp only [Table.get?_insert] at h
    split at h
    · rename_i hname
      subst hname
      right
      rw [ScriptView.script?, if_neg htracked, hs]
      exact h
    · exact .inl h

private theorem refreshed_ensure (view : ScriptView) (fileName : String) (e : SyntaxEngine) :
    Refreshed view e (ensure view fileName e).2 := by
  unfold ensure
  by_cases hu : view.version fileName = untracked
  · simp only [hu, if_true]
    intro name script h
    rw [Table.get?_erase] at h
    split at h
    · cases h
    · exact .inl h
  · simp only [if_neg hu]
    split
    · split
      · exact .refl view e
      · exact (load_spec hu e).2
    · exact (load_spec hu e).2

/-- A consistent engine gives the script that it would read now. -/
theorem ensure_answer {view : ScriptView} {e : SyntaxEngine} (hc : Consistent view e) (fileName : String) :
    (ensure view fileName e).1 = view.script? fileName := by
  unfold ensure
  by_cases hu : view.version fileName = untracked
  · simp only [hu, if_true, ScriptView.script?]
  · simp only [if_neg hu]
    split
    · rename_i script hs
      split
      · rename_i hv
        exact (hc fileName script hs hu hv).symm
      · exact (load_spec hu e).1
    · exact (load_spec hu e).1

theorem ensure_of_forgotten {view : ScriptView} {fileName : String} {e : SyntaxEngine}
    (hf : e.scripts.get? fileName = none) : (ensure view fileName e).1 = view.script? fileName := by
  unfold ensure
  by_cases hu : view.version fileName = untracked
  · simp only [hu, if_true, ScriptView.script?]
  · simp only [if_neg hu, hf]
    exact (load_spec hu e).1

/-- A script that has been read is remembered, and is not read again. -/
theorem ensure_again {view : ScriptView} {fileName : String} {e e₁ : SyntaxEngine} {script : ParsedScript}
    (hs : ensure view fileName e = (some script, e₁)) :
    e₁.scripts.get? fileName = some script ∧ ensure view fileName e₁ = (some script, e₁) := by
  by_cases hu : view.version fileName = untracked
  · rw [ensure, if_pos hu] at hs
    cases hs
  · -- what is remembered in its current version is given as it is
    have hremembered : ∀ {e' : SyntaxEngine}, e'.scripts.get? fileName = some script →
        script.unit.version = view.version fileName → ensure view fileName e' = (some script, e') := by
      intro e' hf hv
      simp only [ensure, if_neg hu, hf, if_pos hv]
    have hload : ensure.load view fileName (view.version fileName) e = (some script, e₁) →
        e₁.scripts.get? fileName = some script ∧ ensure view fileName e₁ = (some script, e₁) := by
      intro hl
      unfold ensure.load at hl
      cases ht : view.snapshot fileName with
      | none => simp [ht] at hl
      | some source =>
        rw [ht] at hl
        cases hl
        have hf := Table.get?_insert e.scripts fileName fileName
          (ParsedScript.read fileName (view.version fileName) source)
        rw [if_pos rfl] at hf
        exact ⟨hf, hremembered hf rfl⟩
    simp only [ensure, if_neg hu] at hs
    split at hs
    · rename_i cached hf
      split at hs
      · rename_i hv
        cases hs
        exact ⟨hf, hremembered hf hv⟩
      · exact hload hs
    · exact hload hs

theorem get?_ensure_of_ne (view : ScriptView) {fileName other : String} (hne : other ≠ fileName) (e : SyntaxEngine) :
    (ensure view fileName e).2.scripts.get? other = e.scripts.get? other := by
  have hload : ∀ version, (ensure.load view fileName version e).2.scripts.get? other = e.scripts.get? other := by
    intro version
    unfold ensure.load
    cases view.snapshot fileName with
    | none => rfl
    | some source => simp [hne]
  unfold ensure
  by_cases hu : view.version fileName = untracked
  · simp [hu, hne]
  · simp only [if_neg hu]
    split
    · split
      · rfl
      · exact hload _
    · exact hload _

/-! ### Questions -/

/-- The answer to a question does not depend on what is remembered, as long as that is consistent. -/
def Settled {α : Type} (view : ScriptView) (q : Query α) : Prop :=
  ∃ a, ∀ e, Consistent view e → (q e).1 = a ∧ Refreshed view e (q e).2

namespace Settled

variable {α β : Type} {view : ScriptView}

private theorem pure (view : ScriptView) (a : α) : Settled view (Pure.pure a : Query α) :=
  ⟨a, fun e _ => ⟨rfl, .refl view e⟩⟩

private theorem bind {q : Query α} {f : α → Query β} (hq : Settled view q) (hf : ∀ a, Settled view (f a)) :
    Settled view (q >>= f) := by
  obtain ⟨a, ha⟩ := hq
  obtain ⟨b, hb⟩ := hf a
  refine ⟨b, fun e he => ?_⟩
  obtain ⟨ha₁, hr⟩ := ha e he
  show (f (q e).1 (q e).2).1 = b ∧ Refreshed view e (f (q e).1 (q e).2).2
  rw [ha₁]
  obtain ⟨hb₁, hr'⟩ := hb (q e).2 (hr.consistent he)
  exact ⟨hb₁, hr.trans hr'⟩

private theorem ensure (view : ScriptView) (fileName : String) : Settled view (ensure view fileName) :=
  ⟨view.script? fileName, fun e he => ⟨ensure_answer he fileName, refreshed_ensure view fileName e⟩⟩

private theorem filterMapM {f : α → Query (Option β)} (hf : ∀ a, Settled view (f a)) (l : List α) :
    Settled view (l.filterMapM f) := by
  induction l with
  | nil => exact .pure view []
  | cons a l ih =>
    rw [List.filterMapM_cons]
    refine (hf a).bind fun b => ?_
    cases b with
    | none => exact ih
    | some b => exact ih.bind fun bs => .pure view _

private theorem search (view : ScriptView) (first : String) : Settled view (search view first) :=
  filterMapM (fun name => (ensure view name).bind fun _ => .pure view _) _

private theorem declarationsNamed (view : ScriptView) (first name : String) :
    Settled view (declarationsNamed view first name) :=
  (search view first).bind fun _ => .pure view _

private theorem withTarget {fileName : String} {offset : Nat} {answer : Target → Query (Option α)}
    (h : ∀ target, Settled view (answer target)) : Settled view (withTarget view fileName offset answer) := by
  refine ((ensure view fileName).bind fun script => .pure view _).bind fun target => ?_
  cases target with
  | none => exact .pure view none
  | some target => exact h target

theorem definitionsAt (view : ScriptView) (fileName : String) (offset : Nat) :
    Settled view (definitionsAt view fileName offset) :=
  withTarget fun _ => (declarationsNamed ..).bind fun _ => .pure view _

theorem typeDefinitionsAt (view : ScriptView) (fileName : String) (offset : Nat) :
    Settled view (typeDefinitionsAt view fileName offset) :=
  withTarget fun _ => (declarationsNamed ..).bind fun _ => .pure view _

theorem referencesAt (view : ScriptView) (fileName : String) (offset : Nat) :
    Settled view (referencesAt view fileName offset) :=
  withTarget fun _ => (declarationsNamed ..).bind fun _ => (search ..).bind fun _ => .pure view _

theorem implementationsAt (view : ScriptView) (fileName : String) (offset : Nat) :
    Settled view (implementationsAt view fileName offset) := by
  refine withTarget fun target => (search ..).bind fun scripts => ?_
  dsimp only
  split
  · exact .pure view _
  · exact (declarationsNamed ..).bind fun _ => .pure view _

theorem quickInfoAt (view : ScriptView) (fileName : String) (offset : Nat) :
    Settled view (quickInfoAt view fileName offset) :=
  withTarget fun _ => (declarationsNamed ..).bind fun _ => .pure view _

theorem sourceFile (view : ScriptView) (fileName : String) : Settled view (engine.sourceFile view fileName) :=
  (ensure view fileName).bind fun script => .pure view (script.map ParsedScript.unit)

/-- A settled question is answered as by an engine that remembers nothing. -/
theorem answer_eq_fresh {q : Query α} (hq : Settled view q) {e : SyntaxEngine} (he : Consistent view e) :
    (q e).1 = (q fresh).1 := by
  obtain ⟨a, ha⟩ := hq
  rw [(ha e he).1, (ha fresh (consistent_fresh view)).1]

theorem refreshed {q : Query α} (hq : Settled view q) {e : SyntaxEngine} (he : Consistent view e) :
    Refreshed view e (q e).2 := by
  obtain ⟨a, ha⟩ := hq
  exact (ha e he).2

end Settled

end SyntaxEngine

end ScriptHost.Analysis
