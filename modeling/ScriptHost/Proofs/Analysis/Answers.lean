import ScriptHost.Proofs.Analysis.Reading
import ScriptHost.Proofs.Host.Run

/-!
# What the syntax engine answers

All that a question can learn from an engine is the scripts that the engine gives under their names (`given`).  What is
remembered changes with every question, but what is given does not (`given_ensure`).  So the answer to a question is a
function of the given scripts alone, and `Answers` says which one.  There is one lemma for every question; no other proof
needs to look into the engine.
-/

namespace ScriptHost.Analysis.SyntaxEngine

/-- The scripts that an engine gives, by their names. -/
def given (view : ScriptView) (e : SyntaxEngine) (name : String) : Option ParsedScript := (ensure view name e).1

/-- What is given under a name depends only on what is remembered under it. -/
private theorem given_congr {view : ScriptView} {e e' : SyntaxEngine} {name : String}
    (h : e'.scripts.get? name = e.scripts.get? name) : given view e' name = given view e name := by
  have hload : ∀ version, (ensure.load view name version e').1 = (ensure.load view name version e).1 := by
    intro version
    unfold ensure.load
    cases view.snapshot name <;> rfl
  unfold given ensure
  by_cases hu : view.version name = untracked
  · simp only [if_pos hu]
  · simp only [if_neg hu, h]
    split
    · split
      · rfl
      · exact hload _
    · exact hload _

/-- What could not be given is not remembered for it. -/
private theorem given_of_ensure_eq_none {view : ScriptView} {e e₁ : SyntaxEngine} {name : String}
    (h : ensure view name e = (none, e₁)) : given view e₁ name = none := by
  by_cases hu : view.version name = untracked
  · unfold given ensure
    rw [if_pos hu]
  · have hload : ensure.load view name (view.version name) e = (none, e₁) → e₁.scripts = e.scripts := by
      intro hl
      unfold ensure.load at hl
      cases ht : view.snapshot name with
      | none =>
        rw [ht] at hl
        obtain ⟨-, rfl⟩ := Prod.mk.inj hl
        rfl
      | some source => simp [ht] at hl
    have hscripts : e₁.scripts = e.scripts := by
      have h' := h
      simp only [ensure, if_neg hu] at h'
      split at h'
      · split at h'
        · cases h'
        · exact hload h'
      · exact hload h'
    rw [given_congr (congrArg (·.get? name) hscripts)]
    exact congrArg Prod.fst h

/-- Reading a script does not change which scripts are given. -/
theorem given_ensure (view : ScriptView) (name : String) (e : SyntaxEngine) :
    given view (ensure view name e).2 = given view e := by
  funext other
  by_cases hn : other = name
  · subst hn
    rcases hs : ensure view other e with ⟨script | script, e₁⟩
    · rw [given_of_ensure_eq_none hs, given, hs]
    · rw [given, (ensure_again hs).2, given, hs]
  · exact given_congr (get?_ensure_of_ne view hn e)

/-! ### Answers as functions of the given scripts -/

/-- If the given scripts are `s`, a question is answered by `a`, and the given scripts stay the same. -/
def Answers {α : Type} (view : ScriptView) (s : String → Option ParsedScript) (q : Query α) (a : α) : Prop :=
  ∀ e, given view e = s → (q e).1 = a ∧ given view (q e).2 = s

/-- The scripts that are searched, in their order. -/
def searched (view : ScriptView) (s : String → Option ParsedScript) (first : String) : List (String × ParsedScript) :=
  (searchOrder view first).filterMap fun name => (s name).map (name, ·)

/-- The declarations of a name, in the order of the scripts. -/
def declared (view : ScriptView) (s : String → Option ParsedScript) (first name : String) :
    List (String × Declaration) :=
  (searched view s first).flatMap fun (file, script) => (script.declarations.filter (·.name == name)).map (file, ·)

private theorem name_of_mem_declared {view : ScriptView} {s : String → Option ParsedScript} {first name file : String}
    {d : Declaration} (h : (file, d) ∈ declared view s first name) : d.name = name := by
  obtain ⟨⟨file', script⟩, -, hd⟩ := List.mem_flatMap.1 h
  obtain ⟨d', hd', heq⟩ := List.mem_map.1 hd
  obtain ⟨-, rfl⟩ := Prod.mk.inj heq
  exact beq_iff_eq.1 (List.mem_filter.1 hd').2

/-- The first declaration of a name, or an unknown one at the place where the name was found. -/
def firstDeclared (view : ScriptView) (s : String → Option ParsedScript) (fileName : String) (target : Target) :
    Definition :=
  match declared view s fileName target.name with
  | (file, d) :: _ => definition file d
  | [] => ⟨fileName, target.span, "unknown", target.name, ""⟩

theorem name_firstDeclared (view : ScriptView) (s : String → Option ParsedScript) (fileName : String)
    (target : Target) : (firstDeclared view s fileName target).name = target.name := by
  unfold firstDeclared
  split
  · rename_i heq
    exact name_of_mem_declared (heq ▸ List.mem_cons_self ..)
  · rfl

/-- The declarations that inherit from a name. -/
def heirs (view : ScriptView) (s : String → Option ParsedScript) (first name : String) : List Implementation :=
  (searched view s first).flatMap fun (file, script) =>
    (script.declarations.filter (·.heritage.contains name)).map (implementation file)

/-- The name at a byte of a given script. -/
def nameAt (s : String → Option ParsedScript) (fileName : String) (offset : Nat) : Option Target :=
  (s fileName).bind (ParsedScript.target? · offset)

namespace Answers

variable {α β : Type} {view : ScriptView} {s : String → Option ParsedScript}

private theorem pure (a : α) : Answers view s (Pure.pure a : Query α) a := fun _ he => ⟨rfl, he⟩

private theorem bind {q : Query α} {f : α → Query β} {a : α} {b : β} (hq : Answers view s q a)
    (hf : Answers view s (f a) b) : Answers view s (q >>= f) b := by
  intro e he
  obtain ⟨ha, hs⟩ := hq e he
  show (f (q e).1 (q e).2).1 = b ∧ given view (f (q e).1 (q e).2).2 = s
  rw [ha]
  exact hf (q e).2 hs

theorem ensure (fileName : String) : Answers view s (ensure view fileName) (s fileName) := by
  rintro e rfl
  exact ⟨rfl, given_ensure view fileName e⟩

theorem map {q : Query α} {a : α} (hq : Answers view s q a) (g : α → β) :
    Answers view s (do return g (← q)) (g a) := bind hq (pure _)

theorem filterMapM {f : α → Query (Option β)} {g : α → Option β} (hf : ∀ a, Answers view s (f a) (g a))
    (l : List α) : Answers view s (l.filterMapM f) (l.filterMap g) := by
  induction l with
  | nil => exact pure []
  | cons a l ih =>
    rw [List.filterMapM_cons, List.filterMap_cons]
    refine bind (hf a) ?_
    cases g a with
    | none => exact ih
    | some b => exact map ih (b :: ·)

theorem search (first : String) : Answers view s (search view first) (searched view s first) :=
  filterMapM (fun name => map (ensure name) (·.map (name, ·))) _

theorem declarationsNamed (first name : String) :
    Answers view s (declarationsNamed view first name) (declared view s first name) :=
  map (search first) _

private theorem withTarget {fileName : String} {offset : Nat} {answer : Target → Query (Option α)}
    {g : Target → Option α} (h : ∀ target, Answers view s (answer target) (g target)) :
    Answers view s (withTarget view fileName offset answer) ((nameAt s fileName offset).bind g) := by
  have htarget : Answers view s (targetAt view fileName offset) (nameAt s fileName offset) :=
    map (ensure fileName) (·.bind (ParsedScript.target? · offset))
  refine bind htarget ?_
  cases nameAt s fileName offset with
  | none => exact pure none
  | some target => exact h target

theorem definitionsAt (fileName : String) (offset : Nat) :
    Answers view s (definitionsAt view fileName offset) ((nameAt s fileName offset).bind fun target =>
      some ((declared view s fileName target.name).map fun (file, d) => definition file d)) :=
  withTarget fun target => map (declarationsNamed fileName target.name) _

theorem typeDefinitionsAt (fileName : String) (offset : Nat) :
    Answers view s (typeDefinitionsAt view fileName offset) ((nameAt s fileName offset).bind fun target =>
      some (((declared view s fileName target.name).filter (declaresType ·.2.kind)).map fun (file, d) =>
        definition file d)) :=
  withTarget fun target => map (declarationsNamed fileName target.name) _

theorem referencesAt (fileName : String) (offset : Nat) :
    Answers view s (referencesAt view fileName offset) ((nameAt s fileName offset).bind fun target =>
      some [⟨firstDeclared view s fileName target,
        (searched view s fileName).flatMap fun (_, script) => ParsedScript.references script target.name⟩]) :=
  withTarget fun target => bind (declarationsNamed fileName target.name) (map (search fileName) _)

theorem implementationsAt (fileName : String) (offset : Nat) :
    Answers view s (implementationsAt view fileName offset) ((nameAt s fileName offset).bind fun target =>
      if !(heirs view s fileName target.name).isEmpty then some (heirs view s fileName target.name)
      else some (((declared view s fileName target.name).filter fun (_, d) =>
        d.kind != "interface" && d.kind != "type").map fun (file, d) => implementation file d)) := by
  refine withTarget fun target => bind (search fileName) ?_
  show Answers view s (if !(heirs view s fileName target.name).isEmpty then _ else _) _
  split
  · exact pure _
  · exact map (declarationsNamed fileName target.name) _

theorem quickInfoAt (fileName : String) (offset : Nat) :
    Answers view s (quickInfoAt view fileName offset) ((nameAt s fileName offset).bind fun target =>
      (declared view s fileName target.name).head?.map fun (_, d) =>
        ⟨d.kind, target.span, d.display, d.documentation⟩) :=
  withTarget fun target => map (declarationsNamed fileName target.name) _

end Answers

/-! ### Asking again and again -/

/-- The engine `e'` has come about by asking `e` about the scripts of one view, in any order. -/
inductive Asked (view : ScriptView) (e : SyntaxEngine) : SyntaxEngine → Prop where
  | none : Asked view e e
  | sourceFile {e' : SyntaxEngine} (fileName : String) : Asked view e e' →
      Asked view e (engine.sourceFile view fileName e').2
  | question {e' : SyntaxEngine} (t : Host.Topic) (fileName : String) (offset : Nat) : Asked view e e' →
      Asked view e (t.question engine view fileName offset e').2

/-- No question changes which scripts are given. -/
theorem Asked.given_eq {view : ScriptView} {e e' : SyntaxEngine} (h : Asked view e e') :
    given view e' = given view e := by
  induction h with
  | none => rfl
  | sourceFile fileName _ ih => exact (given_ensure view fileName _).trans ih
  | question t fileName offset _ ih =>
    cases t with
    | definitions => exact (Answers.definitionsAt fileName offset _ ih).2
    | typeDefinitions => exact (Answers.typeDefinitionsAt fileName offset _ ih).2
    | references => exact (Answers.referencesAt fileName offset _ ih).2
    | implementations => exact (Answers.implementationsAt fileName offset _ ih).2
    | quickInfo => exact (Answers.quickInfoAt fileName offset _ ih).2

end ScriptHost.Analysis.SyntaxEngine
