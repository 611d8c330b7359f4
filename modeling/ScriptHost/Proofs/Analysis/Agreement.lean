import ScriptHost.Proofs.Analysis.Answers

/-!
# The questions agree with one another

There are five questions about the name at a byte: where it is declared, where its type is declared, where it stands,
where it is implemented, and what is shown of it.  Each looks up the name and the declarations on its own, in an engine
that the questions before it have changed.  Still their answers fit together (`Agreement`), in whatever order they are
asked (`questions_agree`).
-/

namespace ScriptHost.Analysis.SyntaxEngine

/-- How the answers to the five questions about one byte of a file fit together, where `target?` is the name at the byte
and `heirsOf` are the declarations that inherit from a name. -/
structure Agreement (fileName : String) (target? : Option Target) (heirsOf : String → List Implementation)
    (definitions types : Option (List Definition)) (references : Option (List ReferencedSymbol))
    (implementations : Option (List Implementation)) (info : Option QuickInfo) : Prop where
  types_eq_none_iff : types = none ↔ definitions = none
  references_eq_none_iff : references = none ↔ definitions = none
  implementations_eq_none_iff : implementations = none ↔ definitions = none
  info_eq_none_iff : info = none ↔ definitions = none ∨ definitions = some []
  /-- Of the definitions, the interfaces, type aliases, classes and enumerations declare types. -/
  types_eq : types = definitions.map (·.filter fun d =>
    d.kind == "interface" || d.kind == "type" || d.kind == "class" || d.kind == "enum")
  /-- The references have the first definition, or an unknown one at the name that was asked about. -/
  references_definition : ∀ symbols ∈ references, ∃ target ∈ target?, ∃ found ∈ definitions,
    symbols.map (·.definition) = [found.headD ⟨fileName, target.span, "unknown", target.name, ""⟩]
  info_kind : ∀ shown ∈ info, ∃ first others, definitions = some (first :: others) ∧ shown.kind = first.kind
  /-- The implementations are the heirs of the name.  If it has none, they are its definitions other than interfaces and
  type aliases. -/
  implementations_eq : ∀ target ∈ target?, ∃ found ∈ definitions,
    implementations = some (if heirsOf target.name ≠ [] then heirsOf target.name
      else (found.filter fun d => d.kind != "interface" && d.kind != "type").map fun d =>
        ⟨d.fileName, d.span, d.kind⟩)

/-- Filtering declarations by their kinds is filtering the definitions that are shown of them. -/
private theorem filter_map_definition (p : String → Bool) (found : List (String × Declaration)) :
    (found.filter (p ·.2.kind)).map (fun (file, d) => definition file d) =
      (found.map fun (file, d) => definition file d).filter (p ·.kind) := by
  rw [List.filter_map]
  rfl

/-- Whatever an engine remembers, and whatever it is asked before and between the five questions about a byte of a file,
their answers fit together. -/
theorem questions_agree {view : ScriptView} {e e₁ e₂ e₃ e₄ e₅ : SyntaxEngine} (h₁ : Asked view e e₁)
    (h₂ : Asked view e e₂) (h₃ : Asked view e e₃) (h₄ : Asked view e e₄) (h₅ : Asked view e e₅) (fileName : String)
    (offset : Nat) :
    Agreement fileName (nameAt (given view e) fileName offset) (heirs view (given view e) fileName)
      (engine.definitions view fileName offset e₁).1 (engine.typeDefinitions view fileName offset e₂).1
      (engine.references view fileName offset e₃).1 (engine.implementations view fileName offset e₄).1
      (engine.quickInfo view fileName offset e₅).1 := by
  dsimp only [engine]
  rw [(Answers.definitionsAt fileName offset e₁ h₁.given_eq).1,
    (Answers.typeDefinitionsAt fileName offset e₂ h₂.given_eq).1,
    (Answers.referencesAt fileName offset e₃ h₃.given_eq).1,
    (Answers.implementationsAt fileName offset e₄ h₄.given_eq).1,
    (Answers.quickInfoAt fileName offset e₅ h₅.given_eq).1]
  cases nameAt (given view e) fileName offset with
  | none =>
    simp only [Option.bind_none]
    exact
      { types_eq_none_iff := Iff.rfl
        references_eq_none_iff := ⟨fun _ => rfl, fun _ => rfl⟩
        implementations_eq_none_iff := ⟨fun _ => rfl, fun _ => rfl⟩
        info_eq_none_iff := ⟨fun _ => .inl rfl, fun _ => rfl⟩
        types_eq := rfl
        references_definition := nofun
        info_kind := nofun
        implementations_eq := nofun }
  | some target =>
    simp only [Option.bind_some, ← apply_ite some, firstDeclared]
    generalize declared view (given view e) fileName target.name = found
    refine
      { types_eq_none_iff := ⟨nofun, nofun⟩
        references_eq_none_iff := ⟨nofun, nofun⟩
        implementations_eq_none_iff := ⟨nofun, nofun⟩
        info_eq_none_iff := ?info_none
        types_eq := congrArg some (filter_map_definition declaresType found)
        references_definition := ?references
        info_kind := ?info
        implementations_eq := ?implementations }
    case info_none => cases found <;> simp
    case references =>
      rintro symbols ⟨⟩
      refine ⟨target, rfl, _, rfl, ?_⟩
      cases found <;> rfl
    case info =>
      intro shown hshown
      cases found with
      | nil => cases hshown
      | cons first others =>
        cases hshown
        exact ⟨_, _, rfl, rfl⟩
    case implementations =>
      rintro _ ⟨⟩
      refine ⟨_, rfl, congrArg some ?_⟩
      rw [← filter_map_definition fun kind => kind != "interface" && kind != "type", List.map_map]
      simp only [Bool.not_eq_true', List.isEmpty_eq_false_iff]
      rfl

/-- In a script with a class that another one extends, the questions agree also when the class is asked about once
before. -/
theorem questions_agree_after_a_question : ∃ view : ScriptView, ∃ e : SyntaxEngine,
    e = (engine.quickInfo view "/a.ts" 6 fresh).2 ∧ Asked view fresh e ∧
      (engine.implementations view "/a.ts" 6 e).1.map (·.map (·.span.start)) = some [17] ∧
      Agreement "/a.ts" (nameAt (given view fresh) "/a.ts" 6) (heirs view (given view fresh) "/a.ts")
        (engine.definitions view "/a.ts" 6 e).1 (engine.typeDefinitions view "/a.ts" 6 fresh).1
        (engine.references view "/a.ts" 6 e).1 (engine.implementations view "/a.ts" 6 e).1
        (engine.quickInfo view "/a.ts" 6 fresh).1 := by
  let view : ScriptView :=
    { names := ["/a.ts"]
      version := fun name => if name = "/a.ts" then 1 else untracked
      snapshot := fun name => if name = "/a.ts" then some "class A {}\nclass B extends A {}" else none }
  have himplementation : (engine.implementations view "/a.ts" 6 (engine.quickInfo view "/a.ts" 6 fresh).2).1.map
      (·.map (·.span.start)) = some [17] := by decide +kernel
  clear_value view
  have hasked : Asked view fresh (engine.quickInfo view "/a.ts" 6 fresh).2 := .question .quickInfo "/a.ts" 6 .none
  exact ⟨view, _, rfl, hasked, himplementation, questions_agree hasked .none hasked hasked .none "/a.ts" 6⟩

end ScriptHost.Analysis.SyntaxEngine
