import ScriptHost.Proofs.Analysis.Declared

/-!
# Statements by name

The name of a statement and the name of what it declares are looked for separately: the one goes through the words that
export or declare something down to the name, the other unwraps the declaration first and then asks for its name.  They
pass the same nodes (`declaredName_eq`), so a statement that is described is described under its own name
(`described_as_named`).
-/

namespace ScriptHost.Analysis

open ScriptHost.Syntax ScriptHost.Text

/-- Whether a statement of some kind exports or declares another one. -/
def isWrapper (kind : String) : Bool := kind == "export_statement" || kind == "ambient_declaration"

variable {source : String}

private theorem nameInDeclarationField_eq (children : List Node) :
    nameInDeclarationField source children =
      (children.find? (·.field == some .declaration)).bind (declaredName source) := by
  induction children with
  | nil => rfl
  | cons n rest ih =>
    rw [nameInDeclarationField, List.find?_cons, ih]
    by_cases h : n.field = some .declaration
    · rw [if_pos h, beq_iff_eq.2 h]
      rfl
    · rw [if_neg h, beq_false_of_ne h]

private theorem nameInFirstConstruct_eq (children : List Node) :
    nameInFirstConstruct source children = (children.find? Node.isNamed).bind (declaredName source) := by
  induction children with
  | nil => rfl
  | cons n rest ih =>
    rw [nameInFirstConstruct, List.find?_cons, ih]
    cases n.isNamed <;> rfl

/-- The name of a statement is that of the declaration behind all words that export or declare it, if there is one. -/
theorem declaredName_eq (source : String) (s : Node) :
    declaredName source s =
      if isWrapper (unwrap s).kind then none else (nameNode? (unwrap s)).map (·.textIn source) := by
  induction s using Node.induction with
  | leaf kind named place start text =>
    have hnone : nameNode? (.leaf kind named place start text) = none := by
      unfold nameNode?
      split <;> rfl
    rw [declaredName, unwrap, hnone]
    split <;> rfl
  | branch kind place start stop children ih =>
    -- what is behind the words has been dealt with; without anything behind them there is no name
    have hbehind : ∀ p : Node → Bool, isWrapper kind = true →
        (children.find? p).bind (declaredName source) =
          if isWrapper (((children.find? p).map unwrap).getD (.branch kind place start stop children)).kind then none
          else (nameNode? (((children.find? p).map unwrap).getD (.branch kind place start stop children))).map
            (·.textIn source) := by
      intro p hkind
      cases hfind : children.find? p with
      | none => exact (if_pos hkind).symm
      | some c => exact ih c (List.mem_of_find?_eq_some hfind)
    rw [declaredName, unwrap, nameInDeclarationField_eq, nameInFirstConstruct_eq, unwrapDeclarationField_eq,
      unwrapFirstConstruct_eq]
    by_cases hexport : kind = "export_statement"
    · rw [if_pos hexport, if_pos hexport]
      exact hbehind _ (by simp [isWrapper, hexport])
    · rw [if_neg hexport, if_neg hexport]
      by_cases hambient : kind = "ambient_declaration"
      · rw [if_pos hambient, if_pos hambient]
        exact hbehind _ (by simp [isWrapper, hambient])
      · rw [if_neg hambient, if_neg hambient]
        have hplain : isWrapper kind = false := by simp [isWrapper, hexport, hambient]
        exact (if_neg (by simp [Node.kind, hplain])).symm

/-- What declares something of a known kind is not itself wrapped around a declaration. -/
private theorem isWrapper_of_declarationKind? {d : Node} {kind : String} (h : declarationKind? source d = some kind) :
    isWrapper d.kind = false := by
  rw [Bool.eq_false_iff]
  intro hwrapper
  rw [isWrapper, Bool.or_eq_true, beq_iff_eq, beq_iff_eq] at hwrapper
  unfold declarationKind? at h
  rcases hwrapper with hkind | hkind
  · rw [hkind] at h
    cases h
  · rw [hkind] at h
    cases h

/-- A statement is described under a name exactly if it declares something of a known kind, and the name is its own. -/
private theorem exists_described_iff {above : Option Node} {s : Node} {name : String} :
    (∃ found, Declaration.ofStatement? source above s = some found ∧ found.name = name) ↔
      (∃ kind, declarationKind? source (unwrap s) = some kind) ∧ declaredName source s = some name := by
  constructor
  · rintro ⟨found, hfound, rfl⟩
    obtain ⟨n, kind, hn, hkind, rfl⟩ := eq_described_of_ofStatement? hfound
    refine ⟨⟨kind, hkind⟩, ?_⟩
    rw [declaredName_eq, isWrapper_of_declarationKind? hkind, if_neg Bool.false_ne_true, hn]
    rfl
  · rintro ⟨⟨kind, hkind⟩, hname⟩
    rw [declaredName_eq, isWrapper_of_declarationKind? hkind, if_neg Bool.false_ne_true] at hname
    obtain ⟨n, hn, rfl⟩ := Option.map_eq_some_iff.1 hname
    refine ⟨described source above s (unwrap s) n kind, ?_, rfl⟩
    rw [Declaration.ofStatement?, hkind, hn]
    rfl

/-- The declarations of a script have the names of their statements. -/
private theorem sublist_names_declarations (fileName : String) (version : Version) (source : String) :
    ((ParsedScript.read fileName version source).declarations.map (·.name)).Sublist
      ((ParsedScript.read fileName version source).unit.statements.filterMap (·.name)) := by
  unfold ParsedScript.read
  dsimp only
  induction statementsOf (Script.tree (dialectOf fileName) source) with
  | nil => exact List.Sublist.refl _
  | cons statement rest ih =>
    obtain ⟨above, s⟩ := statement
    cases hfound : Declaration.ofStatement? source above s with
    | none =>
      simp only [List.filterMap_cons, List.map_cons, hfound]
      split
      · exact ih
      · exact ih.cons _
    | some found =>
      have hname : declaredName source s = some found.name := (exists_described_iff.1 ⟨found, hfound, rfl⟩).2
      simp only [List.filterMap_cons, List.map_cons, hfound, hname]
      exact ih.cons_cons _

/-- A statement that is described is described under its own name, whatever words export or declare what it declares;
and no statement of a known kind with a name is left out.  So the names by which declarations of a script are found are
names of its statements, in their order. -/
theorem described_as_named (source : String) :
    (∀ above s name, (∃ found, Declaration.ofStatement? source above s = some found ∧ found.name = name) ↔
      (∃ kind, declarationKind? source (unwrap s) = some kind) ∧ declaredName source s = some name) ∧
      ∀ fileName version, ((ParsedScript.read fileName version source).declarations.map (·.name)).Sublist
        ((ParsedScript.read fileName version source).unit.statements.filterMap (·.name)) := by
  constructor
  · intro above s name
    exact exists_described_iff
  · intro fileName version
    exact sublist_names_declarations fileName version source

/-- The name of an enumeration that is declared and exported is found behind both words and a comment. -/
theorem described_as_named_behind_words : ∃ (source : String) (above : Option Node) (s : Node) (found : Declaration),
    source = "export /* the */ declare enum Colour \x7b Red \x7d" ∧ s ∈ (Script.tree .plain source).children ∧
      s.kind = "export_statement" ∧ Declaration.ofStatement? source above s = some found ∧ found.name = "Colour" ∧
        declaredName source s = some found.name := by
  let source := "export /* the */ declare enum Colour \x7b Red \x7d"
  have hparse : ((Script.tree .plain source).children.any fun s => s.kind == "export_statement" &&
      (Declaration.ofStatement? source none s).any fun found => found.name == "Colour") = true := by
    decide +kernel
  simp only [List.any_eq_true, Option.any_eq_true, Bool.and_eq_true, beq_iff_eq] at hparse
  obtain ⟨s, hs, hkind, found, hfound, hname⟩ := hparse
  have hown := (((described_as_named source).1 none s found.name).1 ⟨found, hfound, rfl⟩).2
  exact ⟨source, none, s, found, rfl, hs, hkind, hfound, hname, hown⟩

end ScriptHost.Analysis
