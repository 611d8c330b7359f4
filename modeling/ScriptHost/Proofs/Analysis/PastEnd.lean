import ScriptHost.Proofs.Analysis.Declared

/-!
# Questions about bytes past the end

A byte at or past the end of a script belongs to no name, but trees take bytes in 32 bits.  So a question about it is a
question about a byte of the script if it is far enough past the end: it is left without answer if and only if that byte
is in no name that ends with the script (`unanswered_iff`).  The byte behind is limited by the end of the script, but in
64 bits there is none behind the last one.
-/

namespace ScriptHost.Analysis.SyntaxEngine

open ScriptHost.Syntax ScriptHost.Text

/-- All questions about a byte are left without answer. -/
structure Unanswered (view : ScriptView) (fileName : String) (offset : Nat) (e : SyntaxEngine) : Prop where
  definitions : (engine.definitions view fileName offset e).1 = none
  typeDefinitions : (engine.typeDefinitions view fileName offset e).1 = none
  references : (engine.references view fileName offset e).1 = none
  implementations : (engine.implementations view fileName offset e).1 = none
  quickInfo : (engine.quickInfo view fileName offset e).1 = none

/-- A name that ends with a text and takes up a byte. -/
structure EndsOver (source : String) (byte : Nat) (n : Node) : Prop where
  isName : isNameKind n.kind = true
  stop_eq : n.stop = source.utf8ByteSize
  start_le : n.start ≤ byte
  lt_stop : byte < n.stop

variable {view : ScriptView} {e : SyntaxEngine} {fileName : String} {version : Version} {source : String} {offset : Nat}

/-- Questions are left without answer where there is no name. -/
private theorem unanswered_iff_nameAt : Unanswered view fileName offset e ↔ nameAt
    (given view e) fileName offset = none := by
  constructor
  · intro h
    have hanswers : Answers view (given view e) (engine.definitions view fileName offset) _ :=
      Answers.definitionsAt fileName offset
    have hnone := (hanswers e rfl).1.symm.trans h.definitions
    rw [Option.bind_eq_none_iff] at hnone
    refine Option.eq_none_iff_forall_ne_some.2 fun target htarget => ?_
    exact absurd (hnone target htarget) (by simp)
  · intro h
    have hgone {α : Type} {q : Query (Option α)} {answer : Target → Option α}
        (hq : Answers view (given view e) q ((nameAt (given view e) fileName offset).bind answer)) : (q e).1 = none := by
      rw [(hq e rfl).1, h, Option.bind_none]
    exact ⟨hgone (Answers.definitionsAt fileName offset), hgone (Answers.typeDefinitionsAt fileName offset),
      hgone (Answers.referencesAt fileName offset), hgone (Answers.implementationsAt fileName offset),
      hgone (Answers.quickInfoAt fileName offset)⟩

private theorem byteBehind_eq_iff (hoffset : offset < Nat.pow 2 64) :
    byteBehind offset = offset + 1 ↔ offset ≠ Nat.pow 2 64 - 1 := by
  have hpow : Nat.pow 2 64 = 18446744073709551616 := by decide
  unfold byteBehind
  rw [hpow] at hoffset ⊢
  omega

/-- What is looked for past the end goes from a byte of 32 bits to the end of the text.  If there is none behind the
last byte of 64 bits, the first one is past the end too. -/
private theorem range_of_past_end (hshort : source.utf8ByteSize < Nat.pow 2 32) (hpast : source.utf8ByteSize ≤ offset)
    (hoffset : offset < Nat.pow 2 64) : min (byteBehind offset) source.utf8ByteSize % Nat.pow 2 32 =
      source.utf8ByteSize ∨ source.utf8ByteSize ≤ offset % Nat.pow 2 32 := by
  by_cases hlast : offset = Nat.pow 2 64 - 1
  · right
    have hfirst : offset % Nat.pow 2 32 = Nat.pow 2 32 - 1 := by
      rw [hlast]
    omega
  · left
    rw [(byteBehind_eq_iff hoffset).2 hlast, Nat.min_eq_right (by omega), Nat.mod_eq_of_lt hshort]

private theorem target?_eq_none_iff (hshort : source.utf8ByteSize < Nat.pow 2 32) (hpast : source.utf8ByteSize ≤ offset)
    (hoffset : offset < Nat.pow 2 64) : ParsedScript.target? (.read fileName version source) offset = none ↔
      ∀ n ∈ (Script.tree (dialectOf fileName) source).nodes, ¬ EndsOver source (offset % Nat.pow 2 32) n := by
  let root := Script.tree (dialectOf fileName) source
  let first := offset % Nat.pow 2 32
  let last := min (byteBehind offset) source.utf8ByteSize % Nat.pow 2 32
  have htidy : root.Tidy isNameKind := Script.tidy_tree ..
  have htarget : ParsedScript.target? (.read fileName version source) offset = none ↔
      isNameKind (root.smallestCovering first last).kind = false := by
    unfold ParsedScript.target?
    dsimp only [ParsedScript.read]
    show (if isNameKind (root.smallestCovering first last).kind = true then _ else _) = none ↔ _
    split <;> simp_all
  rw [htarget]
  constructor
  · rintro hkind n hn ⟨hname, hstop, hstart, hlt⟩
    obtain ⟨-, hchildren, -⟩ := (htidy.of_mem_nodes hn).1.of_isName hname
    have hlast : last ≤ n.stop := (Nat.mod_le ..).trans ((Nat.min_le_right ..).trans hstop.ge)
    rw [htidy.smallestCovering_eq hn hchildren hstart hlt hlast, hname] at hkind
    exact Bool.noConfusion hkind
  · intro hnone
    rcases Node.smallestCovering_cases first last root with heq | ⟨hmem, hstart, hlt, hlast⟩
    · rw [heq]
      rfl
    · rw [Bool.eq_false_iff]
      intro hname
      have hwithin : (root.smallestCovering first last).stop ≤ source.utf8ByteSize := (htidy.of_mem_nodes hmem).2.2
      refine hnone _ hmem ⟨hname, ?_, hstart, hlt⟩
      rcases range_of_past_end hshort hpast hoffset with hrange | hrange
      · exact Nat.le_antisymm hwithin (hrange ▸ hlast)
      · exact absurd (hlt.trans_le hwithin) (Nat.not_lt.2 hrange)

/-- Questions about a byte at or past the end of a tracked script of less than 2³² bytes are left without answer if and
only if no name that ends with the script takes up what is left of the byte in 32 bits.  There is a byte behind it
unless it is the last one of 64 bits. -/
theorem unanswered_iff (he : Consistent view e) (htracked : view.version fileName ≠ untracked)
    (hsource : view.snapshot fileName = some source) (hshort : source.utf8ByteSize < Nat.pow 2 32)
    (hpast : source.utf8ByteSize ≤ offset) (hoffset : offset < Nat.pow 2 64) :
    (Unanswered view fileName offset e ↔
      ∀ n ∈ (Script.tree (dialectOf fileName) source).nodes, ¬ EndsOver source (offset % Nat.pow 2 32) n) ∧
    (byteBehind offset = offset + 1 ↔ offset ≠ Nat.pow 2 64 - 1) := by
  have hgiven := given_of_consistent he htracked hsource
  refine ⟨?_, byteBehind_eq_iff hoffset⟩
  rw [unanswered_iff_nameAt, nameAt, hgiven, Option.bind_some]
  exact target?_eq_none_iff hshort hpast hoffset

/-- A script that is a name is found 2³² bytes past its start. -/
theorem unanswered_iff_of_far : ∃ (view : ScriptView) (source : String),
    Consistent view fresh ∧ view.version "/a.ts" ≠ untracked ∧ view.snapshot "/a.ts" = some source ∧
      source.utf8ByteSize < Nat.pow 2 32 ∧ source.utf8ByteSize ≤ 4294967296 ∧ 4294967296 < Nat.pow 2 64 ∧
      ¬ Unanswered view "/a.ts" 4294967296 fresh ∧
      (∃ n ∈ (Script.tree (dialectOf "/a.ts") source).nodes, EndsOver source (4294967296 % Nat.pow 2 32) n) := by
  let source := "foo"
  let view : ScriptView :=
    { names := ["/a.ts"]
      version := fun name => if name = "/a.ts" then 1 else untracked
      snapshot := fun name => if name = "/a.ts" then some source else none }
  have he : Consistent view fresh := consistent_fresh view
  have htracked : view.version "/a.ts" ≠ untracked := by decide
  have hshort : source.utf8ByteSize < Nat.pow 2 32 := by decide +kernel
  have hpast : source.utf8ByteSize ≤ 4294967296 := by decide +kernel
  have hoffset : 4294967296 < Nat.pow 2 64 := by decide +kernel
  have hfound : (engine.definitions view "/a.ts" 4294967296 fresh).1 = some [] := by decide +kernel
  have hanswered : ¬ Unanswered view "/a.ts" 4294967296 fresh := fun h => by
    rw [h.definitions] at hfound
    cases hfound
  have hname : ∃ n ∈ (Script.tree (dialectOf "/a.ts") source).nodes,
      EndsOver source (4294967296 % Nat.pow 2 32) n := by
    by_contra hnone
    exact hanswered ((unanswered_iff he htracked rfl hshort hpast hoffset).1.2 fun n hn hname => hnone ⟨n, hn, hname⟩)
  exact ⟨view, source, he, htracked, rfl, hshort, hpast, hoffset, hanswered, hname⟩

end ScriptHost.Analysis.SyntaxEngine
