import ScriptHost.Proofs.Host.Address
import ScriptHost.Proofs.Path.Stem
import ScriptHost.Proofs.Path.Way

/-!
# The dialects in which scripts are read

The extension of a file says in which dialect its text is written, but a script is read under its key, which ends in
`.ts` whatever the extension of the file was.  So all scripts of a host are read in the plain dialect, and those with
markup in a dialect that is not theirs (`addFile_dialect`).
-/

namespace ScriptHost.Path

open ScriptHost.Text

/-- The name of a file with an ending that is more than dots. -/
private theorem fileName?_append (path : String) {ending : String} (hslash : '/' ∉ ending.toList)
    (hlen : 2 < ending.length) : ∃ name, fileName? (path ++ ending) = some (name ++ ending) := by
  obtain ⟨front, last, hpath, happend⟩ := segments_append hslash path
  have hlast : '/' ∉ last.toList := by
    obtain ⟨cs, hcs, rfl⟩ := List.mem_map.1 (show last ∈ segments path by simp [hpath])
    simpa using not_mem_of_mem_splitSlashes hcs
  obtain ⟨hpart, hup⟩ := Resolution.named_append hlast hlen hslash
  have hnames : names (path ++ ending) = front.filter leads ++ [last ++ ending] := by
    rw [names, happend, List.filter_append, List.filter_cons_of_pos (by simp [leads, hpart.ne_empty, hpart.ne_dot])]
    rfl
  refine ⟨last, ?_⟩
  rw [fileName?, components_getLast?_of_names hnames, Component.ofPart, if_neg hup]

/-- The path of a source has its extension, unless that is all of the name. -/
private theorem extension?_of_hasTail {path : String} (h : hasTail sourceExtension path = true) :
    extension? path = some "ts" ∨ extension? path = none := by
  obtain ⟨body, rfl⟩ := hasTail_iff.1 h
  obtain ⟨name, hname⟩ := @fileName?_append body sourceExtension (by decide) (by decide)
  rw [extension?, hname, Option.bind_some]
  by_cases hempty : name = ""
  · subst hempty
    exact .inr (by decide +kernel)
  · exact .inl (splitExtension_append hempty rfl (by decide))

end ScriptHost.Path

namespace ScriptHost.Analysis

open ScriptHost.Path

private theorem dialectOf_eq_markup_iff {path : String} :
    dialectOf path = .markup ↔ extension? path = some "tsx" ∨ extension? path = some "jsx" := by
  unfold dialectOf
  split <;> simp_all

/-- A script that is known by the path of a source is read in the plain dialect. -/
private theorem dialectOf_of_hasTail {path : String} (h : Text.hasTail sourceExtension path = true) :
    dialectOf path = .plain := by
  have hnot : dialectOf path ≠ .markup := by
    rw [Ne, dialectOf_eq_markup_iff]
    rcases extension?_of_hasTail h with he | he <;> rw [he] <;> decide
  cases hd : dialectOf path with
  | plain => rfl
  | markup => exact absurd hd hnot

/-- The unit of a script whose text is read in a dialect. -/
def unitIn (dialect : Syntax.Script.Dialect) (fileName : String) (version : Version) (source : String) : SourceUnit where
  fileName := fileName
  version := version
  statements := (statementsOf (Syntax.Script.tree dialect source)).map fun (_, n) =>
    { kind := n.kind, name := declaredName source n, span := .ofBounds n.start n.stop, text := n.textIn source,
      fileName }

private theorem read_unit (fileName : String) (version : Version) (source : String) :
    (ParsedScript.read fileName version source).unit = unitIn (dialectOf fileName) fileName version source := rfl

end ScriptHost.Analysis

namespace ScriptHost.Host

open ScriptHost.Analysis ScriptHost.Path

/-- Let a script be added to a host that uses the syntax engine, after whatever run.  Its unit is what is read in the
plain dialect from the record of its key.  That is the dialect of its file if and only if the file has no extension of
scripts with markup. -/
theorem addFile_dialect {h₀ h' : Host SyntaxEngine} (hu : h₀.Unused) (he : h₀.tools.engine = SyntaxEngine.engine)
    (hs : h₀.engineState = .fresh) {run : List (Disk × Operation)} (hlen : run.length + 2 < 2 ^ 63) {d : Disk}
    {r : Request} {u : SourceUnit} (hadd : addFile r d (h₀.after run) = (.ok u, h')) :
    ∃ i record, (identify r.path r.origin d (h₀.after run)).1 = .ok i ∧ h'.store.get? i.normalized = some record ∧
      u = unitIn .plain i.normalized record.version record.content ∧ dialectOf i.normalized = .plain ∧
      (dialectOf i.normalized = dialectOf i.resolved ↔
        extension? i.resolved ≠ some "tsx" ∧ extension? i.resolved ≠ some "jsx") := by
  have hm : (h₀.after run).memo.Sound := sound_after hu.sound run
  have hupToDate : UpToDate run.length (h₀.after run) := upToDate_after hu he hs (by omega)
  obtain ⟨o, h₁, ho, record, hrecord, rfl⟩ := (hupToDate.answersAnew hm (by omega) d).addFile hadd
  obtain ⟨i, h₂, hi, ho⟩ := Action.bind_eq_ok.1 ho
  obtain ⟨-, -, rfl, -⟩ := observeIdentity_eq_ok.1 ho
  have hplain := dialectOf_of_hasTail (wellFormed_of_identify hm hi).endsWithSource
  refine ⟨o.identity, record, congrArg Prod.fst hi, hrecord, ?_, hplain, ?_⟩
  · rw [← hplain, ← read_unit]
    rfl
  · rw [hplain, ← not_or, ← dialectOf_eq_markup_iff]
    cases dialectOf o.identity.resolved <;> simp

/-- What is one statement of a script with markup is taken for two. -/
theorem addFile_dialect_of_markup : ∃ (d : Disk) (u : SourceUnit) (h : Host SyntaxEngine),
    addFile { path := "/r/a.tsx" } d
      (fresh ⟨Resolution.nodeResolver, Merge.typePrelude, SyntaxEngine.engine⟩ SyntaxEngine.fresh "/r") = (.ok u, h) ∧
    u = unitIn .plain "/r/a.ts" 1 "const x = <a>b;c</a>/g;" ∧ u.statements.length = 2 ∧
    (unitIn (dialectOf "/r/a.tsx") "/r/a.ts" 1 "const x = <a>b;c</a>/g;").statements.length = 1 := by
  let text := "const x = <a>b;c</a>/g;"
  let d := Disk.empty.write "/r/a.tsx" (.text text)
  let start := fresh ⟨Resolution.nodeResolver, Merge.typePrelude, SyntaxEngine.engine⟩ SyntaxEngine.fresh "/r"
  have hok : (addFile { path := "/r/a.tsx" } d start).1.toOption.isSome = true := by decide +kernel
  have hidentity : (identify "/r/a.tsx" none d start).1 = .ok (.ofResolved "/r/a.tsx") := by decide +kernel
  have hstored : (addFile { path := "/r/a.tsx" } d start).2.store.get? "/r/a.ts" = some ⟨1, text, text⟩ := by
    decide +kernel
  obtain ⟨u, hu⟩ := Option.isSome_iff_exists.1 hok
  have hadd := Action.run_of_answer (toOption_eq_some_iff.1 hu)
  have hlen : ([] : List (Disk × Operation)).length + 2 < 2 ^ 63 := by decide
  obtain ⟨i, record, hi, hrecord, hunit, -⟩ := addFile_dialect (unused_fresh ..) rfl rfl hlen hadd
  obtain rfl : i = .ofResolved "/r/a.tsx" := Except.ok.inj (hi.symm.trans hidentity)
  have hkey : (Identity.ofResolved "/r/a.tsx").normalized = "/r/a.ts" := by decide +kernel
  rw [hkey] at hrecord hunit
  obtain rfl : record = ⟨1, text, text⟩ := Option.some.inj (hrecord.symm.trans hstored)
  refine ⟨d, u, _, hadd, hunit, ?_, by decide +kernel⟩
  rw [hunit]
  decide +kernel

end ScriptHost.Host
