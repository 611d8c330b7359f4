import ScriptHost.Proofs.Path.Extension
import ScriptHost.Proofs.Resolution.Lookup

/-!
# Compiled scripts and their declarations

The path of a compiled script and that of the declarations beside it are the same but for their extensions.  If what
they have in common ends in a name (`Stem`), both are paths of scripts, and the extension can be taken away again.
-/

namespace ScriptHost.Path

open ScriptHost.Disk (pathOf)
open ScriptHost.Resolution (Canonical)

/-- A path that spells a place by names alone, the last of which does not end in what may stand between names. -/
structure Stem (base : String) : Prop where
  canonical : Canonical base
  last : ∃ c cs, base.toList.reverse = c :: cs ∧ c ≠ '/' ∧ c ≠ '\\'

/-! ### Extensions -/

private theorem extension?_pathOf {name : String} {above : Place} (hplace : ∀ part ∈ name :: above, Part part)
    (hname : name ≠ "..") : extension? (pathOf (name :: above)) = (splitExtension name).2 := by
  have hlast : (components (pathOf (name :: above))).getLast? = some (.normal name) := by
    rw [components_pathOf hplace, List.reverse_cons, List.map_append, ← List.cons_append, List.map_singleton,
      Component.ofPart, if_neg hname]
    exact List.getLast?_concat
  rw [extension?, fileName?, hlast]
  rfl

/-- What comes after the last dot of a name is its extension. -/
theorem splitExtension_append {name ending : String} (hname : name ≠ "") {extension : String}
    (hending : ending = "." ++ extension) (hdot : '.' ∉ extension.toList) :
    (splitExtension (name ++ ending)).2 = some extension := by
  obtain ⟨c, cs, hreverse⟩ : ∃ c cs, name.toList.reverse = c :: cs := by
    cases hr : name.toList.reverse with
    | nil => exact absurd (String.toList_eq_nil_iff.1 (List.reverse_eq_nil_iff.1 hr)) hname
    | cons c cs => exact ⟨c, cs, rfl⟩
  have hparts : (name ++ ending).toList.reverse = extension.toList.reverse ++ '.' :: c :: cs := by
    rw [hending, String.toList_append, String.toList_append, List.reverse_append, List.reverse_append, hreverse]
    simp
  have hnone : ∀ x ∈ extension.toList.reverse, decide (x ≠ '.') = true := by
    intro x hx
    simpa using fun h : x = '.' => hdot (h ▸ List.mem_reverse.1 hx)
  unfold splitExtension
  dsimp only
  rw [hparts, List.dropWhile_append_of_pos hnone, List.takeWhile_append_of_pos hnone]
  simp

/-- The extension of a name is all that is behind its last dot, if there is something before that dot. -/
theorem splitExtension_eq_some_iff {name extension : String} : (splitExtension name).2 = some extension ↔
    ∃ stem, stem ≠ "" ∧ name = stem ++ ("." ++ extension) ∧ '.' ∉ extension.toList := by
  constructor
  · intro h
    unfold splitExtension at h
    dsimp only at h
    split at h
    · rename_i c rest hdrop
      obtain rfl := Option.some.inj h
      have hparts := List.takeWhile_append_dropWhile (p := (· ≠ '.')) (l := name.toList.reverse)
      rw [hdrop] at hparts
      refine ⟨String.ofList (c :: rest).reverse, by simp [String.ext_iff], String.toList_inj.1 ?_, fun hdot => ?_⟩
      · have hname := congrArg List.reverse hparts
        rw [List.reverse_reverse] at hname
        refine hname.symm.trans ?_
        simp
      · rw [String.toList_ofList, List.mem_reverse] at hdot
        simpa using List.mem_takeWhile_imp hdot
    · cases h
  · rintro ⟨stem, hstem, rfl, hdot⟩
    exact splitExtension_append hstem rfl hdot

namespace Stem

variable {base : String}

private theorem exists_name (hb : Stem base) : ∃ name above, Named (name :: above) ∧
    ∀ ending, base ++ ending = pathOf ((name ++ ending) :: above) := by
  obtain ⟨place, hplace, hbase⟩ := hb.canonical
  cases place with
  | nil =>
    obtain ⟨c, cs, hreverse, hslash, -⟩ := hb.last
    rw [hbase, toList_pathOf_nil] at hreverse
    simp only [List.reverse_singleton, List.cons.injEq] at hreverse
    exact absurd hreverse.1.symm hslash
  | cons name above =>
    refine ⟨name, above, hplace, fun ending => ?_⟩
    rw [hbase, pathOf_append]

private theorem isScript (hb : Stem base) (lead extension : String) {ending : String}
    (hending : ending = lead ++ ("." ++ extension))
    (hslash : '/' ∉ ending.toList) (hlen : 2 < ending.length) (hdot : '.' ∉ extension.toList)
    (hextension : scriptExtensions.contains extension = true) : Path.isScript (base ++ ending) = true := by
  obtain ⟨name, above, hplace, happend⟩ := hb.exists_name
  obtain ⟨⟨hpart, -⟩, habove⟩ := List.forall_mem_cons.1 hplace
  obtain ⟨hpart', hne⟩ := Resolution.named_append hpart.slash hlen hslash
  have hnonempty : name ++ lead ≠ "" := by
    intro heq
    have := congrArg String.toList heq
    rw [String.toList_append] at this
    exact hpart.ne_empty (String.toList_eq_nil_iff.1 (List.append_eq_nil_iff.1 this).1)
  have hext : (splitExtension (name ++ ending)).2 = some extension := by
    rw [hending, ← String.append_assoc]
    exact splitExtension_append hnonempty rfl hdot
  rw [Path.isScript, happend, extension?_pathOf (List.forall_mem_cons.2 ⟨hpart', Named.parts habove⟩) hne, hext]
  exact hextension

theorem isScript_compiled (hb : Stem base) : Path.isScript (base ++ compiledExtension) = true :=
  hb.isScript "" "js" (by decide) (by decide) (by decide) (by decide) (by decide)

theorem isScript_declarations (hb : Stem base) : Path.isScript (base ++ declarationExtension) = true :=
  hb.isScript ".d" "ts" (by decide) (by decide) (by decide) (by decide) (by decide)

theorem canonical_compiled (hb : Stem base) : Canonical (base ++ compiledExtension) :=
  hb.canonical.append (by decide) (by decide)

theorem clearExtension_compiled (hb : Stem base) : clearExtension (base ++ compiledExtension) = base := by
  obtain ⟨c, cs, hreverse, hslash, hbackslash⟩ := hb.last
  exact @clearExtension_append base "js" (beforeTail?_declaration_of_compiled (Text.hasTail_append ..))
    ⟨c, cs, hreverse, by simp [isSeparator, hslash, hbackslash]⟩ (by simp [isSeparator])

end Stem

end ScriptHost.Path
