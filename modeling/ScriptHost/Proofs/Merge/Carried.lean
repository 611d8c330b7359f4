import ScriptHost.Proofs.Analysis.Header
import ScriptHost.Proofs.Merge.ReadBack
import ScriptHost.Proofs.Syntax.Exported

/-!
# The statements that a prelude takes over

A prelude is to take over the statements that declare types, bare or exported (`declaresTypes`).  Whether a bare
statement does is told by its kind, whether an export does by how it is spelled: the words that export are followed by
white space only, and a space follows the word that begins the declaration (`SpellsTypes`).  Of the exports that have a
declaration, only those of types are spelled so, but not all of them (`spellsTypes_iff`); and an export without one may
be spelled so as well.  So the right statements are taken over if and only if all exports conform to how they are spelled
(`typePrelude_carries_iff`).
-/

namespace ScriptHost.Merge

open ScriptHost.Analysis ScriptHost.Host ScriptHost.Syntax ScriptHost.Syntax.Script ScriptHost.Text

/-! ### How exports are spelled -/

/-- A text that begins with words that export, with white space only behind each, and then has a word that begins a
declaration of types, with a space behind it. -/
def SpellsTypes (cs : List Char) : Prop :=
  ∃ ws ∈ exportWords, ∃ lead, Spaced ws lead ∧ ∃ w ∈ typeKeywords, lead ++ w.toList <+: cs

private theorem prefix_of_spaced {ws : List String} {lead : List Char} (hws : ws ∈ exportWords) (h : Spaced ws lead) :
    "export".toList <+: lead := by
  simp only [exportWords, List.mem_cons, List.not_mem_nil, or_false] at hws
  rcases hws with rfl | rfl
  all_goals
    obtain _ | _ := h
    rw [List.append_assoc]
    exact List.prefix_append ..

private theorem dropWhile_blanks {blanks cs : List Char} (hblanks : blanks.all isBlank = true) (h : stops cs = true) :
    (blanks ++ cs).dropWhile isBlank = cs := by
  rw [List.dropWhile_append_of_pos (List.all_eq_true.1 hblanks)]
  cases cs with
  | nil => rfl
  | cons c cs =>
    refine List.dropWhile_cons_of_neg fun hc => ?_
    rw [stops, List.head?_cons, Option.any_some, isSpacing, hc] at h
    cases h

private theorem trimStart_ofList (cs : List Char) : trimStart (String.ofList cs) = String.ofList
    (cs.dropWhile isBlank) := by
  rw [trimStart, trimStartWhile, String.toList_ofList]

private theorem afterLead?_append (lead : String) (cs : List Char) :
    afterLead? lead (String.ofList (lead.toList ++ cs)) = some (String.ofList cs) := by
  rw [afterLead?, String.toList_ofList, List.isPrefixOf?_eq_some_iff_append_eq.2 rfl, Option.map_some]

private theorem afterLead?_eq_none {lead : String} {cs : List Char} (h : ¬ lead.toList <+: cs) :
    afterLead? lead (String.ofList cs) = none := by
  rw [afterLead?, String.toList_ofList, Option.map_eq_none_iff, Option.eq_none_iff_forall_ne_some]
  exact fun rest hrest => h ⟨rest, List.isPrefixOf?_eq_some_iff_append_eq.1 hrest⟩

/-- What is left of the text of an export when the words that export are taken off its front. -/
def exportedText (text : String) : String :=
  let exported := trimStart ((afterLead? "export" text).getD text)
  ((afterLead? "default" exported).map trimStart).getD exported

private theorem isTypeOnly_export {s : Statement} (hkind : s.kind = "export_statement") :
    isTypeOnly s = typeKeywords.any (hasLead · (exportedText s.text)) := by
  unfold isTypeOnly
  rw [hkind]
  rfl

private theorem exportedText_append (cs : List Char) : exportedText (String.ofList ("export".toList ++ cs)) =
    ((afterLead? "default" (String.ofList (cs.dropWhile isBlank))).map trimStart).getD
      (String.ofList (cs.dropWhile isBlank)) := by
  unfold exportedText
  rw [afterLead?_append, Option.getD_some, trimStart_ofList]

private theorem exportedText_of_default {cs rest : List Char} (h : cs.dropWhile isBlank = "default".toList ++ rest) :
    exportedText (String.ofList ("export".toList ++ cs)) = String.ofList (rest.dropWhile isBlank) := by
  rw [exportedText_append, h, afterLead?_append, Option.map_some, Option.getD_some, trimStart_ofList]

private theorem exportedText_of_not_default {cs : List Char} (h : ¬ "default".toList <+: cs.dropWhile isBlank) :
    exportedText (String.ofList ("export".toList ++ cs)) = String.ofList (cs.dropWhile isBlank) := by
  rw [exportedText_append, afterLead?_eq_none h, Option.map_none, Option.getD_none]

/-- What is taken off are words that export, with white space only behind each. -/
private theorem spaced_exportedText (cs : List Char) : ∃ ws ∈ exportWords, ∃ lead rest, Spaced ws lead ∧
    "export".toList ++ cs = lead ++ rest ∧ exportedText (String.ofList ("export".toList ++ cs)) = String.ofList rest := by
  have hblanks : ∀ cs : List Char, (cs.takeWhile isBlank).all isBlank = true := fun cs => List.all_takeWhile
  by_cases hdefault : "default".toList <+: cs.dropWhile isBlank
  · obtain ⟨rest, hrest⟩ := hdefault
    refine ⟨["export", "default"], List.mem_cons_of_mem _ (List.mem_cons_self ..), _, _,
      .cons (hblanks cs) (.cons (hblanks rest) .nil), ?_, exportedText_of_default hrest.symm⟩
    simp only [List.append_assoc, List.nil_append, List.takeWhile_append_dropWhile, hrest]
  · refine ⟨["export"], List.mem_cons_self .., _, _, .cons (hblanks cs) .nil, ?_, exportedText_of_not_default hdefault⟩
    simp only [List.append_assoc, List.nil_append, List.takeWhile_append_dropWhile]

/-- Where there are such words, they are taken off. -/
private theorem exportedText_of_spaced {ws : List String} {lead rest : List Char} (hws : ws ∈ exportWords)
    (hspaced : Spaced ws lead) (hrest : stops rest = true) (hdefault : ¬ "default".toList <+: rest) :
    exportedText (String.ofList (lead ++ rest)) = String.ofList rest := by
  simp only [exportWords, List.mem_cons, List.not_mem_nil, or_false] at hws
  rcases hws with rfl | rfl
  · obtain _ | ⟨hblanks, _ | _⟩ := hspaced
    have hdrop := dropWhile_blanks hblanks hrest
    rw [List.append_nil, List.append_assoc, exportedText_of_not_default (by rwa [hdrop]), hdrop]
  · obtain _ | ⟨hblanks, _ | ⟨hblanks', _ | _⟩⟩ := hspaced
    rename_i blanks blanks'
    have hdrop : (blanks ++ ("default".toList ++ (blanks' ++ rest))).dropWhile isBlank = _ := dropWhile_blanks hblanks rfl
    rw [List.append_nil, List.append_assoc, List.append_assoc, List.append_assoc, exportedText_of_default hdrop,
      dropWhile_blanks hblanks' hrest]

private theorem stops_of_mem_typeKeywords {w : String} (hw : w ∈ typeKeywords) : stops w.toList = true := by
  have hall : ∀ w ∈ typeKeywords, stops w.toList = true := by decide
  exact hall w hw

private theorem mem_typeKeywords_of_typeWord? {kind w : String} (h : typeWord? kind = some w) :
    w ++ " " ∈ typeKeywords := by
  unfold typeWord? at h
  split at h <;> cases h <;> decide

/-- A declaration that begins with one of the keywords is one of types. -/
private theorem typeWord?_of_leadWord {w : String} (hw : w ∈ typeKeywords) {rest : List Char} {kind : String}
    (h : leadWord (w.toList ++ rest) ∈ firstWords kind) : ∃ v, typeWord? kind = some v ∧ w = v ++ " " := by
  -- the space ends the word
  have hkind : ∀ (c : Char) (v : List Char), isWordStart c = true → v.all isWordPart = true →
      String.ofList (c :: v) ∉ otherWords → leadWord (c :: v ++ ' ' :: rest) ∈ firstWords kind →
        typeWord? kind = some (String.ofList (c :: v)) := by
    intro c v hc hv hother hmem
    rw [leadWord_of_all hc hv, show (takeWordParts (' ' :: rest)).1 = [] from rfl, List.append_nil] at hmem
    exact typeWord?_eq_of_mem hmem hother
  simp only [typeKeywords, List.mem_cons, List.not_mem_nil, or_false] at hw
  rcases hw with rfl | rfl | rfl
  · exact ⟨"interface", hkind 'i' "nterface".toList rfl rfl (by decide) h, by decide⟩
  · exact ⟨"type", hkind 't' "ype".toList rfl rfl (by decide) h, by decide⟩
  · exact ⟨"declare", hkind 'd' "eclare".toList rfl rfl (by decide) h, by decide⟩

private theorem typeKeyword_not_default {w : String} (hw : w ∈ typeKeywords) (rest : List Char) :
    ¬ "default".toList <+: w.toList ++ rest := by
  simp only [typeKeywords, List.mem_cons, List.not_mem_nil, or_false] at hw
  rcases hw with rfl | rfl | rfl <;> simp [List.cons_prefix_cons]

/-- Of a text that begins with a decorator nothing is taken off. -/
private theorem exportedText_of_decorator (cs : List Char) :
    exportedText (String.ofList ('@' :: cs)) = String.ofList ('@' :: cs) := by
  have hdrop : ('@' :: cs).dropWhile isBlank = '@' :: cs := List.dropWhile_cons_of_neg (by decide)
  have hexport : ¬ "export".toList <+: '@' :: cs := by simp [List.cons_prefix_cons]
  have hdefault : ¬ "default".toList <+: '@' :: cs := by simp [List.cons_prefix_cons]
  unfold exportedText
  rw [afterLead?_eq_none hexport, Option.getD_none, trimStart_ofList, hdrop]
  dsimp only
  rw [afterLead?_eq_none hdefault, Option.map_none, Option.getD_none]

/-- An export is taken for one of types if and only if it is spelled so. -/
private theorem isTypeOnly_iff {s : Statement} (hkind : s.kind = "export_statement")
    (htext : ∃ w ∈ ["@", "export"], w.toList <+: s.text.toList) : isTypeOnly s = true ↔ SpellsTypes s.text.toList := by
  rw [isTypeOnly_export hkind, List.any_eq_true]
  constructor
  · rintro ⟨w, hw, hlead⟩
    obtain ⟨v, hv, cs, hcs⟩ := htext
    rw [← String.ofList_toList (s := s.text), ← hcs] at hlead
    rw [← hcs]
    rcases List.mem_pair.1 hv with rfl | rfl
    · rw [show "@".toList ++ cs = '@' :: cs from rfl, exportedText_of_decorator, hasLead, String.toList_ofList,
        List.isPrefixOf_iff_prefix] at hlead
      have hnone : ∀ w ∈ typeKeywords, ¬ w.toList <+: '@' :: cs := by simp [typeKeywords, List.cons_prefix_cons]
      exact absurd hlead (hnone w hw)
    · obtain ⟨ws, hws, lead, rest, hspaced, heq, hexported⟩ := spaced_exportedText cs
      rw [hexported, hasLead, String.toList_ofList] at hlead
      refine ⟨ws, hws, lead, hspaced, w, hw, ?_⟩
      rw [heq]
      exact (List.prefix_append_right_inj _).2 (List.isPrefixOf_iff_prefix.1 hlead)
  · rintro ⟨ws, hws, lead, hspaced, w, hw, rest, htext⟩
    refine ⟨w, hw, List.isPrefixOf_iff_prefix.2 ⟨rest, ?_⟩⟩
    have hexported := exportedText_of_spaced hws hspaced (stops_append (stops_of_mem_typeKeywords hw) rest)
      (typeKeyword_not_default hw rest)
    rw [← List.append_assoc, htext, String.ofList_toList] at hexported
    rw [hexported, String.toList_ofList]

/-! ### Exports in a tree -/

/-- A declaration stands behind words that export it, with white space only behind each, and a space follows the word
that it begins with. -/
def Plain (source : String) (n d : Node) : Prop :=
  ∃ ws ∈ exportWords, ∃ lead, Spaced ws lead ∧ d.start = n.start + byteLength lead ∧
    ∃ w, typeWord? d.kind = some w ∧ lead ++ (w ++ " ").toList <+: (n.textIn source).toList

section

variable {dialect : Dialect} {source : String} {n d : Node}

/-- The text of an export comes next behind the place where it is begun, with the word that it begins with. -/
private theorem text_of_exported (hn : n ∈ (tree dialect source).nodes) (hkind : n.kind = "export_statement")
    (hbranch : n = .branch n.kind n.field n.start n.stop n.children) :
    ∃ c ahead, Exported source.toList n.start n.stop n.children c ∧
      (Gap.scan c).next = ⟨n.start, (n.textIn source).toList ++ ahead⟩ ∧
        (leadWord (Gap.scan c).next.rest).toList <+: (n.textIn source).toList := by
  cases n with
  | leaf => cases hbranch
  | branch kind place start stop children =>
    obtain rfl : kind = "export_statement" := hkind
    cases (exported_tree dialect source).of_mem_nodes hn with
    | branch hexporting =>
    cases (placed_tree dialect source).of_mem_nodes hn with
    | branch hplaced =>
    obtain ⟨c, hexported⟩ := hexporting rfl
    obtain ⟨-, ahead, hstop⟩ := hplaced rfl
    have hstart := hexported.leads.trans (Gap.leadsTo_scan c)
    obtain ⟨left, hleft⟩ := leadWord_append (Gap.scan c).next.rest
    have hword : (Gap.scan c).next.LeadsTo
        ⟨start + byteLength (leadWord (Gap.scan c).next.rest).toList, left⟩ := ⟨_, hleft, by rw [hexported.start_eq]⟩
    obtain ⟨taken, htaken, hlength⟩ := (hstart.trans hword).of_le hstop hexported.le
    dsimp only at htaken hlength
    have hnext : (Gap.scan c).next = ⟨start, ((leadWord (Gap.scan c).next.rest).toList ++ taken) ++ ahead⟩ := by
      rw [List.append_assoc, ← htaken, ← hleft, show start = (Gap.scan c).next.offset from hexported.start_eq]
    have htext : (Node.branch "export_statement" place start stop children).textIn source =
        String.ofList ((leadWord (Gap.scan c).next.rest).toList ++ taken) := by
      show slice source start stop = _
      rw [hlength, Nat.add_assoc, ← byteLength_append]
      rw [hnext] at hstart
      exact slice_of_leadsTo hstart
    refine ⟨c, ahead, hexported, ?_, ?_⟩
    · rw [htext, String.toList_ofList]
      exact hnext
    · rw [htext, String.toList_ofList]
      exact List.prefix_append ..

/-- Of the exports with a declaration, those are spelled like types whose declaration is one of types and is plain. -/
theorem spellsTypes_iff (hn : n ∈ (tree dialect source).nodes) (hkind : n.kind = "export_statement")
    (hbranch : n = .branch n.kind n.field n.start n.stop n.children) (hd : n.child? .declaration = some d) :
    SpellsTypes (n.textIn source).toList ↔ Plain source n d := by
  obtain ⟨c, ahead, hexported, hnext, hword⟩ := text_of_exported hn hkind hbranch
  constructor
  · rintro ⟨ws, hws, lead, hspaced, w, hw, rest, htext⟩
    have hbehind := hexported.behind d (List.mem_of_find?_eq_some hd) (by simpa using List.find?_some hd)
    rcases hbehind with hdecorator | ⟨ws', hws', hbehind⟩
    · obtain ⟨more, hmore⟩ := prefix_of_spaced hws hspaced
      obtain ⟨left, hleft⟩ := hdecorator ▸ hword
      rw [← htext, ← hmore] at hleft
      cases hleft
    · have hrest : (Gap.scan c).next.rest = lead ++ (w.toList ++ (rest ++ ahead)) := by
        rw [hnext, ← htext]
        simp only [List.append_assoc]
      obtain ⟨hstart, hfirst⟩ := hbehind.of_spaced hws' hws hspaced (stops_append (stops_of_mem_typeKeywords hw) _)
        (typeKeyword_not_default hw _) hrest
      obtain ⟨v, hv, rfl⟩ := typeWord?_of_leadWord hw hfirst
      exact ⟨ws, hws, lead, hspaced, by rw [hstart, hnext], v, hv, rest, htext⟩
  · rintro ⟨ws, hws, lead, hspaced, -, w, hw, hlead⟩
    exact ⟨ws, hws, lead, hspaced, w ++ " ", mem_typeKeywords_of_typeWord? hw, hlead⟩


end

/-! ### What is taken over -/

/-- The nodes of the statements of a text. -/
def topsIn (path text : String) : List Node := (tree (dialectOf path) text).children.filter isTop

/-- The statement that a node stands for. -/
def statementOf (path text : String) (n : Node) : Statement :=
  { kind := n.kind, name := declaredName text n, span := .ofBounds n.start n.stop, text := n.textIn text,
    fileName := path }

/-- Whether a statement is an interface, a type alias or an ambient declaration, bare or exported. -/
def declaresTypes (n : Node) : Bool :=
  isTypeKind n.kind || (n.kind == "export_statement" && (n.child? .declaration).any fun d => isTypeKind d.kind)

/-- The nodes of the statements that are taken over. -/
def carriedFrom (path text : String) : List Node :=
  (topsIn path text).filter fun n => isTypeOnly (statementOf path text n)

/-- An export is spelled as what it is: a declaration of types is plain, and what has no declaration does not look like
one. -/
def Conforms (text : String) (n : Node) : Prop :=
  match n.child? .declaration with
  | some d => isTypeKind d.kind = true → Plain text n d
  | none => ¬ SpellsTypes (n.textIn text).toList

private theorem statementsIn_eq (path text : String) : statementsIn path text = (topsIn path text).map
    (statementOf path text) :=
  map_statementsOf (statementOf path text) (tree (dialectOf path) text)

private theorem branch_of_clean {path text : String} (h : Clean path text) {n : Node} (hn : n ∈ topsIn path text)
    (hkind : n.kind ≠ "hash_bang_line") : n = .branch n.kind n.field n.start n.stop n.children := by
  obtain ⟨nodes, texts, hreads⟩ := reads_of_clean h
  obtain ⟨comments, nodes', htree, hnodes, -⟩ := tree_spec (dialectOf path) text
  obtain rfl := hnodes _ _ hreads
  obtain ⟨hmem, htop⟩ := List.mem_filter.1 hn
  rw [htree] at hmem
  rcases mem_weaveAll hmem with ⟨c, rfl⟩ | ⟨m, hm, comments', rfl⟩
  · cases htop
  · rw [kind_weave] at hkind
    rw [branch_of_reads hreads m hm hkind, weave]
    rfl

private theorem isTypeOnly_of_isTypeKind {s : Statement} (h : isTypeKind s.kind = true) : isTypeOnly s = true := by
  unfold isTypeKind typeWord? at h
  unfold isTypeOnly
  split at h <;> simp_all

private theorem isTypeOnly_eq_false {s : Statement} (h : isTypeKind s.kind = false)
    (hexport : s.kind ≠ "export_statement") : isTypeOnly s = false := by
  unfold isTypeOnly
  split
  all_goals simp_all [isTypeKind, typeWord?]

section

variable {path text : String} {n d : Node}

private theorem mem_nodes_of_mem_topsIn (hn : n ∈ topsIn path text) : n ∈ (tree (dialectOf path) text).nodes :=
  Node.mem_nodes_of_mem_children (List.mem_filter.1 hn).1 n.mem_nodes_self

private theorem isTypeOnly_statementOf (h : Clean path text) (hn : n ∈ topsIn path text)
    (hkind : n.kind = "export_statement") :
    isTypeOnly (statementOf path text n) = true ↔ SpellsTypes (n.textIn text).toList := by
  have hbranch := branch_of_clean h hn (by rw [hkind]; decide)
  obtain ⟨c, ahead, hexported, -, hword⟩ := text_of_exported (mem_nodes_of_mem_topsIn hn) hkind hbranch
  exact isTypeOnly_iff hkind ⟨_, hexported.leadWord_mem, hword⟩

/-- A statement is taken over rightly if and only if it is no export, or conforms to how it is spelled. -/
private theorem isTypeOnly_eq_declaresTypes_iff (h : Clean path text) (hn : n ∈ topsIn path text) :
    isTypeOnly (statementOf path text n) = declaresTypes n ↔ (n.kind = "export_statement" → Conforms text n) := by
  by_cases hkind : n.kind = "export_statement"
  · have hbranch := branch_of_clean h hn (by rw [hkind]; decide)
    have hspelled := isTypeOnly_statementOf h hn hkind
    have hdeclares : declaresTypes n = (n.child? .declaration).any fun d => isTypeKind d.kind := by
      rw [declaresTypes, hkind]
      rfl
    rw [Bool.eq_iff_iff, hspelled, hdeclares, imp_iff_right hkind, Conforms]
    cases hd : n.child? .declaration with
    | none => simp
    | some d =>
      have hplain := spellsTypes_iff (mem_nodes_of_mem_topsIn hn) hkind hbranch hd
      have htypes : Plain text n d → isTypeKind d.kind = true := by
        rintro ⟨-, -, -, -, -, w, hw, -⟩
        rw [isTypeKind, hw]
        rfl
      rw [hplain, Option.any_some]
      exact ⟨fun h => h.2, fun h => ⟨htypes, h⟩⟩
  · refine iff_of_true ?_ fun h => absurd h hkind
    have hbare : declaresTypes n = isTypeKind n.kind := by
      rw [declaresTypes, beq_false_of_ne hkind, Bool.false_and, Bool.or_false]
    rw [hbare]
    cases htypes : isTypeKind n.kind with
    | true => exact isTypeOnly_of_isTypeKind htypes
    | false => exact isTypeOnly_eq_false htypes hkind

/-- Of declarations without an error, the interfaces, type aliases and ambient declarations, bare and exported, are what
stands before the compiled statements, if and only if all exports conform to how they are spelled: a comment, a
decorator or a line end in the wrong place keeps a declaration of types from being taken over, and an export of types
that declares none is taken over. -/
theorem typePrelude_carries_iff (h : Clean path text) (compiled : List Statement) :
    typePrelude compiled (statementsIn path text) =
        .ok (render ((carriedFrom path text).map (statementOf path text) ++ compiled)) ∧
      (carriedFrom path text = (topsIn path text).filter declaresTypes ↔
        ∀ n ∈ topsIn path text, n.kind = "export_statement" → Conforms text n) := by
  constructor
  · have hnone : (statementsIn path text).find? (·.kind == "ERROR") = none := by
      rw [List.find?_eq_none]
      intro s hs hkind
      exact h s hs (beq_iff_eq.1 hkind)
    rw [typePrelude, hnone, statementsIn_eq, List.filter_map]
    rfl
  · constructor
    · intro heq n hn
      refine (isTypeOnly_eq_declaresTypes_iff h hn).1 ?_
      have hmem : n ∈ carriedFrom path text ↔ n ∈ (topsIn path text).filter declaresTypes := by rw [heq]
      rw [carriedFrom, List.mem_filter, List.mem_filter, and_iff_right hn, and_iff_right hn] at hmem
      exact Bool.eq_iff_iff.2 hmem
    · intro hall
      exact List.filter_congr fun n hn => (isTypeOnly_eq_declaresTypes_iff h hn).2 (hall n hn)

/-- Of an interface whose keyword has a tab behind it nothing is taken over. -/
theorem typePrelude_carries_iff_of_tab :
    Clean "/r/a-temp.ts" "export interface\tA \x7b\x7d" ∧
      typePrelude [] (statementsIn "/r/a-temp.ts" "export interface\tA \x7b\x7d") = .ok "" ∧
      ((topsIn "/r/a-temp.ts" "export interface\tA \x7b\x7d").filter declaresTypes).length = 1 ∧
      ∃ n ∈ topsIn "/r/a-temp.ts" "export interface\tA \x7b\x7d",
        n.kind = "export_statement" ∧ ¬ Conforms "export interface\tA \x7b\x7d" n := by
  have hclean : Clean "/r/a-temp.ts" "export interface\tA \x7b\x7d" := by decide +kernel
  have hone : ((topsIn "/r/a-temp.ts" "export interface\tA \x7b\x7d").filter declaresTypes).length = 1 := by
    decide +kernel
  have hnone : (carriedFrom "/r/a-temp.ts" "export interface\tA \x7b\x7d").length = 0 := by decide +kernel
  obtain ⟨hcontent, hcarried⟩ := typePrelude_carries_iff hclean []
  rw [List.length_eq_zero_iff.1 hnone] at hcontent hcarried
  refine ⟨hclean, hcontent, hone, ?_⟩
  by_contra hall
  push Not at hall
  rw [← hcarried.2 hall] at hone
  cases hone

end

end ScriptHost.Merge
