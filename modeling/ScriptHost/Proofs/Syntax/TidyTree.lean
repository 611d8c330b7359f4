import ScriptHost.Analysis.SyntaxEngine
import ScriptHost.Proofs.Syntax.Layout
import ScriptHost.Proofs.Syntax.Tree

/-!
# The trees of scripts are tidy

In the tree of a text the nodes below a construct stand within it, one after the other, and names are tokens with a text
(`tidy_tree`).  This holds of every text, whether it can be read without an error or not.
-/

namespace ScriptHost.Syntax.Script

open ScriptHost.Text
open Analysis (isNameKind)

/-! ### The script grammar -/

private theorem faithful_markOptional : Faithful isNameKind markOptional where
  start := harmless_markOptional.start
  stop n := by
    unfold markOptional
    split <;> rfl
  tidy h := by
    unfold markOptional
    split
    · cases h with
      | branch hkind horder hchildren =>
        refine .branch ?_ horder hchildren
        split <;> rfl
    · exact h
  clear {n c} h := by
    unfold markOptional
    split
    · cases h with
      | before h => exact .before h
      | behind h => exact .behind h
      | inside hstart hstop hchildren => exact .inside hstart hstop hchildren
    · exact h

private theorem asTargets_eq_map (nodes : List Node) : asTargets nodes = nodes.map asTarget := by
  induction nodes with
  | nil => rw [asTargets, List.map_nil]
  | cons n rest ih => rw [asTargets, ih, List.map_cons]

/-- A token that becomes a target keeps its text, and it is a name only if it was one. -/
theorem asTarget_leaf (kind : String) (named : Bool) (place : Option Field) (start : Nat) (text : String) :
    ∃ kind', asTarget (.leaf kind named place start text) = .leaf kind' named place start text ∧
      (isNameKind kind' = true → isNameKind kind = true) := by
  unfold asTarget
  split
  case h_6 =>
    rename_i heq
    cases heq
    exact ⟨_, rfl, fun h => absurd h (by decide)⟩
  case h_7 => exact ⟨_, rfl, id⟩
  all_goals rename_i heq; cases heq

/-- A construct that becomes a target covers the same, and so do the nodes below it. -/
private theorem asTarget_branch (kind : String) (place : Option Field) (start stop : Nat) (children : List Node) :
    ∃ kind', (isNameKind kind' = true → isNameKind kind = true) ∧
      (asTarget (.branch kind place start stop children) = .branch kind' place start stop children ∨
        asTarget (.branch kind place start stop children) = .branch kind' place start stop (asTargets children)) := by
  unfold asTarget
  split
  case h_5 =>
    rename_i heq
    cases heq
    exact ⟨_, fun h => absurd h (by decide), .inl rfl⟩
  case h_6 =>
    rename_i heq
    cases heq
  case h_7 => exact ⟨_, id, .inl rfl⟩
  all_goals
    rename_i heq
    cases heq
    exact ⟨_, fun h => absurd h (by decide), .inr rfl⟩

private theorem stop_asTarget (n : Node) : (asTarget n).stop = n.stop := by
  unfold asTarget
  split <;> rfl

private theorem inOrder_asTargets {lo hi : Nat} {nodes : List Node} (h : InOrder Node.start Node.stop lo hi nodes) :
    InOrder Node.start Node.stop lo hi (asTargets nodes) := by
  rw [asTargets_eq_map]
  refine .map ?_
  simpa only [harmless_asTarget.start, stop_asTarget] using h

theorem forall_mem_asTargets {P : Node → Prop} {nodes : List Node} (h : ∀ n ∈ nodes, P (asTarget n)) :
    ∀ n ∈ asTargets nodes, P n := by
  rw [asTargets_eq_map]
  exact List.forall_mem_map.2 h

private theorem tidy_asTarget {n : Node} (h : n.Tidy isNameKind) : (asTarget n).Tidy isNameKind := by
  induction h with
  | leaf h =>
    rename_i kind named place start text
    obtain ⟨kind', heq, hname⟩ := asTarget_leaf kind named place start text
    rw [heq]
    exact .leaf fun hkind => h (hname hkind)
  | branch hkind horder hchildren ih =>
    rename_i kind place start stop children
    obtain ⟨kind', hname, heq | heq⟩ := asTarget_branch kind place start stop children
    all_goals
      have hkind' : isNameKind kind' = false :=
        Bool.eq_false_iff.2 fun hkind' => Bool.false_ne_true (hkind.symm.trans (hname hkind'))
      rw [heq]
    · exact .branch hkind' horder hchildren
    · exact .branch hkind' (inOrder_asTargets horder) (forall_mem_asTargets ih)

private theorem clear_asTarget {n : Node} {c : Comment} (h : c.Clear n) : c.Clear (asTarget n) := by
  induction h with
  | before h => exact .before (by rwa [harmless_asTarget.start])
  | behind h => exact .behind (by rwa [stop_asTarget])
  | inside hstart hstop hchildren ih =>
    rename_i kind place start stop children
    obtain ⟨kind', -, heq | heq⟩ := asTarget_branch kind place start stop children
    · rw [heq]
      exact .inside hstart hstop hchildren
    · rw [heq]
      exact .inside hstart hstop (forall_mem_asTargets ih)

private theorem faithful_asTarget : Faithful isNameKind asTarget :=
  ⟨harmless_asTarget.start, stop_asTarget, tidy_asTarget, clear_asTarget⟩

private theorem names_grammar (d : Dialect) : Names isNameKind (grammar d) where
  namesTokens x := by
    cases x with
    | binary level => cases level using cases_level <;> rfl
    | _ => cases d <;> rfl
  recasts x f hf := by
    rcases eq_of_mem_recasts hf with rfl | rfl
    · exact faithful_asTarget
    · exact faithful_markOptional

/-! ### Progress through a text -/

/-- All that has been read of a text from one cursor on is laid out in the order of the text. -/
structure Progress.Laid (start : Cursor) (p : Progress) : Prop where
  leads : start.LeadsTo p.place
  layout : Layout isNameKind start.offset p.place.offset p.statements.reverse p.comments.reverse

/-- No name kind is a single character. -/
private theorem isNameKind_singleton (c : Char) : isNameKind (String.singleton c) = false := by
  have hne : ∀ kind : String, kind.length ≠ 1 → (String.singleton c == kind) = false := by
    intro kind hlength
    refine beq_false_of_ne fun heq => hlength ?_
    rw [← heq, String.length_singleton]
  rw [isNameKind, hne _ (by decide), hne _ (by decide), hne _ (by decide), hne _ (by decide)]
  rfl

/-- A token that is passed over is taken off the front of what is ahead. -/
theorem strayToken_spec {gap : Gap} (h : gap.next.rest ≠ []) : ∃ kind named taken left,
    strayToken gap = (.leaf kind named none gap.next.offset (String.ofList taken), gap.next.past taken left) ∧
      taken ++ left = gap.next.rest ∧ taken ≠ [] ∧ (isNameKind kind = true → named = true) := by
  unfold strayToken
  split
  · exact absurd ‹_› h
  · rename_i c rest heq
    rw [heq]
    dsimp only
    split
    · rename_i taken hword
      exact ⟨_, true, taken.1, taken.2, rfl, takeWord?_append hword, takeWord?_ne_nil hword, fun _ => rfl⟩
    · rename_i taken hword hnumber
      exact ⟨_, true, taken.1, taken.2, rfl, takeNumber?_append hnumber, takeNumber?_ne_nil hnumber, fun _ => rfl⟩
    · have hbody := span_append (fun d => d != c && d != '\n') rest
      split
      · rename_i quote left _ hleft
        rw [hleft] at hbody
        refine ⟨_, true, _, left, rfl, ?_, List.cons_ne_nil _ _, fun _ => rfl⟩
        rw [List.cons_append, List.append_assoc, List.singleton_append, hbody]
      · refine ⟨String.singleton c, false, [c], rest, by rw [String.singleton_eq_ofList], rfl, List.cons_ne_nil _ _, ?_⟩
        rw [isNameKind_singleton]
        exact nofun

/-- One token is passed over, with the gap before it. -/
def Progress.pass (p : Progress) : Progress :=
  ⟨(strayToken (Gap.scan p.place)).2, (strayToken (Gap.scan p.place)).1 :: p.statements,
    (Gap.scan p.place).comments ++ p.comments⟩

/-- The gap at the end of a text is passed. -/
def Progress.finish (p : Progress) : Progress :=
  ⟨(Gap.scan p.place).next, p.statements, (Gap.scan p.place).comments ++ p.comments⟩

/-- What is passed over first: the rest of the text if it is a gap, nothing if a statement can be read, and else a token.
-/
private theorem passOver_succ (d : Dialect) (fuel reach : Nat) (p : Progress) :
    ((Gap.scan p.place).next.rest = [] ∧ passOver d (fuel + 1) reach p = p.finish) ∨
      (Gap.scan p.place).next.rest ≠ [] ∧
        ((∃ s, readStatement d p.place = .matched s) ∧ passOver d (fuel + 1) reach p = p ∨
          ∃ reach', passOver d (fuel + 1) reach p = passOver d fuel reach' p.pass) := by
  rw [passOver]
  dsimp only
  split
  · rename_i hempty
    exact .inl ⟨List.isEmpty_iff.1 hempty, rfl⟩
  · rename_i hempty
    refine .inr ⟨fun hnil => hempty (List.isEmpty_iff.2 hnil), ?_⟩
    split
    · exact .inr ⟨reach, rfl⟩
    · cases hread : readStatement d p.place with
      | matched s => exact .inl ⟨⟨s, rfl⟩, rfl⟩
      | failed later => exact .inr ⟨later + 1, rfl⟩

/-- Passing over keeps what is kept when a token or the gap at the end is passed. -/
theorem passOver_keeps {I : Progress → Prop} (hpass : ∀ {p}, (Gap.scan p.place).next.rest ≠ [] → I p → I p.pass)
    (hfinish : ∀ {p}, I p → I p.finish) (d : Dialect) (fuel reach : Nat) {p : Progress} (h : I p) :
    I (passOver d fuel reach p) := by
  induction fuel generalizing reach p with
  | zero => exact h
  | succ fuel ih =>
    rcases passOver_succ d fuel reach p with ⟨-, heq⟩ | ⟨hrest, ⟨-, heq⟩ | ⟨reach', heq⟩⟩
    · rw [heq]
      exact hfinish h
    · rw [heq]
      exact h
    · rw [heq]
      exact ih reach' (hpass hrest h)

namespace Progress.Laid

variable {start : Cursor} {p : Progress}

theorem refl (c : Cursor) : Laid c ⟨c, [], []⟩ := ⟨.refl c, .nil le_rfl⟩

/-- What is read behind all that has been read is laid out behind it. -/
private theorem read (h : Laid start p) {c : Cursor} (nodes : List Node) {comments : List Comment}
    (hc : p.place.LeadsTo c) (hlayout : Layout isNameKind p.place.offset c.offset nodes.reverse comments.reverse) :
    Laid start ⟨c, nodes ++ p.statements, comments ++ p.comments⟩ where
  leads := h.leads.trans hc
  layout := by
    rw [List.reverse_append, List.reverse_append]
    exact h.layout.append hlayout

/-- A token is passed over. -/
private theorem pass (h : Laid start p) (hrest : (Gap.scan p.place).next.rest ≠ []) : Laid start p.pass := by
  obtain ⟨kind, named, taken, left, htoken, happend, hne, hname⟩ := strayToken_spec hrest
  have hlayout := layout_token (Gap.inOrder_scan p.place) fun hkind : isNameKind kind = true => ⟨hname hkind, hne⟩
  unfold Progress.pass
  rw [htoken]
  exact h.read [_] ((Gap.leadsTo_scan p.place).trans (Cursor.leadsTo_past happend)) hlayout

/-- The gap at the end of a text is passed. -/
private theorem finish (h : Laid start p) : Laid start p.finish :=
  h.read [] (Gap.leadsTo_scan p.place)
    ⟨.nil (Gap.leadsTo_scan p.place).offset_le, Gap.inOrder_scan p.place, nofun, fun _ _ => nofun⟩

theorem passOver (h : Laid start p) (d : Dialect) (fuel reach : Nat) : Laid start (passOver d fuel reach p) :=
  passOver_keeps (I := Laid start) (fun hrest h => h.pass hrest) (fun h => h.finish) d fuel reach h

end Progress.Laid

/-- What has been passed over stays. -/
private theorem suffix_passOver (d : Dialect) (fuel reach : Nat) (p : Progress) :
    p.statements <:+ (passOver d fuel reach p).statements :=
  passOver_keeps (I := fun p' => p.statements <:+ p'.statements) (fun _ h => h.trans (List.suffix_cons ..)) id d fuel
    reach List.suffix_rfl

/-- Where no statement can be read, at least one token is passed over. -/
private theorem passOver_ne_nil {d : Dialect} {p : Progress} {later : Nat} (hrest : (Gap.scan p.place).next.rest ≠ [])
    (hfailed : readStatement d p.place = .failed later) (fuel reach : Nat) :
    (passOver d (fuel + 1) reach p).statements ≠ [] := by
  rcases passOver_succ d fuel reach p with ⟨hnil, -⟩ | ⟨-, ⟨⟨s, hmatched⟩, -⟩ | ⟨reach', heq⟩⟩
  · exact absurd hnil hrest
  · rw [hfailed] at hmatched
    cases hmatched
  · rw [heq]
    exact (suffix_passOver d fuel reach' p.pass).ne_nil (List.cons_ne_nil _ _)

/-- Every token that is passed over has at least one character. -/
private theorem length_pass {p : Progress} (hrest : (Gap.scan p.place).next.rest ≠ []) :
    p.pass.statements.length + p.pass.place.rest.length ≤ p.statements.length + p.place.rest.length := by
  obtain ⟨kind, named, taken, left, htoken, happend, hne, -⟩ := strayToken_spec hrest
  have hgap := (Gap.leadsTo_scan p.place).length_le
  have hleft : p.pass.place.rest = left := by
    rw [Progress.pass, htoken]
    rfl
  have hpos := List.length_pos_iff.2 hne
  rw [← happend, List.length_append] at hgap
  rw [hleft, show p.pass.statements.length = p.statements.length + 1 from rfl]
  omega

private theorem length_passOver (d : Dialect) (fuel reach : Nat) (p : Progress) :
    (passOver d fuel reach p).statements.length + (passOver d fuel reach p).place.rest.length ≤
      p.statements.length + p.place.rest.length :=
  passOver_keeps
    (I := fun p' => p'.statements.length + p'.place.rest.length ≤ p.statements.length + p.place.rest.length)
    (fun hrest h => (length_pass hrest).trans h)
    (fun {p'} h => (Nat.add_le_add_left (Gap.leadsTo_scan p'.place).length_le _).trans h) d fuel reach le_rfl

namespace Progress

/-- What has been passed over is made an error. -/
def asError (p : Progress) : Node :=
  .branch "ERROR" none ((p.statements.reverse.head?.map Node.start).getD 0) ((p.statements.head?.map Node.stop).getD 0)
    p.statements.reverse

variable {start : Cursor} {p : Progress}

private theorem Laid.asError (h : Laid start p) (hne : p.statements ≠ []) :
    Laid start ⟨p.place, [p.asError], p.comments⟩ := by
  refine ⟨h.leads, ?_⟩
  obtain ⟨place, statements, comments⟩ := p
  cases statements with
  | nil => exact absurd rfl hne
  | cons last others =>
    have hlayout := h.layout
    have hmem : last ∈ (last :: others).reverse := List.mem_reverse.2 (List.mem_cons_self ..)
    obtain ⟨hlo, hle, hhi⟩ := hlayout.nodesInOrder.within last hmem
    have hfirst : ((last :: others).reverse.head?.map Node.start).getD 0 =
        ((last :: others).reverse.head?.map Node.start).getD last.stop := by
      rw [List.head?_reverse, List.getLast?_eq_some_getLast (List.cons_ne_nil last others)]
      rfl
    have hlast : ∀ n ∈ (last :: others).reverse, n.stop ≤ last.stop := by
      obtain ⟨hothers, -⟩ := List.pairwise_cons.1 (List.pairwise_reverse.1 hlayout.nodesInOrder.pairwise)
      intro n hn
      rcases List.mem_cons.1 (List.mem_reverse.1 hn) with rfl | hn
      · exact le_rfl
      · exact (hothers n hn).trans hle
    have hedge : ∀ c ∈ comments.reverse, c.stop ≤ last.stop ∨ last.stop ≤ c.start := fun c hc =>
      ((hlayout.clear c hc last hmem).edges hle).2
    exact (show Layout isNameKind _ _ ([] ++ _) _ from hlayout).close rfl hfirst (.nil (hlo.trans hle)) hlast hhi hedge

end Progress

/-- What is read of a text is laid out in its order, with or without errors. -/
private theorem laid_readAll {d : Dialect} {fuel : Nat} {start : Cursor} {p : Progress} (h : p.Laid start)
    (hfuel : p.place.rest.length < fuel) :
    ∃ c, Progress.Laid start ⟨c, (readAll d fuel p).statements, (readAll d fuel p).comments⟩ := by
  induction fuel generalizing p with
  | zero => exact absurd hfuel (Nat.not_lt_zero _)
  | succ fuel ih =>
    unfold readAll
    dsimp only
    split
    · exact ⟨_, h.finish⟩
    · rename_i hrest
      replace hrest : (Gap.scan p.place).next.rest ≠ [] := fun hnil => hrest (by rw [hnil]; rfl)
      cases hread : readStatement d p.place with
      | matched s =>
        dsimp only
        obtain ⟨-, hleads, hlt⟩ := Rule.leadsTo_of_read (leads_grammar d) begins_statement hread
        have hgap := Gap.leadsTo_scan p.place
        have hlayout := Rule.layout_of_read (r := .ref Symbol.statement) (names_grammar d) rfl
          (List.forall_mem_nil _) hread
        exact ih (h.read _ (hgap.trans hleads) hlayout) (by
          have hlength := hleads.length_lt hlt
          have hgapLength := hgap.length_le
          show s.tail.rest.length < fuel
          omega)
      | failed reach =>
        dsimp only
        -- some text is ahead, so the fuel lasts for a token to be passed over
        have hahead : 0 < p.place.rest.length :=
          (List.length_pos_iff.2 hrest).trans_le (Gap.leadsTo_scan p.place).length_le
        obtain ⟨fuel, rfl⟩ : ∃ more, fuel = more + 1 := ⟨fuel - 1, by omega⟩
        have hne := passOver_ne_nil (p := ⟨p.place, [], []⟩) hrest hread fuel reach
        have hlength := length_passOver d (fuel + 1) reach ⟨p.place, [], []⟩
        have hpassed := ((Progress.Laid.refl p.place).passOver d (fuel + 1) reach).asError hne
        generalize passOver d (fuel + 1) reach ⟨p.place, [], []⟩ = skipped at hne hlength hpassed
        rw [if_neg (by simpa using hne)]
        refine ih (h.read [skipped.asError] hpassed.leads hpassed.layout) ?_
        have hpos := List.length_pos_iff.2 hne
        show skipped.place.rest.length < fuel + 1
        dsimp only [List.length_nil] at hlength
        omega

theorem laid_beginning (d : Dialect) (chars : List Char) : (beginning d chars).Laid ⟨0, chars⟩ := by
  unfold beginning
  split
  · rename_i s hread
    obtain ⟨-, hleads, -⟩ := Rule.leadsTo_of_read (leads_grammar d) begins_hashBang hread
    refine ⟨(Gap.leadsTo_scan _).trans hleads, ?_⟩
    exact Rule.layout_of_read (r := Rule.leaf "hash_bang_line" .hashBang) (names_grammar d) rfl
      (List.forall_mem_nil _) hread
  · exact .refl _

/-- The tree of every text is tidy. -/
theorem tidy_tree (d : Dialect) (text : String) : (tree d text).Tidy isNameKind := by
  have hbegin := laid_beginning d text.toList
  obtain ⟨c, hleads, hlayout⟩ := laid_readAll (d := d) hbegin (Nat.lt_succ_of_le hbegin.leads.length_le)
  have hend : c.offset ≤ text.utf8ByteSize := by
    have hbytes : c.offset + byteLength c.rest = 0 + byteLength text.toList := hleads.end_eq
    rw [← utf8ByteSize_ofList text.toList, String.ofList_toList] at hbytes
    omega
  have hwoven := layout_weaveAll rfl hlayout
  exact .branch rfl (hwoven.nodesInOrder.later hend) hwoven.tidy

end ScriptHost.Syntax.Script
