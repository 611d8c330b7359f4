import ScriptHost.Proofs.Analysis.Declared
import ScriptHost.Proofs.Syntax.Body

/-!
# Headers of declarations

The header that is shown of a function, class or interface ends at the first brace.  If what stands before the body is
on one line, the header is the whole of it if and only if the body begins with that brace: nothing else is lost, since
what stands before a body on one line does not end with a semicolon (`text_of_headed`).
-/

namespace ScriptHost.Analysis

open ScriptHost.Syntax ScriptHost.Text

/-! ### Trimmed texts -/

private theorem mem_dropWhile_of_neg {α : Type} {p : α → Bool} {l : List α} {a : α} (ha : a ∈ l) (hp : p a = false) :
    a ∈ l.dropWhile p := by
  rw [← List.takeWhile_append_dropWhile (p := p) (l := l), List.mem_append] at ha
  refine ha.resolve_left fun h => ?_
  exact absurd (hp.symm.trans (List.mem_takeWhile_imp h)) Bool.false_ne_true

private theorem mem_rdropWhile_of_neg {α : Type} {p : α → Bool} {l : List α} {a : α} (ha : a ∈ l) (hp : p a = false) :
    a ∈ l.rdropWhile p :=
  List.mem_reverse.2 (mem_dropWhile_of_neg (List.mem_reverse.2 ha) hp)

private theorem toList_trim (s : String) : (trim s).toList = (s.toList.dropWhile isBlank).rdropWhile isBlank := by
  rw [trim, trimEnd, trimEndWhile, trimStart, trimStartWhile, String.toList_ofList, String.toList_ofList]
  rfl

private theorem toList_trimEndWhile (p : Char → Bool) (s : String) :
    (trimEndWhile p s).toList = s.toList.rdropWhile p := by
  rw [trimEndWhile, String.toList_ofList]
  rfl

/-- The header of a text whose first brace or line end is a brace behind `before`, or comes earlier. -/
private theorem toList_header {before : List Char} (hline : '\n' ∉ before) (rest : List Char) :
    (header (String.ofList (before ++ '\x7b' :: rest))).toList =
      (((trim (String.ofList (before.takeWhile (· ≠ '\x7b')))).toList.rdropWhile (· = ';')).rdropWhile isBlank) := by
  obtain ⟨more, hmore⟩ := head?_lines hline (by decide : '\x7b' ≠ '\n') (by decide) rest
  have htake : (before ++ '\x7b' :: more).takeWhile (· ≠ '\x7b') = before.takeWhile (· ≠ '\x7b') := by
    rw [List.takeWhile_append, List.takeWhile_cons_of_neg (by simp)]
    split
    · rename_i hlength
      rw [List.append_nil]
      exact ((List.takeWhile_prefix _).eq_of_length hlength).symm
    · rfl
  rw [header, hmore, Option.getD_some, String.toList_ofList, htake]
  rw [trimEnd, toList_trimEndWhile, toList_trimEndWhile]

/-- Nothing but the text before the body is shown if and only if no other brace comes before. -/
private theorem header_eq_trim_iff {before : List Char} (hline : '\n' ∉ before) (htight : Tight before)
    (rest : List Char) :
    header (String.ofList (before ++ '\x7b' :: rest)) = trim (String.ofList before) ↔ '\x7b' ∉ before := by
  rw [← String.toList_inj, toList_header hline]
  constructor
  · intro h hmem
    have hshown : '\x7b' ∈ (trim (String.ofList before)).toList := by
      rw [toList_trim, String.toList_ofList]
      exact mem_rdropWhile_of_neg (mem_dropWhile_of_neg hmem (by decide)) (by decide)
    rw [← h] at hshown
    have htrimmed := (List.rdropWhile_prefix _ _).subset ((List.rdropWhile_prefix _ _).subset hshown)
    rw [toList_trim, String.toList_ofList] at htrimmed
    have htaken := (List.dropWhile_suffix _).subset ((List.rdropWhile_prefix _ _).subset htrimmed)
    exact absurd (List.mem_takeWhile_imp htaken) (by decide)
  · intro hmem
    have hall : before.takeWhile (· ≠ '\x7b') = before :=
      List.takeWhile_eq_self_iff.2 fun c hc => decide_eq_true (ne_of_mem_of_not_mem hc hmem)
    have hwhole : Tight (before.takeWhile isBlank ++ before.dropWhile isBlank) := by
      rwa [List.takeWhile_append_dropWhile]
    have htail : Tight (before.dropWhile isBlank) := tight_of_append hwhole
    have hsemicolon : ((before.dropWhile isBlank).rdropWhile isBlank).rdropWhile (· = ';') =
        (before.dropWhile isBlank).rdropWhile isBlank := by
      refine List.rdropWhile_eq_self_iff.2 fun hne hlast => htail ?_
      rw [List.getLast?_eq_some_getLast hne, of_decide_eq_true hlast]
    rw [hall, toList_trim, String.toList_ofList, hsemicolon, List.rdropWhile_idempotent]

/-! ### Declarations with a body -/

open Script (isHeadedKind isBodyKind isAroundBody)

variable {s d n b : Node}

private theorem isAroundBody_of_wraps (hw : Wraps s d) (hd : isHeadedKind d.kind = true) :
    isAroundBody s.kind = true := by
  cases hw with
  | bare => rw [isAroundBody, hd, Bool.true_or, Bool.true_or]
  | exported hexport => rw [hexport]; rfl
  | ambient hambient => rw [hambient]; rfl

private theorem exists_mem_children_of_wraps (hw : Wraps s d) (hb : b ∈ d.children) : ∃ k, k ∈ s.children := by
  cases hw with
  | bare => exact ⟨b, hb⟩
  | exported _ hc => exact ⟨_, hc⟩
  | ambient _ hc => exact ⟨_, (List.mem_filter.1 (List.mem_of_mem_head? hc)).1⟩

/-- From the start of a statement around a body what stands before the body leads to a brace, and that does not end with
a semicolon if it is on one line. -/
private theorem leadsTo_of_headed {dialect : Script.Dialect} {source : String}
    (hs : s ∈ (Script.tree dialect source).children) (hw : Wraps s d) (hd : isHeadedKind d.kind = true)
    (hb : b ∈ d.children) (hbody : isBodyKind b.kind = true) : ∃ before behind ahead,
      (Cursor.mk 0 source.toList).LeadsTo ⟨s.start, before ++ '\x7b' :: behind ++ ahead⟩ ∧
        s.start + byteLength before = b.start ∧ b.start + byteLength ('\x7b' :: behind) = s.stop ∧
          (Tight before ∨ ∃ c ∈ before, isLineEnd c = true) := by
  have hs' : s ∈ (Script.tree dialect source).nodes := Node.mem_nodes_of_mem_children hs s.mem_nodes_self
  have hds : d ∈ s.nodes := mem_nodes_of_wraps hw
  have hb' : b ∈ d.nodes := Node.mem_nodes_of_mem_children hb b.mem_nodes_self
  obtain ⟨k, hk⟩ := exists_mem_children_of_wraps hw hb
  -- the statement starts before a sealed place, from which only white space and comments lead to the brace
  obtain ⟨hstidy, -⟩ := (Script.tidy_tree dialect source).of_mem_nodes hs'
  obtain ⟨hdtidy, hstart, hdstop⟩ := hstidy.of_mem_nodes hds
  obtain ⟨-, -, hbstop⟩ := hdtidy.of_mem_nodes hb'
  obtain ⟨⟨ahead, hfirst⟩, ahead', hlast⟩ :=
    ((Script.placed_tree dialect source).of_mem_nodes hs').here hk (isAroundBody_of_wraps hw hd)
  obtain ⟨c, more, hfollows⟩ :=
    ((Script.headed_tree dialect source).of_mem_nodes (Node.mem_nodes_trans hs' hds)).here hb hd b hb hbody
  have hgap : c.LeadsTo ⟨b.start, '\x7b' :: more⟩ := hfollows.next_eq ▸ Gap.leadsTo_scan c
  have hbehind : (Cursor.mk 0 source.toList).LeadsTo ⟨b.start + 1, more⟩ :=
    (hfollows.leads.trans hgap).trans ⟨['\x7b'], rfl, rfl⟩
  obtain ⟨taken, htaken, hc⟩ := hfirst.of_le hfollows.leads (hstart.trans hfollows.le)
  obtain ⟨taken', htaken', hbrace⟩ := hgap
  obtain ⟨behind, rfl, hstop⟩ := hbehind.of_le hlast (hfollows.lt.trans_le (hbstop.trans hdstop))
  dsimp only at htaken hc htaken' hbrace hstop
  have hahead : ahead = taken ++ taken' ++ '\x7b' :: behind ++ ahead' := by
    rw [htaken, htaken']
    simp only [List.append_assoc, List.cons_append]
  refine ⟨taken ++ taken', behind, ahead', hahead ▸ hfirst, ?_, ?_, ?_⟩
  · rw [byteLength_append]
    omega
  · rw [byteLength_cons, show '\x7b'.utf8Size = 1 from rfl]
    omega
  · obtain ⟨front, hfront, -⟩ := hfirst
    dsimp only at hfront
    have hsealed := Gap.sealed_scan ⟨front ++ taken, by rw [hfront, htaken, List.append_assoc]⟩ hfollows.isSealed
    rw [hfollows.next_eq] at hsealed
    cases hsealed with
    | tight whole h htight =>
      left
      have hwhole : whole = front ++ (taken ++ taken') := by
        refine List.append_cancel_right (h.trans ?_)
        rw [hfront, htaken, htaken']
        simp only [List.append_assoc]
      exact tight_of_append (hwhole ▸ htight)
    | @broken between x h hx hline =>
      have hbetween : between = taken' := List.append_cancel_right (h.trans htaken')
      exact .inr ⟨x, List.mem_append_right _ (hbetween ▸ hx), hline⟩
    | atEnd h => exact absurd (h _ rfl) (by decide)

theorem slice_of_leadsTo {source : String} {i : Nat} {text rest : List Char}
    (h : (Cursor.mk 0 source.toList).LeadsTo ⟨i, text ++ rest⟩) :
    slice source i (i + byteLength text) = String.ofList text := by
  obtain ⟨front, hfront, hlength⟩ := h
  dsimp only at hfront hlength
  rw [← String.ofList_toList (s := source), hfront, hlength, Nat.zero_add, ← List.append_assoc]
  exact slice_append front text rest

/-- The text of a statement around a body has a brace behind what stands before the body. -/
theorem text_of_headed {dialect : Script.Dialect} {source : String}
    (hs : s ∈ (Script.tree dialect source).children) (hw : Wraps s d) (hd : isHeadedKind d.kind = true)
    (hb : b ∈ d.children) (hbody : isBodyKind b.kind = true) : ∃ before behind,
      s.textIn source = String.ofList (before ++ '\x7b' :: behind) ∧
        slice source s.start b.start = String.ofList before ∧ (Tight before ∨ ∃ c ∈ before, isLineEnd c = true) := by
  obtain ⟨before, behind, ahead, hleads, hstart, hstop, htight⟩ := leadsTo_of_headed hs hw hd hb hbody
  refine ⟨before, behind, ?_, ?_, htight⟩
  · have htext : s.textIn source = slice source s.start s.stop := by
      obtain ⟨k, hk⟩ := exists_mem_children_of_wraps hw hb
      cases s with
      | leaf => cases hk
      | branch => rfl
    rw [htext, ← hstop, ← hstart, Nat.add_assoc, ← byteLength_append]
    exact slice_of_leadsTo hleads
  · rw [List.append_assoc] at hleads
    rw [← hstart]
    exact slice_of_leadsTo hleads

namespace SyntaxEngine

variable {view : ScriptView} {e : SyntaxEngine} {asked file source : String}

/-- Of the declarations of a name the one that is named by the node `n` in a file is found first. -/
def FoundFirst (view : ScriptView) (given : String → Option ParsedScript) (asked name file : String) (n : Node) :
    Prop :=
  (declared view given asked name).head?.map (fun (found : String × Declaration) => (found.1, found.2.nameSpan)) =
    some (file, .ofBounds n.start n.stop)

/-- What is shown of a name that a declaration with a body binds, bare or behind words that export or declare it: if
what stands before the body is on one line, that is shown, trimmed, if and only if there is no brace in it. -/
theorem display_eq_iff (he : Consistent view e) {offset : Nat} {target : Target}
    (htarget : nameAt (given view e) asked offset = some target) (htracked : view.version file ≠ untracked)
    (hsource : view.snapshot file = some source)
    (hs : s ∈ (Script.tree (dialectOf file) source).children) (hw : Wraps s d) (hn : Binds d n)
    (hfirst : FoundFirst view (given view e) asked target.name file n) (hd : isHeadedKind d.kind = true)
    (hb : b ∈ d.children) (hbody : isBodyKind b.kind = true)
    (hline : ∀ c ∈ (slice source s.start b.start).toList, isLineEnd c = false) :
    ∃ info, (engine.quickInfo view asked offset e).1 = some info ∧ info.span = target.span ∧
      (info.display = trim (slice source s.start b.start) ↔ '\x7b' ∉ (slice source s.start b.start).toList) := by
  have hgiven := given_of_consistent he htracked hsource
  obtain ⟨⟨file', found⟩, hhead, heq⟩ := Option.map_eq_some_iff.1 hfirst
  obtain ⟨rfl, hspan⟩ := Prod.mk.inj heq
  have hanswer := (Answers.quickInfoAt asked offset e (s := given view e) rfl).1
  rw [htarget, Option.bind_some, hhead] at hanswer
  refine ⟨_, hanswer, rfl, ?_⟩
  -- the declaration that is found is the one in the statement
  obtain ⟨⟨file, script⟩, hsearched, hmem⟩ := List.mem_flatMap.1 (List.mem_of_mem_head? hhead)
  obtain ⟨d', hd', heq⟩ := List.mem_map.1 hmem
  obtain ⟨rfl, rfl⟩ := Prod.mk.inj heq
  obtain rfl := Option.some.inj ((mem_searched.1 hsearched).2.symm.trans hgiven)
  obtain ⟨above, kind, rfl⟩ := eq_described_of_span hs hw hn (List.mem_filter.1 hd').1 hspan
  obtain ⟨before, behind, htext, hbefore, htight⟩ := text_of_headed hs hw hd hb hbody
  rw [hbefore, String.toList_ofList] at hline ⊢
  have htight : Tight before := htight.resolve_right fun ⟨c, hc, hbreak⟩ =>
    Bool.false_ne_true ((hline c hc).symm.trans hbreak)
  show header (s.textIn source) = trim (String.ofList before) ↔ '\x7b' ∉ before
  rw [htext]
  exact header_eq_trim_iff (fun hmem => Bool.false_ne_true (hline _ hmem).symm) htight behind

/-- Of a function with an object type among its parameters, not all that stands before the body is shown. -/
theorem display_eq_iff_of_object_type : ∃ (view : ScriptView) (source : String) (target : Target) (s d n b : Node)
    (info : QuickInfo),
    Consistent view fresh ∧ nameAt (given view fresh) "/a.ts" 9 = some target ∧ view.version "/a.ts" ≠ untracked ∧
      view.snapshot "/a.ts" = some source ∧ source = "function f(a: \x7b x: number \x7d): void \x7b\x7d" ∧
      s ∈ (Script.tree (dialectOf "/a.ts") source).children ∧ Wraps s d ∧ Binds d n ∧
      FoundFirst view (given view fresh) "/a.ts" target.name "/a.ts" n ∧ isHeadedKind d.kind = true ∧
      b ∈ d.children ∧ isBodyKind b.kind = true ∧
      (∀ c ∈ (slice source s.start b.start).toList, isLineEnd c = false) ∧
      trim (slice source s.start b.start) = "function f(a: \x7b x: number \x7d): void" ∧
      (engine.quickInfo view "/a.ts" 9 fresh).1 = some info ∧ info.span = target.span ∧
      info.display ≠ trim (slice source s.start b.start) := by
  let source := "function f(a: \x7b x: number \x7d): void \x7b\x7d"
  let view : ScriptView :=
    { names := ["/a.ts"]
      version := fun name => if name = "/a.ts" then 1 else untracked
      snapshot := fun name => if name = "/a.ts" then some source else none }
  have hparse : ((Script.tree (dialectOf "/a.ts") source).children.any fun s =>
      s.kind == "function_declaration" && s.start == 0 &&
        (s.children.any fun n => n.field == some .name && isNameKind n.kind && n.start == 9 && n.stop == 10) &&
          s.children.any fun b => b.kind == "statement_block" && b.start == 35) = true := by
    decide +kernel
  have htarget : ∃ target, nameAt (given view fresh) "/a.ts" 9 = some target ∧ target.name = "f" := by
    have hname : (nameAt (given view fresh) "/a.ts" 9).map (·.name) = some "f" := by decide +kernel
    exact Option.map_eq_some_iff.1 hname
  have hdeclared : (declared view (given view fresh) "/a.ts" "f").head?.map
      (fun (found : String × Declaration) => (found.1, found.2.nameSpan)) = some ("/a.ts", .ofBounds 9 10) := by
    decide +kernel
  obtain ⟨target, htarget, hname⟩ := htarget
  simp only [List.any_eq_true, Bool.and_eq_true, beq_iff_eq] at hparse
  obtain ⟨s, hs, ⟨⟨hkind, hsstart⟩, n, hn, ⟨⟨hfield, hnkind⟩, hnstart⟩, hnstop⟩, b, hb, hbkind, hbstart⟩ := hparse
  have hw : Wraps s s := .bare (by rw [hkind]; decide) (by rw [hkind]; decide)
  have hbinds : Binds s n := .one (by rw [hkind]; rfl) hn hfield hnkind
  have he : Consistent view fresh := consistent_fresh view
  have htracked : view.version "/a.ts" ≠ untracked := by decide
  have hfirst : FoundFirst view (given view fresh) "/a.ts" target.name "/a.ts" n := by
    rw [FoundFirst, hname, hnstart, hnstop]
    exact hdeclared
  have hheaded : isHeadedKind s.kind = true := by rw [hkind]; rfl
  have hbody : isBodyKind b.kind = true := by rw [hbkind]; rfl
  have hbefore : slice source s.start b.start = "function f(a: \x7b x: number \x7d): void " := by
    rw [hsstart, hbstart]
    decide +kernel
  have hline : ∀ c ∈ (slice source s.start b.start).toList, isLineEnd c = false := by
    have hlines : "function f(a: \x7b x: number \x7d): void ".toList.all (fun c => !isLineEnd c) = true := by decide
    rw [hbefore]
    intro c hc
    simpa using List.all_eq_true.1 hlines c hc
  obtain ⟨info, hinfo, hspan, hdisplay⟩ :=
    display_eq_iff he htarget htracked rfl hs hw hbinds hfirst hheaded hb hbody hline
  refine ⟨view, source, target, s, s, n, b, info, he, htarget, htracked, rfl, rfl, hs, hw, hbinds, hfirst, hheaded, hb,
    hbody, hline, by rw [hbefore]; decide +kernel, hinfo, hspan, fun h => hdisplay.1 h ?_⟩
  rw [hbefore]
  decide

end SyntaxEngine

end ScriptHost.Analysis
