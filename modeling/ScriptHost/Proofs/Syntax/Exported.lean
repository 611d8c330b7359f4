import ScriptHost.Proofs.Syntax.First
import ScriptHost.Proofs.Syntax.Mark

/-!
# Exported declarations

The words that a declaration begins with tell its kind as far as it declares types (`Script.typeWord?`).  A declaration
in an export stands right behind the words that export it, with nothing but white space and comments in between, unless
the export begins with a decorator (`Script.exported_tree`).
-/

namespace ScriptHost.Syntax.Script

open ScriptHost.Text

variable {chars : List Char}

/-! ### The words of declarations -/

/-- The word that a declaration of types begins with. -/
def typeWord? : String → Option String
  | "interface_declaration" => some "interface"
  | "type_alias_declaration" => some "type"
  | "ambient_declaration" => some "declare"
  | _ => none

/-- The kinds of declarations that declare nothing but types. -/
def isTypeKind (kind : String) : Bool := (typeWord? kind).isSome

/-- The words that other declarations begin with; those of classes may begin with decorators. -/
def otherWords : List String :=
  ["@", "async", "function", "const", "enum", "let", "var", "abstract", "class", "module", "namespace", "import"]

/-- The words that a declaration may begin with. -/
def firstWords (kind : String) : List String := (typeWord? kind).elim otherWords ([·])

theorem typeWord?_eq_of_mem {kind w : String} (h : w ∈ firstWords kind) (hw : w ∉ otherWords) :
    typeWord? kind = some w := by
  unfold firstWords at h
  cases hkind : typeWord? kind with
  | none =>
    rw [hkind] at h
    exact absurd h hw
  | some w' =>
    rw [hkind] at h
    rw [List.mem_singleton.1 h]

private theorem mem_of_mem_firstWords {kind w : String} (h : w ∈ firstWords kind) :
    w ∈ "interface" :: "type" :: "declare" :: otherWords := by
  unfold firstWords typeWord? at h
  split at h
  case h_4 => exact List.mem_append_right ["interface", "type", "declare"] h
  all_goals
    rw [List.mem_singleton.1 h]
    simp

/-- No declaration begins with the word that stands before a default. -/
private theorem leadWord_default_notMem (cs : List Char) (kind : String) :
    leadWord ("default".toList ++ cs) ∉ firstWords kind := by
  have hlead : leadWord ("default".toList ++ cs) = String.ofList ("default".toList ++ (takeWordParts cs).1) :=
    leadWord_of_all (c := 'd') (w := "efault".toList) rfl rfl cs
  have hall : ∀ w ∈ "interface" :: "type" :: "declare" :: otherWords, ¬ "default".toList <+: w.toList := by decide
  intro hmem
  rw [hlead] at hmem
  exact hall _ (mem_of_mem_firstWords hmem) ⟨(takeWordParts cs).1, String.toList_ofList.symm⟩

/-- The symbols that read something that is one of the first tokens `p`; decorators may also be left out. -/
def beginsWith (p : Lexeme → Bool) (sure : Bool) : Symbol → Bool
  | .decorators => !sure && p (.symbol ['@'] [])
  | _ => false

private theorem starts_grammar (p : Lexeme → Bool) (d : Dialect) (sure : Bool) (x : Symbol)
    (hx : beginsWith p sure x = true) : (grammar d x).starts p (beginsWith p) sure = true := by
  cases x with
  | decorators =>
    obtain ⟨hsure, hp⟩ := Bool.and_eq_true_iff.1 hx
    exact Bool.and_eq_true_iff.2 ⟨hsure, Bool.or_eq_true_iff.2 (.inl hp)⟩
  | _ => cases hx

private theorem isChoice_declaration (d : Dialect) : (grammar d .declaration).isChoice
    (fun kind a => a.starts (Lexeme.begins (firstWords kind)) (beginsWith (Lexeme.begins (firstWords kind))) true) =
      true := by
  rfl

/-- The first word of what comes next tells what a declaration can be. -/
private theorem of_declaration {d : Dialect} {s s' : State} (h : (Rule.ref Symbol.declaration).Derives (grammar d) s s')
    (hs : s.In chars) : ∃ n, s'.nodes = n :: s.nodes ∧ n.start = (Gap.scan s.tail).next.offset ∧
      leadWord (Gap.scan s.tail).next.rest ∈ firstWords n.kind := by
  cases h with
  | ref h =>
    obtain ⟨kind, a, s₁, hstarts, hrecasts, ha, rfl⟩ := h.of_isChoice (isChoice_declaration d) fun f hf => ⟨_, hf⟩
    have hinner := hs.withNodes []
    have hfirst := (ha.of_starts (leads_grammar d).recasts (starts_grammar _ d) hstarts hrecasts hinner).resolve_left
      fun h => Bool.noConfusion h.1
    exact ⟨_, rfl, hfirst.start_construct kind, (hfirst.leadWord_mem hinner).1⟩

/-! ### The words before a declaration -/

/-- What comes next behind a place is the words `ws` one after the other, and behind them the declaration `n`. -/
inductive Behind (n : Node) : List String → Cursor → Prop where
  | here {c} (hstart : n.start = (Gap.scan c).next.offset)
    (hword : leadWord (Gap.scan c).next.rest ∈ firstWords n.kind) : Behind n [] c
  | word {c w ws left} (hrest : (Gap.scan c).next.rest = w.toList ++ left)
    (h : Behind n ws ((Gap.scan c).next.past w.toList left)) : Behind n (w :: ws) c

private theorem Behind.weave {n : Node} {ws : List String} {c : Cursor} (h : Behind n ws c) (comments : List Comment) :
    Behind (weave comments n) ws c := by
  induction h with
  | here hstart hword => exact .here (by rw [start_weave, hstart]) (by rwa [kind_weave])
  | word hrest _ ih => exact .word hrest ih

/-- Whether no node is put in the place of a declaration. -/
def declaresNothing (r : Part) : Bool := !r.adds (.place .declaration) (addsMark (.place .declaration))

/-- What the lists of words that begin with `w` go on with. -/
def goOn (w : String) (words : List (List String)) : List (List String) :=
  words.filterMap fun
    | w' :: ws => if w' = w then some ws else none
    | [] => none

private theorem cons_mem_of_mem_goOn {w : String} {ws : List String} {words : List (List String)}
    (h : ws ∈ goOn w words) : w :: ws ∈ words := by
  obtain ⟨ws', hws', heq⟩ := List.mem_filterMap.1 h
  split at heq
  · split at heq <;> cases heq
    rename_i hw
    exact hw ▸ hws'
  · cases heq

/-- Whether a rule puts nothing in the place of a declaration but declarations that stand right behind one of the lists
of words. -/
def announces : List (List String) → Part → Bool
  | words, .field .declaration (.ref .declaration) => words.contains []
  | words, .alt a b => announces words a && announces words b
  | words, .seq a b =>
    declaresNothing (.seq a b) || (b.takesNothing && announces words a) ||
      match a.word? with
      | some w => announces (goOn w words) b
      | none => a.takesNothing && announces words b
  | _, r => declaresNothing r

private theorem forall_of_declaresNothing {d : Dialect} {r : Part} {s s' : State} (h : r.Derives (grammar d) s s')
    (hr : declaresNothing r = true) (hrecasts : Recasts (grammar d) r) (hs : s.In chars)
    (hnone : ∀ n ∈ s.nodes, n.field ≠ some .declaration) : ∀ n ∈ s'.nodes, n.field ≠ some .declaration := by
  have hcount := h.countP_le (marks_declaration d) hs (by simpa [declaresNothing] using hr) hrecasts
  have hzero : s.nodes.countP (Mark.on (.place .declaration)) = 0 := by
    simpa [Mark.on] using hnone
  have hzero' : s'.nodes.countP (Mark.on (.place .declaration)) = 0 := by omega
  simpa [Mark.on] using hzero'

/-- A declaration that is put in its place stands right there. -/
private theorem behind_of_place {d : Dialect} {s s' : State}
    (h : (Rule.field .declaration (.ref .declaration) : Part).Derives (grammar d) s s') (hs : s.In chars)
    (hnone : ∀ n ∈ s.nodes, n.field ≠ some .declaration) :
    ∀ n ∈ s'.nodes, n.field = some .declaration → Behind n [] s.tail := by
  cases h with
  | @field f a s s' h =>
    obtain ⟨n, hnodes, hstart, hword⟩ := of_declaration h hs
    have hlast : (s'.mapLast (Node.withField .declaration)).nodes = n.withField .declaration :: s.nodes := by
      rw [State.mapLast, hnodes]
    intro m hm hplace
    rw [hlast] at hm
    obtain rfl := (List.mem_cons.1 hm).resolve_right fun hm => hnone m hm hplace
    refine .here ?_ ?_
    · rw [Node.start_withField, hstart]
    · cases n <;> exact hword

/-- Whatever such a rule puts in the place of a declaration stands right behind one of the lists of words. -/
private theorem behind_of_announces {d : Dialect} {r : Part} {words : List (List String)} {s s' : State}
    (h : r.Derives (grammar d) s s') (hr : announces words r = true) (hrecasts : Recasts (grammar d) r)
    (hs : s.In chars) (hnone : ∀ n ∈ s.nodes, n.field ≠ some .declaration) :
    ∀ n ∈ s'.nodes, n.field = some .declaration → ∃ ws ∈ words, Behind n ws s.tail := by
  fun_induction announces words r generalizing s s' with
  | case1 words =>
    intro n hn hplace
    exact ⟨[], List.contains_iff_mem.1 hr, behind_of_place h hs hnone n hn hplace⟩
  | case2 words a b iha ihb =>
    obtain ⟨hra, hrb⟩ := List.forall_mem_append.1 hrecasts
    rw [Bool.and_eq_true] at hr
    cases h with
    | first h => exact iha h hr.1 hra hs hnone
    | second h => exact ihb h hr.2 hrb hs hnone
  | case3 words a b iha ihword ihb =>
    rw [Bool.or_eq_true, Bool.or_eq_true, Bool.and_eq_true] at hr
    rcases hr with (hnothing | ⟨hnothing, hra⟩) | hr
    · intro n hn hplace
      exact absurd hplace (forall_of_declaresNothing h hnothing hrecasts hs hnone n hn)
    all_goals
      obtain ⟨hrecasts_a, hrecasts_b⟩ := List.forall_mem_append.1 hrecasts
      cases h
      rename_i s₁ ha hb
    · rw [hb.eq_of_takesNothing hnothing]
      exact iha ha hra hrecasts_a hs hnone
    · split at hr
      · rename_i w hw
        obtain ⟨⟨left, hrest, htail⟩, m, hm, hnodes⟩ := ha.of_word? hw hs
        have hnone' : ∀ n ∈ s₁.nodes, n.field ≠ some .declaration := by
          rw [hnodes]
          exact List.forall_mem_cons.2 ⟨by rw [hm]; exact nofun, hnone⟩
        intro n hn hplace
        obtain ⟨ws, hws, hbehind⟩ := ihword w hb hr hrecasts_b (ha.leadsTo hs).1 hnone' n hn hplace
        exact ⟨w :: ws, cons_mem_of_mem_goOn hws, .word hrest (htail ▸ hbehind)⟩
      · rw [Bool.and_eq_true] at hr
        obtain rfl := ha.eq_of_takesNothing hr.1
        exact ihb hb hr.2 hrecasts_b hs hnone
  | case4 words r =>
    intro n hn hplace
    exact absurd hplace (forall_of_declaresNothing h hr hrecasts hs hnone n hn)

/-! ### Exports -/

/-- The words behind which an export has its declaration. -/
def exportWords : List (List String) := [["export"], ["export", "default"]]

/-- What a rule reads behind the decorators that it reads first. -/
def behindDecorators : Part → Part
  | .seq (.ref .decorators) b => b
  | r => r

/-- Whether an export is made of words that export it, and of its declaration right behind them. -/
def exports (kind : String) (a : Part) : Bool :=
  kind != "export_statement" ||
    (a.starts (Lexeme.begins ["@", "export"]) (beginsWith (Lexeme.begins ["@", "export"])) true &&
      announces exportWords (behindDecorators a))

private theorem makes_exports (d : Dialect) (x : Symbol) : (grammar d x).makes
    (· != "export_statement") exports = true := by
  cases x with
  | binary level => cases level using cases_level <;> rfl
  | _ => cases d <;> rfl

/-- An export that is begun behind a place begins with the word for it or with a decorator; in the first case its
declaration stands right behind the words that export it. -/
structure Exported (chars : List Char) (start stop : Nat) (children : List Node) (c : Cursor) : Prop where
  leads : (Cursor.mk 0 chars).LeadsTo c
  start_eq : start = (Gap.scan c).next.offset
  leadWord_mem : leadWord (Gap.scan c).next.rest ∈ ["@", "export"]
  le : start + byteLength (leadWord (Gap.scan c).next.rest).toList ≤ stop
  behind n : n ∈ children → n.field = some .declaration →
    leadWord (Gap.scan c).next.rest = "@" ∨ ∃ ws ∈ exportWords, Behind n ws c

private theorem behind_of_exports {d : Dialect} {a : Part} {s s' : State} (h : a.Derives (grammar d) s s')
    (ha : announces exportWords (behindDecorators a) = true) (hrecasts : Recasts (grammar d) a) (hs : s.In chars)
    (hnone : ∀ n ∈ s.nodes, n.field ≠ some .declaration) : ∀ n ∈ s'.nodes, n.field = some .declaration →
      leadWord (Gap.scan s.tail).next.rest = "@" ∨ ∃ ws ∈ exportWords, Behind n ws s.tail := by
  unfold behindDecorators at ha
  split at ha
  · rename_i b
    obtain ⟨hra, hrb⟩ := List.forall_mem_append.1 hrecasts
    have hstarts : (Rule.ref Symbol.decorators).starts (Lexeme.begins ["@"]) (beginsWith (Lexeme.begins ["@"])) false =
        true := rfl
    cases h with
    | seq hdecorators hb =>
      rcases hdecorators.of_starts (leads_grammar d).recasts (starts_grammar _ d) hstarts hra hs with ⟨-, rfl⟩ | hfirst
      · intro n hn hplace
        exact .inr (behind_of_announces hb ha hrb hs hnone n hn hplace)
      · intro n hn hplace
        exact .inl (List.mem_singleton.1 (hfirst.leadWord_mem hs).1)
  · intro n hn hplace
    exact .inr (behind_of_announces h ha hrecasts hs hnone n hn hplace)

/-- An export has the form of exports. -/
def Exporting (chars : List Char) (kind : String) (start stop : Nat) (children : List Node) : Prop :=
  kind = "export_statement" → ∃ c, Exported chars start stop children c

private theorem invariant_exporting (d : Dialect) (chars : List Char) :
    Invariant d chars (· != "export_statement") exports (Exporting chars) where
  sound :=
    { plain := fun hkind start stop children hexport => absurd hexport (bne_iff_ne.1 hkind)
      construct := fun {kind a s s'} hcheck hrecasts hderives hs hnil hexport => by
        rw [exports, hexport, bne_self_eq_false, Bool.false_or, Bool.and_eq_true] at hcheck
        have hfirst := (hderives.of_starts (leads_grammar d).recasts (starts_grammar _ d) hcheck.1 hrecasts
          hs).resolve_left fun h => Bool.noConfusion h.1
        have hnone : ∀ n ∈ s.nodes, n.field ≠ some .declaration := by
          rw [hnil]
          exact List.forall_mem_nil _
        have hbehind := behind_of_exports hderives hcheck.2 hrecasts hs hnone
        have hstart := Starts.start_construct (s := s) (by rwa [← hnil]) kind
        obtain ⟨hmem, hle⟩ := hfirst.leadWord_mem hs
        exact ⟨s.tail,
          { leads := hs.leads
            start_eq := hstart
            leadWord_mem := hmem
            le := by rwa [hstart]
            behind := fun n hn => hbehind n (List.mem_reverse.1 hn) }⟩ }
  makes := makes_exports d
  recast := by simp [isRecast]
  error := rfl
  program := rfl
  weave comments h hexport := by
    obtain ⟨c, hexported⟩ := h hexport
    refine ⟨c, { hexported with behind := fun n hn hplace => ?_ }⟩
    rcases mem_weaveAll hn with ⟨k, rfl⟩ | ⟨m, hm, comments', rfl⟩
    · cases hplace
    · rw [field_weave] at hplace
      refine (hexported.behind m hm hplace).imp_right fun h => ?_
      obtain ⟨ws, hws, hbehind⟩ := h
      exact ⟨ws, hws, hbehind.weave comments'⟩

/-- In the tree of every text, exports have the form of exports. -/
theorem exported_tree (d : Dialect) (text : String) : (tree d text).Everywhere (Exporting text.toList) :=
  (invariant_exporting d text.toList).everywhere_tree

/-! ### White space only -/

/-- The words one after the other, each with nothing but white space behind it. -/
inductive Spaced : List String → List Char → Prop where
  | nil : Spaced [] []
  | cons {w ws blanks cs} (hblanks : blanks.all isBlank = true) (h : Spaced ws cs) :
    Spaced (w :: ws) (w.toList ++ blanks ++ cs)

/-- Whether something comes next that is neither white space nor the beginning of a comment. -/
def stops (cs : List Char) : Bool := cs.head?.any fun c => !isSpacing c && c != '/'

theorem stops_append {cs : List Char} (h : stops cs = true) (rest : List Char) : stops (cs ++ rest) = true := by
  cases cs with
  | nil => cases h
  | cons => exact h

private theorem stops_of_spaced {ws : List String} {lead rest : List Char} (h : Spaced ws lead)
    (hws : ∀ w ∈ ws, stops w.toList = true) (hrest : stops rest = true) : stops (lead ++ rest) = true := by
  cases h with
  | nil => exact hrest
  | cons =>
    rw [List.append_assoc, List.append_assoc]
    exact stops_append (hws _ (List.mem_cons_self ..)) _

/-- From white space a gap leads to what comes next. -/
private theorem next_scan_blanks {blanks cs : List Char} (hblanks : blanks.all isBlank = true) (h : stops cs = true)
    (offset : Nat) : (Gap.scan ⟨offset, blanks ++ cs⟩).next = ⟨offset + byteLength blanks, cs⟩ := by
  have hscan : ∀ broken offset,
      (Gap.scanFrom [] broken .spacing offset (blanks ++ cs)).next = ⟨offset + byteLength blanks, cs⟩ := by
    induction blanks with
    | nil =>
      intro broken offset
      cases cs with
      | nil => cases h
      | cons c cs =>
        rw [stops, List.head?_cons, Option.any_some, Bool.and_eq_true, Bool.not_eq_true', bne_iff_ne] at h
        rw [List.nil_append, Gap.scanFrom_spacing _ _ _ _ (fun _ hc _ => h.2 hc) (fun _ hc _ => h.2 hc), h.1]
        rfl
    | cons c blanks ih =>
      intro broken offset
      rw [List.all_cons, Bool.and_eq_true] at hblanks
      have hc : c ≠ '/' := by
        rintro rfl
        exact absurd hblanks.1 (by decide)
      have hspacing : isSpacing c = true := by
        rw [isSpacing, hblanks.1]
        rfl
      rw [List.cons_append, Gap.scanFrom_spacing _ _ _ _ (fun _ h _ => hc h) (fun _ h _ => hc h), if_pos hspacing,
        ih hblanks.2, byteLength_cons, Nat.add_assoc]
  exact hscan false offset

/-- Words that stand before a declaration are passed together with the white space behind them. -/
private theorem Behind.skip {n : Node} {ws vs : List String} {lead rest : List Char} (hspaced : Spaced ws lead)
    (hws : ∀ w ∈ ws, stops w.toList = true) (hrest : stops rest = true) {c : Cursor}
    (hnext : (Gap.scan c).next.rest = lead ++ rest) (h : Behind n (ws ++ vs) c) :
    ∃ c', Behind n vs c' ∧ (Gap.scan c').next = ⟨(Gap.scan c).next.offset + byteLength lead, rest⟩ := by
  induction hspaced generalizing c with
  | nil => exact ⟨c, h, by rw [byteLength_nil, Nat.add_zero, ← List.nil_append rest, ← hnext]⟩
  | @cons w ws blanks cs hblanks hspaced ih =>
    obtain ⟨-, hws'⟩ := List.forall_mem_cons.1 hws
    cases h with
    | word hleft h =>
      rename_i left
      have hsame : w.toList ++ left = w.toList ++ (blanks ++ (cs ++ rest)) := by
        rw [← hleft, hnext, List.append_assoc, List.append_assoc]
      obtain rfl := List.append_cancel_left hsame
      have hscan := next_scan_blanks hblanks (stops_of_spaced hspaced hws' hrest)
        ((Gap.scan c).next.offset + byteLength w.toList)
      obtain ⟨c', hbehind, hnext'⟩ := ih hws' (congrArg Cursor.rest hscan) h
      refine ⟨c', hbehind, hnext'.trans ?_⟩
      show Cursor.mk ((Gap.scan ⟨(Gap.scan c).next.offset + byteLength w.toList, blanks ++ (cs ++ rest)⟩).next.offset +
        byteLength cs) rest = ⟨(Gap.scan c).next.offset + byteLength (w.toList ++ blanks ++ cs), rest⟩
      rw [hscan]
      simp only [byteLength_append, Nat.add_assoc]

private theorem stops_of_mem_exportWords {ws : List String} (hws : ws ∈ exportWords) :
    ∀ w ∈ ws, stops w.toList = true := by
  have hall : ∀ ws ∈ exportWords, ∀ w ∈ ws, stops w.toList = true := by decide
  exact hall ws hws

/-- What stands right behind the first word is no declaration if it is the second word. -/
private theorem Behind.not_default {n : Node} {c : Cursor} (h : Behind n ["export"] c) {blanks : List Char}
    (hblanks : blanks.all isBlank = true) (rest : List Char) :
    (Gap.scan c).next.rest ≠ "export".toList ++ blanks ++ [] ++ ("default".toList ++ rest) := by
  intro hnext
  have hspaced : Spaced ["export"] ("export".toList ++ blanks ++ []) := .cons hblanks .nil
  obtain ⟨c', hbehind, hscan⟩ := h.skip hspaced (stops_of_mem_exportWords (List.mem_cons_self ..)) rfl hnext
  cases hbehind with
  | here hstart hword =>
    rw [hscan] at hword
    exact leadWord_default_notMem _ _ hword

/-- Where words that export are followed by white space only, the declaration behind them begins at what comes next. -/
theorem Behind.of_spaced {n : Node} {ws ws' : List String} {lead rest : List Char} {c : Cursor} (h : Behind n ws c)
    (hws : ws ∈ exportWords) (hws' : ws' ∈ exportWords) (hspaced : Spaced ws' lead) (hrest : stops rest = true)
    (hdefault : ¬ "default".toList <+: rest) (hnext : (Gap.scan c).next.rest = lead ++ rest) :
    n.start = (Gap.scan c).next.offset + byteLength lead ∧ leadWord rest ∈ firstWords n.kind := by
  have hall := stops_of_mem_exportWords hws'
  -- what is behind the same words begins there
  have hsame : ws = ws' →
      n.start = (Gap.scan c).next.offset + byteLength lead ∧ leadWord rest ∈ firstWords n.kind := by
    rintro rfl
    rw [← List.append_nil ws] at h
    obtain ⟨c', hbehind, hscan⟩ := h.skip hspaced hall hrest hnext
    cases hbehind with
    | here hstart hword =>
      rw [hscan] at hstart hword
      exact ⟨hstart, hword⟩
  simp only [exportWords, List.mem_cons, List.not_mem_nil, or_false] at hws hws'
  rcases hws with rfl | rfl <;> rcases hws' with rfl | rfl
  · exact hsame rfl
  · obtain _ | ⟨hblanks, hlast⟩ := hspaced
    obtain _ | @⟨_, _, blanks', cs, -, -⟩ := hlast
    refine absurd ?_ (h.not_default hblanks (blanks' ++ cs ++ rest))
    simpa only [List.append_assoc, List.nil_append] using hnext
  · -- behind the first word comes another one than the declaration stands behind
    have htwo : Behind n (["export"] ++ ["default"]) c := h
    obtain ⟨c', hbehind, hscan⟩ := htwo.skip hspaced hall hrest hnext
    cases hbehind with
    | word hleft =>
      rw [hscan] at hleft
      exact absurd ⟨_, hleft.symm⟩ hdefault
  · exact hsame rfl

end ScriptHost.Syntax.Script
