import ScriptHost.Merge.Prelude
import ScriptHost.Proofs.Host.Merge
import ScriptHost.Proofs.Syntax.Opening

/-!
# Reading a merged text back

A merged text has every statement on lines of its own.  It reads back as the statements it was made of if and only if
each of them is what a text begins with that consists of it and of those behind it on the lines below
(`typePrelude_reads_back_iff`).  One that may go on takes in the one behind it, as an ambient module without a body does
with a block.
-/

namespace ScriptHost.Merge

open ScriptHost.Analysis ScriptHost.Host ScriptHost.Syntax ScriptHost.Syntax.Script ScriptHost.Text

/-! ### The statements of a text -/

/-- A text without a syntax error. -/
def Clean (path text : String) : Prop := ∀ s ∈ statementsIn path text, s.kind ≠ "ERROR"

instance (path text : String) : Decidable (Clean path text) :=
  inferInstanceAs (Decidable (∀ s ∈ statementsIn path text, s.kind ≠ "ERROR"))

/-- A node that is a statement of a tree. -/
def isTop (n : Node) : Bool := n.isNamed && n.kind != "comment"

private theorem isTop_of_isStatementKind {n : Node} (hkind : isStatementKind n.kind = true)
    (hnamed : n.isNamed = true) : isTop n = true := by
  rw [isStatementKind, Bool.and_eq_true] at hkind
  rw [isTop, hnamed, hkind.2]
  rfl

theorem map_statementsOf {α : Type} (f : Node → α) (tree : Node) :
    (statementsOf tree).map (fun x => f x.2) = (tree.children.filter isTop).map f := by
  have hzip : (((none :: tree.children.map some).zip tree.children).map Prod.snd) = tree.children :=
    List.map_snd_zip (by simp)
  have hfilter := List.filter_map (p := isTop) (f := Prod.snd) (l := (none :: tree.children.map some).zip tree.children)
  rw [hzip] at hfilter
  rw [hfilter, List.map_map]
  rfl

private theorem map_statementsIn {α : Type} (f : String → Span → String → α) {path text : String}
    {comments : List Comment} {nodes : List Node}
    (h : tree (dialectOf path) text = .branch "program" none 0 text.utf8ByteSize (weaveAll comments nodes)) :
    (statementsIn path text).map (fun s => f s.kind s.span s.text) =
      (nodes.filter isTop).map fun n => f n.kind (.ofBounds n.start n.stop) (n.textIn text) := by
  have htop : ∀ comments n, isTop (weave comments n) = isTop n := by
    intro comments n
    rw [isTop, isNamed_weave, kind_weave, isTop]
  rw [← map_filter_weaveAll htop (fun comments n => by
    rw [kind_weave, start_weave, stop_weave, textIn_weave]) (fun c => rfl) comments nodes]
  have hchildren : (tree (dialectOf path) text).children = weaveAll comments nodes := by
    rw [h]
    rfl
  rw [← hchildren, ← map_statementsOf]
  unfold statementsIn ParsedScript.read
  dsimp only
  rw [List.map_map]
  rfl

section

variable {path text : String} {nodes : List Node} {texts : List (List Char)}

private theorem clean_iff {comments : List Comment}
    (h : tree (dialectOf path) text = .branch "program" none 0 text.utf8ByteSize (weaveAll comments nodes)) :
    Clean path text ↔ ∀ n ∈ nodes, isTop n = true → n.kind ≠ "ERROR" := by
  have hkinds := map_statementsIn (fun kind _ _ => kind) h
  have hmem : ∀ kind, kind ∈ (statementsIn path text).map (·.kind) ↔ ∃ n ∈ nodes, isTop n = true ∧ n.kind = kind := by
    intro kind
    rw [hkinds]
    simp [and_assoc]
  constructor
  · rintro hclean n hn htop herror
    obtain ⟨s, hs, hkind⟩ := List.mem_map.1 ((hmem "ERROR").2 ⟨n, hn, htop, herror⟩)
    exact hclean s hs hkind
  · rintro hnodes s hs herror
    obtain ⟨n, hn, htop, hkind⟩ := (hmem "ERROR").1 (List.mem_map.2 ⟨s, hs, herror⟩)
    exact hnodes n hn htop hkind

/-- The statements of a text that has been read are what was read. -/
private theorem statementsIn_of_reads (h : Reads (dialectOf path) true ⟨0, text.toList⟩ nodes texts) :
    Clean path text ∧ (statementsIn path text).map (·.text) = texts.map String.ofList := by
  obtain ⟨comments, nodes', htree, hnodes, -⟩ := tree_spec (dialectOf path) text
  obtain rfl := hnodes _ _ h
  have hkinds := kinds_of_reads h
  have htop : ∀ n ∈ nodes', isTop n = true := by
    intro n hn
    obtain ⟨hkind, hnamed⟩ := hkinds n hn
    exact isTop_of_isStatementKind hkind hnamed
  refine ⟨(clean_iff htree).2 fun n hn _ herror => ?_, ?_⟩
  · have hkind := (hkinds n hn).1
    rw [herror] at hkind
    exact absurd hkind (by decide)
  · have htexts := texts_of_reads h (.refl _)
    rw [String.ofList_toList] at htexts
    rw [map_statementsIn (fun _ _ text => text) htree, List.filter_eq_self.2 htop]
    exact htexts

theorem reads_of_clean (h : Clean path text) :
    ∃ nodes texts, Reads (dialectOf path) true ⟨0, text.toList⟩ nodes texts := by
  obtain ⟨comments, nodes, htree, -, hreads⟩ := tree_spec (dialectOf path) text
  refine ⟨nodes, hreads fun n hn hnamed herror => (clean_iff htree).1 h n hn ?_ herror⟩
  rw [isTop, hnamed, herror]
  rfl

end

/-! ### The first statement of a text -/

/-- The parse of a text begins with a statement that stands at its beginning and has the text `taken`. -/
def BeginsAs (path text taken : String) : Prop :=
  ∃ first ∈ (statementsIn path text).head?, first.kind ≠ "ERROR" ∧ first.span.start = 0 ∧ first.text = taken

/-- The first statement of a text is the first node of its tree. -/
private theorem head?_statementsIn {path text : String} {comments : List Comment} {nodes : List Node}
    (h : tree (dialectOf path) text = .branch "program" none 0 text.utf8ByteSize (weaveAll comments nodes)) {n : Node}
    (htop : isTop n = true) (hn : nodes.head? = some n) : ∃ first, (statementsIn path text).head? = some first ∧
      first.kind = n.kind ∧ first.span.start = n.start ∧ first.text = n.textIn text := by
  have hmap := map_statementsIn (fun kind span text => (kind, span.start, text)) h
  obtain ⟨more, rfl⟩ := List.head?_eq_some_iff.1 hn
  rw [List.filter_cons_of_pos htop, List.map_cons] at hmap
  obtain ⟨first, rest, hstatements, hfirst, -⟩ := List.map_eq_cons_iff.1 hmap
  simp only [Prod.mk.injEq] at hfirst
  exact ⟨first, by rw [hstatements]; rfl, hfirst⟩

/-- A node at the beginning of a text covers its first characters. -/
private theorem textIn_of_covers {text : String} {s : State} {n : Node} {taken : List Char}
    (hn : Covers ⟨0, text.toList⟩ s n taken) (hstart : n.start = 0) :
    n.textIn text = String.ofList taken ∧ n.stop = byteLength taken ∧ taken <+: text.toList := by
  have hoffset : (Gap.scan ⟨0, text.toList⟩).next.offset = 0 := hn.start ▸ hstart
  have hrest := rest_scan_of_offset hoffset
  refine ⟨?_, ?_, ⟨s.tail.rest, hn.rest.symm.trans hrest⟩⟩
  · have htext := hn.text [] hoffset.symm
    rwa [hrest, List.nil_append, String.ofList_toList] at htext
  · rw [hn.stop, hn.tail, hoffset, Nat.zero_add]

/-- What the parse of a text begins with is what is read of the text first. -/
private theorem beginsAs_iff {path text taken : String} (htaken : taken.toList <+: text.toList) :
    BeginsAs path text taken ↔ BeginsWith (dialectOf path) true text.toList taken.toList := by
  obtain ⟨comments, nodes, htree, hmatched, hfailed⟩ := tree_first (dialectOf path) text
  constructor
  · rintro ⟨first, hfirst, herror, hstart, htext⟩
    cases hread : readNext (dialectOf path) true ⟨0, text.toList⟩ with
    | failed reach =>
      -- then the tree begins with an error, if it has a statement
      cases hnodes : nodes.head? with
      | none =>
        have hmap := map_statementsIn (fun kind _ _ => kind) htree
        rw [List.head?_eq_none_iff.1 hnodes, List.filter_nil, List.map_nil, List.map_eq_nil_iff] at hmap
        rw [hmap] at hfirst
        cases hfirst
      | some n =>
        obtain ⟨hkind, hnamed⟩ := hfailed hread n hnodes
        obtain ⟨first', hfirst', hkind', -⟩ := head?_statementsIn htree (by rw [isTop, hnamed, hkind]; rfl) hnodes
        obtain rfl : first' = first := Option.some.inj (hfirst'.symm.trans hfirst)
        exact absurd (hkind'.trans hkind) herror
    | matched s =>
      obtain ⟨n, taken', hn⟩ := covers_readNext hread
      obtain ⟨first', hfirst', -, hstart', htext'⟩ :=
        head?_statementsIn htree (isTop_of_isStatementKind hn.kind hn.named) (hmatched hread hn.nodes)
      obtain rfl : first' = first := Option.some.inj (hfirst'.symm.trans hfirst)
      have hzero : n.start = 0 := hstart'.symm.trans hstart
      obtain ⟨hcovered, hstop, -⟩ := textIn_of_covers hn hzero
      rw [← htext', htext] at hcovered
      rw [hcovered, String.toList_ofList]
      exact ⟨s, n, hread, hn.nodes, hzero, hstop⟩
  · rintro ⟨s, n, hread, hnodes, hstart, hstop⟩
    obtain ⟨n', taken', hn⟩ := covers_readNext hread
    obtain rfl : n = n' := List.singleton_inj.1 (hnodes.symm.trans hn.nodes)
    obtain ⟨hcovered, hstop', more', hmore'⟩ := textIn_of_covers hn hstart
    obtain ⟨first, hfirst, hkind, hstart', htext⟩ :=
      head?_statementsIn htree (isTop_of_isStatementKind hn.kind hn.named) (hmatched hread hnodes)
    refine ⟨first, hfirst, fun herror => ?_, hstart'.trans hstart, ?_⟩
    · have hkind' := hn.kind
      rw [← hkind, herror] at hkind'
      exact absurd hkind' (by decide)
    · -- both texts come first, and they are equally long
      obtain ⟨more, hmore⟩ := htaken
      obtain ⟨hsame, -⟩ := append_inj_of_byteLength (hmore.trans hmore'.symm) (hstop.symm.trans hstop')
      rw [htext, hcovered, ← hsame, String.ofList_toList]

/-! ### Merged texts -/

/-- The statements of which a merged text is made. -/
def printed (compiled declarations : List Statement) : List Statement := declarations.filter isTypeOnly ++ compiled

private theorem toList_render (statements : List Statement) :
    (render statements).toList = onLines (statements.map (·.text.toList)) := by
  rw [render, String.toList_join, onLines, List.flatMap_map, List.flatMap_map]
  refine congrArg (fun f => List.flatMap f statements) (funext fun s => ?_)
  rw [String.toList_append]
  rfl

private theorem eq_render_of_typePrelude {compiled declarations : List Statement} {content : String}
    (h : typePrelude compiled declarations = .ok content) : content = render (printed compiled declarations) := by
  unfold typePrelude at h
  split at h
  · cases h
  · exact (Except.ok.inj h).symm

private theorem solid_of_clean {path text : String} (h : Clean path text) :
    ∀ s ∈ statementsIn path text, Solid s.text.toList := by
  obtain ⟨nodes, texts, hreads⟩ := reads_of_clean h
  have htexts := (statementsIn_of_reads hreads).2
  intro s hs
  have hmem : s.text ∈ texts.map String.ofList := htexts ▸ List.mem_map_of_mem hs
  obtain ⟨t, ht, heq⟩ := List.mem_map.1 hmem
  rw [← heq, String.toList_ofList]
  exact solid_of_reads hreads t ht

/-- Behind a line, nothing of the text of the line is changed. -/
private theorem prefix_line_iff (t more : List Char) : ['#', '!'] <+: t ++ '\n' :: more ↔ ['#', '!'] <+: t := by
  match t with
  | [] => simp
  | [a] => simp
  | a :: b :: rest => simp

/-- A statement on lines of its own begins a text, be it the first or not, if the parse of the text begins with it. -/
private theorem beginsWith_render_iff {path : String} {opening : Bool} {s : Statement} {post : List Statement} :
    BeginsWith (dialectOf path) opening (onLines (s.text.toList :: post.map (·.text.toList))) s.text.toList ↔
      BeginsAs path (render (s :: post)) s.text ∧ (opening = true ∨ hasLead "#!" s.text = false) := by
  have hlines : (render (s :: post)).toList = s.text.toList ++ '\n' :: onLines (post.map (·.text.toList)) := by
    rw [toList_render, List.map_cons, onLines_cons]
  have hlead : hasLead "#!" s.text = false ↔ ¬ ['#', '!'] <+: s.text.toList := by
    rw [hasLead, ← Bool.not_eq_true, List.isPrefixOf_iff_prefix]
    rfl
  rw [onLines_cons, beginsWith_iff, prefix_line_iff, ← hlead, ← hlines, beginsAs_iff ⟨_, hlines.symm⟩]

/-- Let two texts be parsed without an error, and let their statements be merged.  The merged text reads back as the
statements it was made of, without an error, if and only if each of them begins the text that consists of it and of
those behind it on the lines below.  What stands before a statement makes no difference, but a line that names an
interpreter has to be the first. -/
theorem typePrelude_reads_back_iff {compiledPath declarationsPath path compiled declarations content : String}
    (hc : Clean compiledPath compiled) (hd : Clean declarationsPath declarations)
    (h : typePrelude (statementsIn compiledPath compiled) (statementsIn declarationsPath declarations) = .ok content) :
    Clean path content ∧ (statementsIn path content).map (·.text) =
        (printed (statementsIn compiledPath compiled) (statementsIn declarationsPath declarations)).map (·.text) ↔
      ∀ pre s post,
        printed (statementsIn compiledPath compiled) (statementsIn declarationsPath declarations) = pre ++ s :: post →
        BeginsAs path (render (s :: post)) s.text ∧ (pre = [] ∨ hasLead "#!" s.text = false) := by
  have hcontent := eq_render_of_typePrelude h
  generalize hprinted : printed (statementsIn compiledPath compiled) (statementsIn declarationsPath declarations) =
    statements at hcontent ⊢
  have hsolid : ∀ t ∈ statements.map (·.text.toList), Solid t := by
    rw [← hprinted]
    simp only [printed, List.map_append, List.forall_mem_append, List.forall_mem_map, List.mem_filter, and_imp]
    exact ⟨fun s hs _ => solid_of_clean hd s hs, solid_of_clean hc⟩
  have htext : content.toList = onLines (statements.map (·.text.toList)) := by
    rw [hcontent, toList_render]
  have hahead : Ahead ⟨0, content.toList⟩ [] (onLines (statements.map (·.text.toList))) := ⟨.inl rfl, htext⟩
  have hstrings : (statements.map (·.text.toList)).map String.ofList = statements.map (·.text) := by
    simp
  constructor
  · rintro ⟨hclean, htexts⟩ pre s post heq
    obtain ⟨nodes, texts, hreads⟩ := reads_of_clean hclean
    have hsame : texts = statements.map (·.text.toList) := by
      have hread := (statementsIn_of_reads hreads).2
      rw [htexts, ← hstrings] at hread
      exact (List.map_injective_iff.2 (fun _ _ => String.ofList_injective) hread).symm
    rw [hsame] at hreads
    have hsplit : statements.map (·.text.toList) =
        pre.map (·.text.toList) ++ s.text.toList :: post.map (·.text.toList) := by
      rw [heq, List.map_append, List.map_cons]
    have hbegins := beginsWith_render_iff.1 (beginsWith_of_reads hreads hahead hsolid hsplit)
    simpa using hbegins
  · intro hall
    have hbegins : ∀ pre t post, statements.map (·.text.toList) = pre ++ t :: post →
        BeginsWith (dialectOf path) (true && pre.isEmpty) (onLines (t :: post)) t := by
      intro pre t post heq
      obtain ⟨pre', later, rfl, rfl, hlater⟩ := List.map_eq_append_iff.1 heq
      obtain ⟨s, post', rfl, rfl, rfl⟩ := List.map_eq_cons_iff.1 hlater
      refine beginsWith_render_iff.2 ?_
      simpa using hall pre' s post' rfl
    obtain ⟨nodes, hreads⟩ := reads_of_beginsWith hahead hbegins
    obtain ⟨hclean, htexts⟩ := statementsIn_of_reads hreads
    exact ⟨hclean, htexts.trans hstrings⟩

/-- The declarations of an ambient module stay apart from a call behind them. -/
theorem typePrelude_reads_back_of_module :
    Clean "/r/a.ts" "f();" ∧ Clean "/r/a-temp.ts" "declare module 'x';" ∧
      typePrelude (statementsIn "/r/a.ts" "f();") (statementsIn "/r/a-temp.ts" "declare module 'x';") =
        .ok "declare module 'x'\nf();\n" ∧
      (Clean "/r/a.ts" "declare module 'x'\nf();\n" ∧
        (statementsIn "/r/a.ts" "declare module 'x'\nf();\n").map (·.text) =
          (printed (statementsIn "/r/a.ts" "f();") (statementsIn "/r/a-temp.ts" "declare module 'x';")).map (·.text)) ∧
      ∀ pre s post,
        printed (statementsIn "/r/a.ts" "f();") (statementsIn "/r/a-temp.ts" "declare module 'x';") = pre ++ s :: post →
        BeginsAs "/r/a.ts" (render (s :: post)) s.text ∧ (pre = [] ∨ hasLead "#!" s.text = false) := by
  have hc : Clean "/r/a.ts" "f();" := by decide +kernel
  have hd : Clean "/r/a-temp.ts" "declare module 'x';" := by decide +kernel
  have h : typePrelude (statementsIn "/r/a.ts" "f();") (statementsIn "/r/a-temp.ts" "declare module 'x';") =
      .ok "declare module 'x'\nf();\n" := by decide +kernel
  have hback : Clean "/r/a.ts" "declare module 'x'\nf();\n" ∧
      (statementsIn "/r/a.ts" "declare module 'x'\nf();\n").map (·.text) =
        (printed (statementsIn "/r/a.ts" "f();") (statementsIn "/r/a-temp.ts" "declare module 'x';")).map (·.text) := by
    decide +kernel
  exact ⟨hc, hd, h, hback, (typePrelude_reads_back_iff hc hd h).1 hback⟩

/-- A block behind the declaration of an ambient module is read as its body: neither the two texts nor the merged one
have an error, but of the two statements one has become. -/
theorem not_typePrelude_reads_back :
    ¬ ∀ compiledPath declarationsPath path compiled declarations content : String,
      Clean compiledPath compiled → Clean declarationsPath declarations →
      typePrelude (statementsIn compiledPath compiled) (statementsIn declarationsPath declarations) = .ok content →
      Clean path content ∧ (statementsIn path content).map (·.text) =
        (printed (statementsIn compiledPath compiled) (statementsIn declarationsPath declarations)).map (·.text) := by
  intro hall
  have hback := hall "/r/a.ts" "/r/a-temp.ts" "/r/a.ts" "\x7b let a = 1; \x7d" "declare module 'x'"
    "declare module 'x'\n\x7b let a = 1; \x7d\n" (by decide +kernel) (by decide +kernel) (by decide +kernel)
  have htwo : (printed (statementsIn "/r/a.ts" "\x7b let a = 1; \x7d")
      (statementsIn "/r/a-temp.ts" "declare module 'x'")).map (·.text) =
        ["declare module 'x'", "\x7b let a = 1; \x7d"] := by decide +kernel
  have hone : (statementsIn "/r/a.ts" "declare module 'x'\n\x7b let a = 1; \x7d\n").map (·.text) =
      ["declare module 'x'\n\x7b let a = 1; \x7d"] := by decide +kernel
  rw [htwo, hone] at hback
  exact absurd hback.2 (by decide)

end ScriptHost.Merge
